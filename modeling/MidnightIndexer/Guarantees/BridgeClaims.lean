import MidnightIndexer.Guarantees.RestartEquivalence
import MidnightIndexer.Source.BridgeClaims

/-!
# Stored bridge claims and the claims that took effect

The claim of a transaction is read from its contents alone. A failed transaction
changes nothing on the ledger, yet its claim is stored like any other and counts
towards the claimed amount of its address ever after.
-/

namespace MidnightIndexer.Guarantees.BridgeClaims

open Lib List RestartEquivalence Source.ChainIndexer Source.IndexerApi Storage
open Source (LedgerVersion ProtocolVersion)

variable {crates : LedgerCrates} {others : ChildTables crates}

/-- The ledger applies a rewards claim as a whole or not at all. -/
def TookEffect (result : TransactionResult) : Prop := result ≠ .failure

instance (result : TransactionResult) : Decidable (TookEffect result) :=
  inferInstanceAs (Decidable (result ≠ .failure))

/-- A serialised transaction of the ledger version is a `CardanoBridge` claim. -/
def IsBridgeClaim (bridge : BridgeCrate crates) (version : LedgerVersion) (raw : ByteVec) : Prop :=
  version = .V9 ∧ ∃ transaction claim, crates.deserializeTransaction .V9 raw = some transaction ∧
    bridge.contents transaction = .claimRewards claim ∧ claim.kind = .cardanoBridge

def bridgeClaimIn (bridge : BridgeCrate crates) : LedgerVersion → ByteVec → Option BridgeClaim
  | .V8, _ => none
  | .V9, raw => (crates.deserializeTransaction .V9 raw).bind fun transaction =>
      (bridge.contents transaction).bridgeClaim

theorem bridgeClaim_isSome_iff {crate : UtxoCrate} (transaction : LedgerTransactionV9 crate) :
    transaction.bridgeClaim.isSome ↔
      ∃ claim, transaction = .claimRewards claim ∧ claim.kind = .cardanoBridge := by
  cases transaction with
  | standard t => simp [LedgerTransactionV9.bridgeClaim]
  | claimRewards claim =>
    unfold LedgerTransactionV9.bridgeClaim
    split <;> simp_all

variable (bridge : BridgeCrate crates)

theorem isBridgeClaim_iff (version : LedgerVersion) (raw : ByteVec) :
    IsBridgeClaim bridge version raw ↔ (bridgeClaimIn bridge version raw).isSome := by
  cases version with
  | V8 => simp [IsBridgeClaim, bridgeClaimIn]
  | V9 =>
    rw [IsBridgeClaim, bridgeClaimIn]
    cases crates.deserializeTransaction .V9 raw with
    | none => simp
    | some transaction => simp [bridgeClaim_isSome_iff]

theorem bridgeClaimOf_eq {version : LedgerVersion} {raw : ByteVec}
    {transaction : crates.Transaction version}
    (read : crates.deserializeTransaction version raw = some transaction) :
    LedgerState.bridgeClaimOf crates version transaction = bridgeClaimIn bridge version raw := by
  cases version with
  | V8 => rfl
  | V9 =>
    rw [bridgeClaimIn, read]
    exact bridge.extracted transaction

/-! ## One transaction -/

variable {ledger : LedgerState crates} {transaction : NodeRegularTransaction crates}
  {parentBlockTimestamp : UInt64} {applied : LedgerState crates × RegularTransaction crates}
  {storage after : Storage (withBridgeClaims others)} {node : NodeApi} {block : NodeBlock crates}

/-- Applying a transaction takes the claim in it, whatever the result. -/
theorem applyRegular_claim {parentBlockHash : ByteVec} {blockTimestamp time : UInt64}
    (success : ledger.applyRegular transaction parentBlockHash blockTimestamp
      parentBlockTimestamp time = .ok applied) : applied.2.raw = transaction.raw ∧
      applied.2.bridgeClaim = bridgeClaimIn bridge ledger.version transaction.raw := by
  obtain ⟨contents, _, _, read, _, _, _, raw, claim⟩ := LedgerState.applyRegular_success success
  exact ⟨raw, claim.trans (bridgeClaimOf_eq bridge read)⟩

/-- A row for the transaction was added to `bridge_claims`. -/
def ClaimStored (storage after : Storage (withBridgeClaims others)) : Prop :=
  ∃ row, row.transactionId = storage.transactions.length + 1 ∧
    after.bridgeClaims = storage.bridgeClaims ++ [row]

theorem claimStored_iff {blockId : Nat} {t : RegularTransaction crates}
    (success : saveTransaction blockId storage (.regular t) = .ok after) :
    ClaimStored storage after ↔ t.bridgeClaim.isSome := by
  unfold ClaimStored
  rw [saveTransaction_regular_claims success, saveClaimOf]
  cases t.bridgeClaim with
  | none => simp
  | some claim => simp [saveBridgeClaim]

theorem claimStored_iff_isBridgeClaim {parentBlockHash : ByteVec} {blockTimestamp time : UInt64}
    {blockId : Nat} (success : ledger.applyRegular transaction parentBlockHash blockTimestamp
      parentBlockTimestamp time = .ok applied)
    (saved : saveTransaction blockId storage (.regular applied.2) = .ok after) :
    ClaimStored storage after ↔ IsBridgeClaim bridge ledger.version transaction.raw := by
  rw [claimStored_iff saved, (applyRegular_claim bridge success).2, isBridgeClaim_iff]

/-! ## One block -/

theorem applyBlock_transactions {applied : Applied crates}
    (fresh : ledger.version = block.protocolVersion.ledgerVersion)
    (success : applyBlock node block parentBlockTimestamp ledger = .ok applied) :
    ∃ base : LedgerState crates, ∃ done, base.version = block.protocolVersion.ledgerVersion ∧
      applyToLedger block parentBlockTimestamp base = .ok done ∧ applied.2 = done.2 := by
  unfold applyBlock at success
  split at success
  · unfold applyGenesis at success
    split at success
    · exact ⟨ledger, applied, fresh, success, rfl⟩
    · obtain ⟨raw, _, genesis, created, root, _, success⟩ := bind₃_success success
      split at success
      · obtain ⟨done, run, success⟩ := bind_success success
        cases success
        exact ⟨ledger, done, fresh, run, rfl⟩
      · exact ⟨genesis, applied, (fromGenesis_settled (mapError_success created)).1, success, rfl⟩
  · exact ⟨ledger, applied, fresh, success, rfl⟩

/-- A transaction with the ledger version it was applied at. -/
abbrev Entry (crates : LedgerCrates) := LedgerVersion × Transaction crates

/-- The claim in an applied transaction, as its serialisation has it. -/
def Entry.claim (bridge : BridgeCrate crates) (entry : Entry crates) : Option BridgeClaim :=
  match entry.2 with
  | .regular t => bridgeClaimIn bridge entry.1 t.raw
  | .system _ => none

theorem computeBlock_claims {networkId : String} {process : Process crates}
    {computed : Computed crates}
    (success : computeBlock node networkId process block = .ok computed) :
    computed.transactions.filterMap savedClaim =
      (computed.transactions.map (Prod.mk block.protocolVersion.ledgerVersion)).filterMap
        (Entry.claim bridge) := by
  obtain ⟨base, applied, based, run, _, listed⟩ := computeBlock_success success
  obtain ⟨start, done, version, run, same⟩ :=
    applyBlock_transactions (ledgerForBlock_version based) run
  rw [listed, same, filterMap_map]
  apply filterMap_congr
  intro t member
  cases t with
  | system t => rfl
  | regular t =>
    obtain ⟨each, loop, final⟩ := bind_success (mapError_success run)
    obtain ⟨_, _, final⟩ := bind_success final
    cases final
    refine (LedgerState.applyEach_regular (fun t => t.bridgeClaim =
      bridgeClaimIn bridge block.protocolVersion.ledgerVersion t.raw) ?_ version loop).2 t member
    intro ledger transaction time applied current step
    obtain ⟨raw, claim⟩ := applyRegular_claim bridge step
    rw [claim, raw, current]

/-! ## Whole runs of the chain indexer -/

def recorded (node : NodeApi) (networkId : String) (process : Process crates)
    (block : NodeBlock crates) : List (Entry crates) :=
  match computeBlock node networkId process block with
  | .ok computed => computed.transactions.map (Prod.mk block.protocolVersion.ledgerVersion)
  | .error _ => []

/-- The chain indexer over any starts, blocks and stops. -/
def indexed (others : ChildTables crates) (node : NodeApi) (networkId : String)
    (moves : List (Service.Move (NodeBlock crates))) :
    Service.Logged (Storage (withBridgeClaims others)) (Process crates) (Entry crates) :=
  run ((chainIndexer (withBridgeClaims others) node networkId).logStep (recorded node networkId))
    ⟨Storage.empty (withBridgeClaims others), none, []⟩ moves

theorem indexBlock_claims {networkId : String} {process : Process crates}
    {next : Process crates × Storage (withBridgeClaims others)}
    (success : indexBlock node networkId process storage block = .ok next) :
    next.2.bridgeClaims.map claimOfRow = storage.bridgeClaims.map claimOfRow ++
      (recorded node networkId process block).filterMap (Entry.claim bridge) := by
  obtain ⟨computed, change, compute, save, _⟩ := indexBlock_success success
  rw [saveBlock_claims save, computeBlock_claims bridge compute, recorded, compute]

/-- Along every run the table lists the claims of all saved transactions. -/
theorem indexed_claims (others : ChildTables crates) (node : NodeApi) (networkId : String)
    (moves : List (Service.Move (NodeBlock crates))) :
    (indexed others node networkId moves).store.bridgeClaims.map claimOfRow =
      (indexed others node networkId moves).log.filterMap (Entry.claim bridge) := by
  let listed : Storage (withBridgeClaims others) → List (Entry crates) → Prop :=
    fun storage log =>
      storage.bridgeClaims.map claimOfRow = log.filterMap (Entry.claim bridge)
  suffices keep : ∀ process storage block next log, listed storage log →
      (chainIndexer (withBridgeClaims others) node networkId).step process storage block =
        .ok next → listed next.2 (log ++ recorded node networkId process block) from
    Service.run_log_keeps keep _ moves rfl
  intro process storage block next log holds stepped
  change next.2.bridgeClaims.map _ = _
  rw [indexBlock_claims bridge stepped, holds, filterMap_append]

/-! ## The claimed amount -/

def claimTotal (recipient : ByteVec) (claims : List BridgeClaim) : Nat :=
  ((claims.filter fun claim => claim.recipient = recipient).map BridgeClaim.amount).sum

def Entry.failed (entry : Entry crates) : Bool :=
  match entry.2 with
  | .regular t => !decide (TookEffect t.transactionResult)
  | .system _ => false

def effectiveTotal (bridge : BridgeCrate crates) (recipient : ByteVec) (log : List (Entry crates)) :
    Nat :=
  claimTotal recipient ((log.filter fun entry => !Entry.failed entry).filterMap
    (Entry.claim bridge))

def failedTotal (bridge : BridgeCrate crates) (recipient : ByteVec) (log : List (Entry crates)) :
    Nat :=
  claimTotal recipient ((log.filter Entry.failed).filterMap (Entry.claim bridge))

theorem claimTotal_append (recipient : ByteVec) (first rest : List BridgeClaim) :
    claimTotal recipient (first ++ rest) =
      claimTotal recipient first + claimTotal recipient rest := by
  simp only [claimTotal, filter_append, map_append, sum_append_nat]

theorem claimTotal_log (recipient : ByteVec) (log : List (Entry crates)) :
    claimTotal recipient (log.filterMap (Entry.claim bridge)) =
      effectiveTotal bridge recipient log + failedTotal bridge recipient log := by
  have split := ((filter_append_perm Entry.failed log).filterMap (Entry.claim bridge)).filter
    fun claim => claim.recipient = recipient
  have sums := (split.map BridgeClaim.amount).sum_nat
  rw [filterMap_append] at sums
  change claimTotal recipient _ = claimTotal recipient _ at sums
  rw [← sums, claimTotal_append, Nat.add_comm]
  rfl

theorem claimed_eq (transfers : List BridgeTransferRow) (rows : List BridgeClaimRow)
    (recipient : ByteVec) : (getBridgeBalance transfers rows recipient).claimed =
      claimTotal recipient (rows.map claimOfRow) % 2 ^ 128 := by
  rw [claimTotal, filter_map, map_map]
  rfl

/-- A claim is stored for an applied transaction exactly when it is a bridge claim
that took effect, unless it is a bridge claim that failed. After every run of the
chain indexer the claimed amount of an address is the sum of its claims that took
effect exactly when that sum is a `u128` and its failed claims add up to nothing
in one. -/
theorem bridge_claims_exact_iff (bridge : BridgeCrate crates) (others : ChildTables crates) :
    (∀ (ledger : LedgerState crates) (transaction : NodeRegularTransaction crates)
      (parentBlockHash : ByteVec) (blockTimestamp parentBlockTimestamp time : UInt64)
      (applied : LedgerState crates × RegularTransaction crates) (blockId : Nat)
      (storage after : Storage (withBridgeClaims others)),
      ledger.applyRegular transaction parentBlockHash blockTimestamp parentBlockTimestamp time =
        .ok applied →
      Storage.saveTransaction blockId storage (.regular applied.2) = .ok after →
      ((ClaimStored storage after ↔ IsBridgeClaim bridge ledger.version transaction.raw ∧
          TookEffect applied.2.transactionResult) ↔
        ¬(IsBridgeClaim bridge ledger.version transaction.raw ∧
          applied.2.transactionResult = .failure))) ∧
    ∀ (node : NodeApi) (networkId : String) (moves : List (Service.Move (NodeBlock crates)))
      (transfers : List BridgeTransferRow) (recipient : ByteVec),
      let s := indexed others node networkId moves
      (getBridgeBalance transfers s.store.bridgeClaims recipient).claimed =
          effectiveTotal bridge recipient s.log ↔
        effectiveTotal bridge recipient s.log < 2 ^ 128 ∧
          2 ^ 128 ∣ failedTotal bridge recipient s.log := by
  constructor
  · intro ledger transaction parentBlockHash blockTimestamp parentBlockTimestamp time applied
      blockId storage after success saved
    rw [claimStored_iff_isBridgeClaim bridge success saved, TookEffect]
    tauto
  · intro node networkId moves transfers recipient
    dsimp only
    rw [claimed_eq, indexed_claims bridge, claimTotal_log]
    omega

/-! ## A claim that fails after one that does not -/

def claimCrate : UtxoCrate where
  VerifyingKey := ByteVec
  Intent := Unit
  ErasedIntent := Unit
  State := Unit
  userAddress key := key
  erase intent := intent
  intentHash _ _ := []
  guaranteedOutputs _ := []
  fallibleOutputs _ := []
  guaranteedInputs _ := []
  fallibleInputs _ := []
  night := []
  mkIntentHash _ _ := []
  persistentCommit _ _ := []
  nightIndices _ _ := false
  ctime _ _ := none

/-- Every transaction claims five for the address 7. -/
def sampleClaim : LedgerTransactionV9 claimCrate := .claimRewards ⟨⟨[7], 5, []⟩, .cardanoBridge⟩

/-- The ledger has one claim to grant: it fails once its state is not empty. -/
def claimCrates : LedgerCrates :=
  { sampleCrates with
    bridgeClaim := fun _ => sampleClaim.bridgeClaim
    apply := fun (state : ByteVec) _ _ =>
      if state.isEmpty then ([1], .success []) else (state, .failure)
    postBlockUpdate := fun state _ _ _ => some state }

def claimBridge : BridgeCrate claimCrates := ⟨claimCrate, fun _ => sampleClaim, fun _ => rfl⟩

def claimTables : ChildTables claimCrates where
  Tables := Unit
  empty := ()
  saveRegularTransaction _ _ _ _ := .ok ()
  saveSystemTransaction _ _ _ := .ok ()
  saveDustRegistrationEvents _ _ _ _ := .ok ()
  saveBridgeEvents _ _ _ _ := .ok ()

def claimTransaction : NodeRegularTransaction claimCrates := ⟨[1], sampleVersion .V9, [], [], []⟩

def claimBlock (claims : Nat) : NodeBlock claimCrates where
  hash := [0]
  height := 0
  protocolVersion := sampleVersion .V9
  parentHash := []
  author := none
  timestamp := 6000
  zswapMerkleTreeRoot := ⟨.V9, []⟩
  ledgerStateRoot := none
  transactions := List.replicate claims (.regular claimTransaction)
  dustRegistrationEvents := []
  bridgeEvents := []

def claimRun (claims : Nat) :
    Service.Logged (Storage (withBridgeClaims claimTables)) (Process claimCrates)
      (Entry claimCrates) :=
  indexed claimTables sampleApi "undeployed" [.start, .input (claimBlock claims)]

/-- The state of the ledger before a claim that succeeds, or after it. -/
def claimLedger (granted : Bool) : LedgerState claimCrates :=
  ⟨.V9, (if granted then [1] else [] : ByteVec), default⟩

/-- A claim that took effect is stored and reported. -/
theorem bridge_claims_exact_sample :
    (∃ applied after, (claimLedger false).applyRegular claimTransaction [] 6000 6000 6000 =
        .ok applied ∧
      Storage.saveTransaction 1 (Storage.empty (withBridgeClaims claimTables))
        (.regular applied.2) = .ok after ∧
      (ClaimStored (Storage.empty (withBridgeClaims claimTables)) after ↔
        IsBridgeClaim claimBridge .V9 [] ∧ TookEffect applied.2.transactionResult)) ∧
    (getBridgeBalance [] (claimRun 1).store.bridgeClaims [7]).claimed =
      effectiveTotal claimBridge [7] (claimRun 1).log ∧
    effectiveTotal claimBridge [7] (claimRun 1).log = 5 := by
  have exact_iff := bridge_claims_exact_iff claimBridge claimTables
  refine ⟨⟨_, _, rfl, rfl, ?_⟩, ?_, by decide +kernel⟩
  · apply (exact_iff.1 (claimLedger false) claimTransaction [] 6000 6000 6000 _ 1 _ _ rfl rfl).mpr
    intro failed
    exact absurd failed.2 (by decide)
  · exact (exact_iff.2 sampleApi "undeployed" _ [] [7]).mpr (by decide +kernel)

/-- The second claim fails, is stored and makes the claimed amount ten. -/
theorem failed_claim_counts :
    (∃ applied after, (claimLedger true).applyRegular claimTransaction [] 6000 6000 6000 =
        .ok applied ∧ applied.2.transactionResult = .failure ∧
      Storage.saveTransaction 1 (Storage.empty (withBridgeClaims claimTables))
        (.regular applied.2) = .ok after ∧
      ClaimStored (Storage.empty (withBridgeClaims claimTables)) after) ∧
    (getBridgeBalance [] (claimRun 2).store.bridgeClaims [7]).claimed = 10 ∧
    effectiveTotal claimBridge [7] (claimRun 2).log = 5 ∧
    failedTotal claimBridge [7] (claimRun 2).log = 5 := by
  refine ⟨⟨_, _, rfl, rfl, rfl, ⟨⟨1, 1, [7], 5⟩, rfl, rfl⟩⟩, ?_, ?_, ?_⟩ <;> decide +kernel

end MidnightIndexer.Guarantees.BridgeClaims
