import MidnightIndexer.Source.LedgerState

/-!
# Applying a block's transactions

chain-indexer/src/domain/ledger_state.rs:30-330 and
chain-indexer/src/domain/transaction.rs. The first regular transaction of a
block is validated against the parent block's time plus two slots, all others
against the block's own time; `apply` always runs at the block's time.

Timestamps are `u64` milliseconds. The bump is an unchecked addition, so it
wraps as in a release build.
-/

namespace MidnightIndexer.Source.ChainIndexer

open Lib

def mempoolTblockBumpMillis : UInt64 := 2 * 6000

inductive ContractAttributes where
  | deploy
  | call (entryPoint : String)
  | update
  deriving DecidableEq, Repr

structure ContractAction (crates : LedgerCrates) where
  address : ByteVec
  state : ByteVec
  zswapState : ByteVec
  extractedBalances : List crates.ContractBalance
  attributes : ContractAttributes

structure NodeRegularTransaction (crates : LedgerCrates) where
  hash : ByteVec
  protocolVersion : ProtocolVersion
  raw : ByteVec
  identifiers : List ByteVec
  contractActions : List (ContractAction crates)

structure NodeSystemTransaction where
  hash : ByteVec
  protocolVersion : ProtocolVersion
  raw : ByteVec

inductive NodeTransaction (crates : LedgerCrates) where
  | regular (transaction : NodeRegularTransaction crates)
  | system (transaction : NodeSystemTransaction)

structure RegularTransaction (crates : LedgerCrates) where
  hash : ByteVec
  protocolVersion : ProtocolVersion
  raw : ByteVec
  identifiers : List ByteVec
  contractActions : List (ContractAction crates)
  paidFees : Nat
  estimatedFees : Nat
  transactionResult : TransactionResult
  zswapMerkleTreeRoot : ByteVec
  zswapStartIndex : Nat
  zswapEndIndex : Nat
  dustCommitmentStartIndex : Nat
  dustCommitmentEndIndex : Nat
  dustGenerationStartIndex : Nat
  dustGenerationEndIndex : Nat
  createdUnshieldedUtxos : List crates.UnshieldedUtxo
  spentUnshieldedUtxos : List crates.UnshieldedUtxo
  ledgerEvents : List crates.LedgerEvent
  bridgeClaim : Option BridgeClaim

structure SystemTransaction (crates : LedgerCrates) where
  hash : ByteVec
  protocolVersion : ProtocolVersion
  raw : ByteVec
  createdUnshieldedUtxos : List crates.UnshieldedUtxo
  ledgerEvents : List crates.LedgerEvent

inductive Transaction (crates : LedgerCrates) where
  | regular (transaction : RegularTransaction crates)
  | system (transaction : SystemTransaction crates)

/-- The chain indexer's `ledger_state::Error`. -/
inductive DomainError where
  | create (cause : LedgerError)
  | load (cause : LedgerError)
  | translate (cause : LedgerError)
  | applyRegularTransaction (hash : ByteVec) (cause : LedgerError)
  | applySystemTransaction (hash : ByteVec) (cause : LedgerError)
  | postApplyTransactions (cause : LedgerError)
  | serializeMerkleTreeRoot (hash : ByteVec) (cause : LedgerError)
  | extractContractZswapState (hash : ByteVec) (cause : LedgerError)
  | deserializeContractState (hash address : ByteVec) (cause : LedgerError)
  | getContractBalances (hash address : ByteVec) (cause : LedgerError)
  deriving DecidableEq, Repr

namespace LedgerState

variable {crates : LedgerCrates}

/-- The balances in a contract state. An empty state belongs to a failed action,
whose balances are left alone. -/
def contractBalances (hash : ByteVec) (version : LedgerVersion)
    (action : ContractAction crates) : Except DomainError (List crates.ContractBalance) :=
  if action.state.isEmpty then .ok action.extractedBalances
  else do
    let state ← (okOr (crates.deserializeContractState version action.state)
      (LedgerError.deserialize (label "ContractState" version))).mapError
        (.deserializeContractState hash action.address)
    (okOr (crates.balances state) LedgerError.balances).mapError
      (.getContractBalances hash action.address)

def updateContractAction (ledger : LedgerState crates) (hash : ByteVec) (version : LedgerVersion)
    (action : ContractAction crates) : Except DomainError (ContractAction crates) := do
  let zswapState ← (ledger.extractContractZswapState action.address).mapError
    (.extractContractZswapState hash)
  let balances ← contractBalances hash version action
  return { action with zswapState := zswapState, extractedBalances := balances }

/-- Apply a regular transaction and record what it did between the indexes
before and after. -/
def applyRegular (ledger : LedgerState crates) (transaction : NodeRegularTransaction crates)
    (parentBlockHash : ByteVec)
    (blockTimestamp parentBlockTimestamp wellFormedTimestamp : UInt64) :
    Except DomainError (LedgerState crates × RegularTransaction crates) := do
  let applied ← (ledger.applyRegularTransaction transaction.raw parentBlockHash blockTimestamp
    parentBlockTimestamp wellFormedTimestamp).mapError
      (.applyRegularTransaction transaction.hash)
  let after := applied.1
  let outcome := applied.2
  let root ← (after.zswapMerkleTreeRoot.serialize crates).mapError
    (.serializeMerkleTreeRoot transaction.hash)
  let actions ← transaction.contractActions.mapM
    (after.updateContractAction transaction.hash transaction.protocolVersion.ledgerVersion)
  return (after,
    { hash := transaction.hash
      protocolVersion := transaction.protocolVersion
      raw := transaction.raw
      identifiers := transaction.identifiers
      contractActions := actions
      paidFees := outcome.fees
      estimatedFees := outcome.fees
      transactionResult := outcome.transactionResult
      zswapMerkleTreeRoot := root
      zswapStartIndex := crates.zswapFirstFree ledger.state
      zswapEndIndex := crates.zswapFirstFree after.state
      dustCommitmentStartIndex := crates.dustCommitmentsFirstFree ledger.state
      dustCommitmentEndIndex := crates.dustCommitmentsFirstFree after.state
      dustGenerationStartIndex := crates.dustGenerationsFirstFree ledger.state
      dustGenerationEndIndex := crates.dustGenerationsFirstFree after.state
      createdUnshieldedUtxos := outcome.createdUnshieldedUtxos
      spentUnshieldedUtxos := outcome.spentUnshieldedUtxos
      ledgerEvents := outcome.ledgerEvents
      bridgeClaim := outcome.bridgeClaim })

def applySystem (ledger : LedgerState crates) (transaction : NodeSystemTransaction)
    (blockTimestamp : UInt64) :
    Except DomainError (LedgerState crates × SystemTransaction crates) := do
  let applied ← (ledger.applySystemTransaction transaction.raw blockTimestamp).mapError
    (.applySystemTransaction transaction.hash)
  return (applied.1,
    { hash := transaction.hash
      protocolVersion := transaction.protocolVersion
      raw := transaction.raw
      createdUnshieldedUtxos := applied.2.createdUnshieldedUtxos
      ledgerEvents := applied.2.ledgerEvents })

/-- The time a regular transaction is validated at. -/
def wellFormedTimestamp (first bump : Bool) (blockTimestamp parentBlockTimestamp : UInt64) :
    UInt64 :=
  if first && bump then parentBlockTimestamp + mempoolTblockBumpMillis else blockTimestamp

/-- The loop over the transactions; `first` is cleared by a regular one. -/
def applyEach (parentBlockHash : ByteVec) (blockTimestamp parentBlockTimestamp : UInt64)
    (bump : Bool) (ledger : LedgerState crates) (first : Bool) :
    List (NodeTransaction crates) →
      Except DomainError (LedgerState crates × List (Transaction crates))
  | [] => .ok (ledger, [])
  | .regular transaction :: rest => do
    let applied ← ledger.applyRegular transaction parentBlockHash blockTimestamp
      parentBlockTimestamp
      (wellFormedTimestamp first bump blockTimestamp parentBlockTimestamp)
    let later ← applyEach parentBlockHash blockTimestamp parentBlockTimestamp bump applied.1
      false rest
    return (later.1, .regular applied.2 :: later.2)
  | .system transaction :: rest => do
    let applied ← ledger.applySystem transaction blockTimestamp
    let later ← applyEach parentBlockHash blockTimestamp parentBlockTimestamp bump applied.1
      first rest
    return (later.1, .system applied.2 :: later.2)

def applyTransactions (ledger : LedgerState crates) (transactions : List (NodeTransaction crates))
    (parentBlockHash : ByteVec) (blockTimestamp parentBlockTimestamp : UInt64)
    (bumpFirstRegularTblock : Bool) :
    Except DomainError
      (LedgerState crates × List (Transaction crates) × LedgerParameters crates) := do
  let applied ← applyEach parentBlockHash blockTimestamp parentBlockTimestamp
    bumpFirstRegularTblock ledger true transactions
  let finalized ← (applied.1.finalizeApplyTransactions blockTimestamp).mapError
    .postApplyTransactions
  return (finalized.1, applied.2, finalized.2)

/-! ## What applying keeps -/

variable {ledger : LedgerState crates} {parentBlockHash : ByteVec}
  {blockTimestamp parentBlockTimestamp : UInt64} {bump first : Bool}
  {applied : LedgerState crates × List (Transaction crates)}
  {transactions : List (NodeTransaction crates)}

/-- A regular transaction that is applied: the check at its time, the state after it,
and what its record copies. -/
theorem applyRegular_success {transaction : NodeRegularTransaction crates} {time : UInt64}
    {applied : LedgerState crates × RegularTransaction crates}
    (success : ledger.applyRegular transaction parentBlockHash blockTimestamp
      parentBlockTimestamp time = .ok applied) : ∃ contents verified fullness,
      crates.deserializeTransaction ledger.version transaction.raw = some contents ∧
      crates.wellFormed contents ledger.state (timestamp time) = some verified ∧
      applied.1 = ⟨ledger.version, (crates.apply ledger.state verified
        ⟨timestamp blockTimestamp, 30, parentBlockHash, timestamp parentBlockTimestamp⟩).1,
        fullness⟩ ∧ applied.2.hash = transaction.hash ∧ applied.2.raw = transaction.raw ∧
      applied.2.bridgeClaim = bridgeClaimOf crates ledger.version contents := by
  unfold applyRegular at success
  obtain ⟨outcome, run, root, _, actions, _, success⟩ := bind₃_success success
  cases success
  have run := mapError_success run
  unfold applyRegularTransaction at run
  obtain ⟨contents, read, _, _, _, _, run⟩ := bind₃_success run
  obtain ⟨verified, checked, _, _, run⟩ := bind₂_success run
  cases run
  exact ⟨contents, verified, _, okOr_success read, okOr_success checked, rfl, rfl, rfl, rfl⟩

theorem applySystem_success {transaction : NodeSystemTransaction}
    {applied : LedgerState crates × SystemTransaction crates}
    (success : ledger.applySystem transaction blockTimestamp = .ok applied) :
    ∃ contents moved fullness,
      crates.deserializeSystemTransaction ledger.version transaction.raw = some contents ∧
      crates.applySystem ledger.state contents (timestamp blockTimestamp) = some moved ∧
      applied.1 = ⟨ledger.version, moved.1, fullness⟩ ∧ applied.2.hash = transaction.hash := by
  unfold applySystem at success
  obtain ⟨outcome, run, success⟩ := bind_success success
  cases success
  have run := mapError_success run
  unfold applySystemTransaction at run
  obtain ⟨contents, read, moved, stepped, _, _, run⟩ := bind₃_success run
  cases run
  exact ⟨contents, moved, _, okOr_success read, okOr_success stepped, rfl, rfl⟩

/-- One round of the loop. -/
def applyOne (parentBlockHash : ByteVec) (blockTimestamp parentBlockTimestamp : UInt64)
    (bump : Bool) (ledger : LedgerState crates) (first : Bool) :
    NodeTransaction crates → Except DomainError (LedgerState crates × Transaction crates)
  | .regular transaction =>
    (ledger.applyRegular transaction parentBlockHash blockTimestamp parentBlockTimestamp
      (wellFormedTimestamp first bump blockTimestamp parentBlockTimestamp)).map
        fun applied => (applied.1, .regular applied.2)
  | .system transaction =>
    (ledger.applySystem transaction blockTimestamp).map
      fun applied => (applied.1, .system applied.2)

/-- The flag after a round. -/
def stillFirst (first : Bool) : NodeTransaction crates → Bool
  | .regular _ => false
  | .system _ => first

theorem applyEach_cons (parentBlockHash : ByteVec)
    (blockTimestamp parentBlockTimestamp : UInt64) (bump : Bool) (ledger : LedgerState crates)
    (first : Bool) (transaction : NodeTransaction crates) (rest : List (NodeTransaction crates)) :
    applyEach parentBlockHash blockTimestamp parentBlockTimestamp bump ledger first
        (transaction :: rest) =
      applyOne parentBlockHash blockTimestamp parentBlockTimestamp bump ledger first transaction >>=
        fun one => applyEach parentBlockHash blockTimestamp parentBlockTimestamp bump one.1
          (stillFirst first transaction) rest >>= fun later => .ok (later.1, one.2 :: later.2) := by
  cases transaction with
  | regular transaction =>
    rw [applyEach, applyOne]
    cases ledger.applyRegular transaction parentBlockHash blockTimestamp parentBlockTimestamp
      (wellFormedTimestamp first bump blockTimestamp parentBlockTimestamp) <;> rfl
  | system transaction =>
    rw [applyEach, applyOne]
    cases ledger.applySystem transaction blockTimestamp <;> rfl

theorem applyEach_cons_success {transaction : NodeTransaction crates}
    {rest : List (NodeTransaction crates)}
    (success : applyEach parentBlockHash blockTimestamp parentBlockTimestamp bump ledger first
      (transaction :: rest) = .ok applied) : ∃ one later,
      applyOne parentBlockHash blockTimestamp parentBlockTimestamp bump ledger first transaction =
        .ok one ∧ applyEach parentBlockHash blockTimestamp parentBlockTimestamp bump one.1
        (stillFirst first transaction) rest = .ok later ∧
      applied = (later.1, one.2 :: later.2) := by
  rw [applyEach_cons] at success
  obtain ⟨one, step, later, tail, success⟩ := bind₂_success success
  cases success
  exact ⟨one, later, step, tail, rfl⟩

/-- The rule for the loop: what one transaction keeps of the state the loop keeps,
and what applying a regular one ensures holds of all that are returned. -/
theorem applyEach_keeps (inv : LedgerState crates → Prop)
    (ensured : RegularTransaction crates → Prop)
    (regular : ∀ ledger transaction time applied, inv ledger →
      ledger.applyRegular transaction parentBlockHash blockTimestamp parentBlockTimestamp time =
        .ok applied → inv applied.1 ∧ ensured applied.2)
    (system : ∀ ledger transaction applied, inv ledger →
      ledger.applySystem transaction blockTimestamp = .ok applied → inv applied.1)
    (initially : inv ledger)
    (success : applyEach parentBlockHash blockTimestamp parentBlockTimestamp bump ledger first
      transactions = .ok applied) :
    inv applied.1 ∧ ∀ t, Transaction.regular t ∈ applied.2 → ensured t := by
  induction transactions generalizing ledger first applied with
  | nil =>
    cases success
    exact ⟨initially, nofun⟩
  | cons transaction rest ih =>
    obtain ⟨one, later, step, tail, rfl⟩ := applyEach_cons_success success
    have round : inv one.1 ∧ ∀ t, one.2 = .regular t → ensured t := by
      cases transaction with
      | regular transaction =>
        obtain ⟨done, applies, rfl⟩ := map_success step
        obtain ⟨kept, here⟩ := regular ledger transaction _ done initially applies
        refine ⟨kept, fun t same => ?_⟩
        cases same
        exact here
      | system transaction =>
        obtain ⟨done, applies, rfl⟩ := map_success step
        exact ⟨system ledger transaction done initially applies, nofun⟩
    obtain ⟨last, behind⟩ := ih round.1 tail
    refine ⟨last, fun t member => ?_⟩
    rcases List.mem_cons.mp member with same | old
    · exact round.2 t same.symm
    · exact behind t old

/-- The loop stays at its version, and so what a transaction ensures at it holds of all. -/
theorem applyEach_regular {version : LedgerVersion} (ensured : RegularTransaction crates → Prop)
    (each : ∀ (ledger : LedgerState crates) transaction time applied, ledger.version = version →
      ledger.applyRegular transaction parentBlockHash blockTimestamp parentBlockTimestamp time =
        .ok applied → ensured applied.2) (current : ledger.version = version)
    (success : applyEach parentBlockHash blockTimestamp parentBlockTimestamp bump ledger first
      transactions = .ok applied) :
    applied.1.version = version ∧ ∀ t, Transaction.regular t ∈ applied.2 → ensured t := by
  refine applyEach_keeps (fun ledger => ledger.version = version) ensured ?_ ?_ current success
  · intro ledger transaction time applied current step
    obtain ⟨_, _, _, _, _, moved, _⟩ := applyRegular_success step
    rw [moved]
    exact ⟨current, each ledger transaction time applied current step⟩
  · intro ledger transaction applied current step
    obtain ⟨_, _, _, _, _, moved, _⟩ := applySystem_success step
    rw [moved]
    exact current

/-- A block leaves its ledger version and no fullness behind. -/
theorem applyTransactions_settled
    {applied : LedgerState crates × List (Transaction crates) × LedgerParameters crates}
    (success : ledger.applyTransactions transactions parentBlockHash blockTimestamp
      parentBlockTimestamp bump = .ok applied) :
    applied.1.version = ledger.version ∧ applied.1.blockFullness = default := by
  unfold applyTransactions at success
  obtain ⟨each, loop, finalized, final, success⟩ := bind₂_success success
  cases success
  have final := mapError_success final
  unfold finalizeApplyTransactions at final
  obtain ⟨_, _, _, _, final⟩ := bind₂_success final
  cases final
  exact ⟨(applyEach_regular (fun _ => True) (fun _ _ _ _ _ _ => trivial) rfl loop).1, rfl⟩

end LedgerState

end MidnightIndexer.Source.ChainIndexer
