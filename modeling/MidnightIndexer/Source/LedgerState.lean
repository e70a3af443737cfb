import MidnightIndexer.Lib.Outcome
import MidnightIndexer.Source.ProtocolVersion

/-!
# The versioned ledger state

indexer-common/src/domain/ledger/ledger_state.rs:146-400, 515-795 and
1007-1155. The source enum has one variant per ledger version and repeats every
operation for it; here the version is a field and the operations of the ledger
crates are indexed by it. Only where the two variants differ does a definition
look at the version: the translation and the bridge claim.

`LedgerCrates` is the boundary. Its operations are arbitrary functions of their
arguments, `none` being the crate's error, whose cause is not kept. UTXO and
ledger event extraction is behind it too, because it reads the crates' types.
-/

namespace MidnightIndexer.Source.ChainIndexer

open Lib

abbrev ByteVec := List UInt8

structure SyntheticCost where
  readTime : Nat
  computeTime : Nat
  blockUsage : Nat
  bytesWritten : Nat
  bytesChurned : Nat
  deriving DecidableEq, Repr

instance : Inhabited SyntheticCost := ⟨⟨0, 0, 0, 0, 0⟩⟩

/-- `NormalizedCost`; its fixed-point numbers only matter up to order here. -/
structure NormalizedCost where
  readTime : Int
  computeTime : Int
  blockUsage : Int
  bytesWritten : Int
  bytesChurned : Int
  deriving DecidableEq, Repr

structure BlockContext where
  tblock : Nat
  tblockErr : Nat
  parentBlockHash : ByteVec
  lastBlockTime : Nat
  deriving DecidableEq

/-- The crates' `TransactionResult`, with the outcome of each segment. -/
inductive CrateResult (Event : Type) where
  | success (events : List Event)
  | partialSuccess (segments : List (Nat × Bool)) (events : List Event)
  | failure

/-- The indexer's `TransactionResult`. -/
inductive TransactionResult where
  | success
  | partialSuccess (segments : List (Nat × Bool))
  | failure
  deriving DecidableEq, Repr

structure BridgeClaim where
  recipient : ByteVec
  amount : Nat
  deriving DecidableEq, Repr

structure LedgerCrates where
  State : LedgerVersion → Type
  ArenaKey : LedgerVersion → Type
  Transaction : LedgerVersion → Type
  SystemTransaction : LedgerVersion → Type
  VerifiedTransaction : LedgerVersion → Type
  Event : LedgerVersion → Type
  Parameters : LedgerVersion → Type
  ContractAddress : LedgerVersion → Type
  ContractState : LedgerVersion → Type
  UnshieldedUtxo : Type
  LedgerEvent : Type
  ContractBalance : Type
  new : (version : LedgerVersion) → (networkId : String) → State version
  deserializeState : (version : LedgerVersion) → ByteVec → Option (State version)
  arenaKey : {version : LedgerVersion} → State version → ArenaKey version
  serializeKey : {version : LedgerVersion} → ArenaKey version → Option ByteVec
  deserializeKey : (version : LedgerVersion) → ByteVec → Option (ArenaKey version)
  getLazy : {version : LedgerVersion} → ArenaKey version → Option (State version)
  translateLedgerState : State .V8 → Option (State .V9)
  parameters : {version : LedgerVersion} → State version → Parameters version
  blockLimits : {version : LedgerVersion} → Parameters version → SyntheticCost
  serializeParameters : {version : LedgerVersion} → Parameters version → Option ByteVec
  addCost : SyntheticCost → SyntheticCost → SyntheticCost
  normalize : (cost limits : SyntheticCost) → Option NormalizedCost
  deserializeTransaction : (version : LedgerVersion) → ByteVec → Option (Transaction version)
  cost : {version : LedgerVersion} → Transaction version → Parameters version →
    Option SyntheticCost
  fees : {version : LedgerVersion} → Transaction version → State version → Option Nat
  wellFormed : {version : LedgerVersion} → Transaction version → State version →
    (tblock : Nat) → Option (VerifiedTransaction version)
  apply : {version : LedgerVersion} → State version → VerifiedTransaction version →
    BlockContext → State version × CrateResult (Event version)
  regularUtxos : {version : LedgerVersion} → Transaction version → TransactionResult →
    State version → List UnshieldedUtxo × List UnshieldedUtxo
  bridgeClaim : Transaction .V9 → Option BridgeClaim
  deserializeSystemTransaction : (version : LedgerVersion) → ByteVec →
    Option (SystemTransaction version)
  systemCost : {version : LedgerVersion} → SystemTransaction version → Parameters version →
    SyntheticCost
  applySystem : {version : LedgerVersion} → State version → SystemTransaction version →
    (tblock : Nat) → Option (State version × List (Event version))
  systemUtxos : {version : LedgerVersion} → SystemTransaction version → State version →
    List UnshieldedUtxo
  ledgerEvents : {version : LedgerVersion} → List (Event version) → Option (List LedgerEvent)
  postBlockUpdate : {version : LedgerVersion} → State version → (tblock : Nat) →
    NormalizedCost → (overallFullness : Int) → Option (State version)
  zswapFirstFree : {version : LedgerVersion} → State version → Nat
  dustCommitmentsFirstFree : {version : LedgerVersion} → State version → Nat
  dustGenerationsFirstFree : {version : LedgerVersion} → State version → Nat
  zswapDigest : {version : LedgerVersion} → State version → ByteVec
  serializeDigest : LedgerVersion → ByteVec → Option ByteVec
  dustCommitmentRoot : {version : LedgerVersion} → State version → Option ByteVec
  dustGenerationRoot : {version : LedgerVersion} → State version → Option ByteVec
  deserializeContractAddress : (version : LedgerVersion) → ByteVec →
    Option (ContractAddress version)
  contractZswapState : {version : LedgerVersion} → State version → ContractAddress version →
    Option ByteVec
  deserializeContractState : (version : LedgerVersion) → ByteVec →
    Option (ContractState version)
  balances : {version : LedgerVersion} → ContractState version → Option (List ContractBalance)

/-- `ledger::Error`, without the causes. `balances` and `events` are
any error of reading contract balances and of `make_ledger_events`; `panic`
stands for a failed `expect`. -/
inductive LedgerError where
  | loadLedgerState (key : ByteVec)
  | serialize (what : String)
  | deserialize (what : String)
  | malformedTransaction
  | systemTransaction
  | blockLimitExceeded
  | transactionCost
  | backwardsLedgerStateTranslation (source target : LedgerVersion)
  | ledgerStateTranslation (source target : LedgerVersion)
  | balances
  | events
  | panic
  deriving DecidableEq, Repr

/-- The names in the errors end in the version. -/
def label (what : String) : LedgerVersion → String
  | .V8 => what ++ "V8"
  | .V9 => what ++ "V9"

structure LedgerState (crates : LedgerCrates) where
  version : LedgerVersion
  state : crates.State version
  blockFullness : SyntheticCost

/-- `ZswapMerkleTreeRoot`: a digest tagged with its version. -/
structure ZswapMerkleTreeRoot where
  version : LedgerVersion
  digest : ByteVec
  deriving DecidableEq, Repr

structure LedgerParameters (crates : LedgerCrates) where
  version : LedgerVersion
  parameters : crates.Parameters version

structure ApplyRegularTransactionOutcome (crates : LedgerCrates) where
  transactionResult : TransactionResult
  createdUnshieldedUtxos : List crates.UnshieldedUtxo
  spentUnshieldedUtxos : List crates.UnshieldedUtxo
  ledgerEvents : List crates.LedgerEvent
  fees : Nat
  bridgeClaim : Option BridgeClaim

structure ApplySystemTransactionOutcome (crates : LedgerCrates) where
  createdUnshieldedUtxos : List crates.UnshieldedUtxo
  ledgerEvents : List crates.LedgerEvent

/-- Block timestamps are milliseconds, the crates' are seconds. -/
def timestamp (blockTimestamp : UInt64) : Nat := blockTimestamp.toNat / 1000

def ZswapMerkleTreeRoot.serialize (crates : LedgerCrates) (root : ZswapMerkleTreeRoot) :
    Except LedgerError ByteVec :=
  okOr (crates.serializeDigest root.version root.digest)
    (.serialize (label "MerkleTreeDigest" root.version))

def LedgerParameters.serialize {crates : LedgerCrates} (parameters : LedgerParameters crates) :
    Except LedgerError ByteVec :=
  okOr (crates.serializeParameters parameters.parameters)
    (.serialize (label "SerializedLedgerParameters" parameters.version))

namespace LedgerState

variable {crates : LedgerCrates}

def new (crates : LedgerCrates) (networkId : String) (version : LedgerVersion) :
    LedgerState crates := ⟨version, crates.new version networkId, default⟩

def fromGenesis (crates : LedgerCrates) (raw : ByteVec) (version : LedgerVersion) :
    Except LedgerError (LedgerState crates) := do
  let state ← okOr (crates.deserializeState version raw)
    (.deserialize (label "GenesisLedgerState" version))
  return ⟨version, state, default⟩

def load (crates : LedgerCrates) (key : ByteVec) (version : LedgerVersion) :
    Except LedgerError (LedgerState crates) := do
  let arenaKey ← okOr (crates.deserializeKey version key)
    (.deserialize (label "TypedArenaKey" version))
  let state ← okOr (crates.getLazy arenaKey) (.loadLedgerState key)
  return ⟨version, state, default⟩

def translate (ledger : LedgerState crates) (version : LedgerVersion) :
    Except LedgerError (LedgerState crates) :=
  match ledger, version with
  | ⟨.V8, state, fullness⟩, .V8 => .ok ⟨.V8, state, fullness⟩
  | ⟨.V9, state, fullness⟩, .V9 => .ok ⟨.V9, state, fullness⟩
  | ⟨.V8, state, fullness⟩, .V9 => do
    let translated ← okOr (crates.translateLedgerState state) (.ledgerStateTranslation .V8 .V9)
    return ⟨.V9, translated, fullness⟩
  | ⟨.V9, _, _⟩, .V8 => .error (.backwardsLedgerStateTranslation .V9 .V8)

def root (ledger : LedgerState crates) : Except LedgerError ByteVec :=
  okOr (crates.serializeKey (crates.arenaKey ledger.state))
    (.serialize (label "LedgerState" ledger.version))

/-- The state is kept as it is; the write to the ledger DB is what `load`
relies on. -/
def persist (ledger : LedgerState crates) : Except LedgerError (LedgerState crates × ByteVec) := do
  let key ← okOr (crates.serializeKey (crates.arenaKey ledger.state))
    (.serialize (label "TypedArenaKey" ledger.version))
  return (ledger, key)

def zswapMerkleTreeRoot (ledger : LedgerState crates) : ZswapMerkleTreeRoot :=
  ⟨ledger.version, crates.zswapDigest ledger.state⟩

def dustCommitmentMerkleTreeRoot (ledger : LedgerState crates) : Except LedgerError ByteVec :=
  okOr (crates.dustCommitmentRoot ledger.state) (.serialize "DustCommitmentMerkleTreeRoot")

def dustGenerationMerkleTreeRoot (ledger : LedgerState crates) : Except LedgerError ByteVec :=
  okOr (crates.dustGenerationRoot ledger.state) (.serialize "DustGenerationMerkleTreeRoot")

def extractContractZswapState (ledger : LedgerState crates) (address : ByteVec) :
    Except LedgerError ByteVec := do
  let address ← okOr (crates.deserializeContractAddress ledger.version address)
    (.deserialize (label "ContractAddress" ledger.version))
  okOr (crates.contractZswapState ledger.state address)
    (.serialize (label "ZswapState" ledger.version))

/-- The result, the events and whether the cost counts towards the block. -/
def splitResult {Event : Type} : CrateResult Event → TransactionResult × List Event × Bool
  | .success events => (.success, events, true)
  | .partialSuccess segments events => (.partialSuccess segments, events, true)
  | .failure => (.failure, [], false)

/-- A bridge claim needs ledger 9. -/
def bridgeClaimOf (crates : LedgerCrates) : (version : LedgerVersion) →
    crates.Transaction version → Option BridgeClaim
  | .V8, _ => none
  | .V9, transaction => crates.bridgeClaim transaction

def applyRegularTransaction (ledger : LedgerState crates) (raw parentBlockHash : ByteVec)
    (blockTimestamp parentBlockTimestamp wellFormedTimestamp : UInt64) :
    Except LedgerError (LedgerState crates × ApplyRegularTransactionOutcome crates) := do
  let transaction ← okOr (crates.deserializeTransaction ledger.version raw)
    (.deserialize (label "LedgerTransaction" ledger.version))
  let context : BlockContext :=
    { tblock := timestamp blockTimestamp
      tblockErr := 30
      parentBlockHash := parentBlockHash
      lastBlockTime := timestamp parentBlockTimestamp }
  let cost ← okOr (crates.cost transaction (crates.parameters ledger.state)) .transactionCost
  let fees ← okOr (crates.fees transaction ledger.state) .transactionCost
  let verified ← okOr (crates.wellFormed transaction ledger.state (timestamp wellFormedTimestamp))
    .malformedTransaction
  let applied := crates.apply ledger.state verified context
  let result := splitResult applied.2
  let fullness :=
    if result.2.2 then crates.addCost ledger.blockFullness cost else ledger.blockFullness
  let utxos := crates.regularUtxos transaction result.1 applied.1
  let events ← okOr (crates.ledgerEvents result.2.1) .events
  return (⟨ledger.version, applied.1, fullness⟩,
    ⟨result.1, utxos.1, utxos.2, events, fees,
      bridgeClaimOf crates ledger.version transaction⟩)

def applySystemTransaction (ledger : LedgerState crates) (raw : ByteVec)
    (blockTimestamp : UInt64) :
    Except LedgerError (LedgerState crates × ApplySystemTransactionOutcome crates) := do
  let transaction ← okOr (crates.deserializeSystemTransaction ledger.version raw)
    (.deserialize (label "SystemTransaction" ledger.version))
  let cost := crates.systemCost transaction (crates.parameters ledger.state)
  let applied ← okOr (crates.applySystem ledger.state transaction (timestamp blockTimestamp))
    .systemTransaction
  let events ← okOr (crates.ledgerEvents applied.2) .events
  return (⟨ledger.version, applied.1, crates.addCost ledger.blockFullness cost⟩,
    ⟨crates.systemUtxos transaction applied.1, events⟩)

/-- The clamped cost always normalises in the source; if not, it panics. -/
def clampAndNormalize (crates : LedgerCrates) (cost limits : SyntheticCost) :
    Except LedgerError NormalizedCost :=
  okOr (crates.normalize
    { readTime := min cost.readTime limits.readTime
      computeTime := min cost.computeTime limits.computeTime
      blockUsage := min cost.blockUsage limits.blockUsage
      bytesWritten := min cost.bytesWritten limits.bytesWritten
      bytesChurned := min cost.bytesChurned limits.bytesChurned } limits) .panic

def overallFullness (cost : NormalizedCost) : Int :=
  max (max (max cost.readTime cost.computeTime) cost.blockUsage)
    (max cost.bytesWritten cost.bytesChurned)

def finalizeApplyTransactions (ledger : LedgerState crates) (blockTimestamp : UInt64) :
    Except LedgerError (LedgerState crates × LedgerParameters crates) := do
  let normalized ← clampAndNormalize crates ledger.blockFullness
    (crates.blockLimits (crates.parameters ledger.state))
  let state ← okOr (crates.postBlockUpdate ledger.state (timestamp blockTimestamp) normalized
    (overallFullness normalized)) .blockLimitExceeded
  return (⟨ledger.version, state, default⟩, ⟨ledger.version, crates.parameters state⟩)

end LedgerState

end MidnightIndexer.Source.ChainIndexer
