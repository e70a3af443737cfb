import MidnightIndexer.Lib.Restart
import MidnightIndexer.Source.BlockStorage

/-!
# Indexing a block, and what a start rebuilds

chain-indexer/src/application.rs:86-104, 165-178, 408-512 and 655-733. Between
two blocks the process carries a ledger state and the parent block's timestamp.
A start reads both back: the timestamp of the highest row, and the ledger state
under that row's key and protocol version. That the retention window ends in
that key is `Guarantees/Resume.lean`.

Publishing, metrics and the caught-up status store nothing and are left out.
-/

namespace MidnightIndexer.Source.ChainIndexer

open Lib

structure NodeBlock (crates : LedgerCrates) where
  hash : ByteVec
  height : UInt64
  protocolVersion : ProtocolVersion
  parentHash : ByteVec
  author : Option ByteVec
  timestamp : UInt64
  zswapMerkleTreeRoot : ZswapMerkleTreeRoot
  ledgerStateRoot : Option ByteVec
  transactions : List (NodeTransaction crates)
  dustRegistrationEvents : List ByteVec
  bridgeEvents : List ByteVec

def NodeBlock.withoutAuthor {crates : LedgerCrates} (block : NodeBlock crates) :
    NodeBlock crates := { block with author := none }

/-- What indexing asks the node; `none` is an error. -/
structure NodeApi where
  fetchGenesisLedgerState : Option ByteVec
  fetchSystemParameters : (blockHash : ByteVec) → (blockHeight timestamp : UInt64) →
    NodeVersion → Option SystemParametersChange

/-- The errors of a run, with the source's contexts. -/
inductive IndexError where
  | domain (context : String) (cause : DomainError)
  | ledger (context : String) (cause : LedgerError)
  | serializeLedgerParameters (cause : LedgerError)
  | storage (context : String) (cause : StorageError)
  | fetchGenesisLedgerState
  | fetchSystemParameters
  | ledgerStateRootMismatch (hash : ByteVec) (height : UInt64) (node indexer : ByteVec)
  | zswapStateRootMismatch (hash : ByteVec) (height : UInt64)
      (node indexer : ZswapMerkleTreeRoot)
  deriving DecidableEq

/-- What a run carries from block to block. -/
structure Process (crates : LedgerCrates) where
  ledgerState : LedgerState crates
  parentBlockTimestamp : UInt64

variable {crates : LedgerCrates} {tables : ChildTables crates}

/-- The state the block is applied to, at the block's ledger version. -/
def ledgerForBlock (networkId : String) (block : NodeBlock crates) (ledger : LedgerState crates) :
    Except IndexError (LedgerState crates) :=
  if block.height = 0 then
    .ok (LedgerState.new crates networkId block.protocolVersion.ledgerVersion)
  else (ledger.translate block.protocolVersion.ledgerVersion).mapError
    fun e => .domain "translate ledger state" (.translate e)

/-- No parent time is known before the first block. -/
def parentTimestamp (current : UInt64) (block : NodeBlock crates) : UInt64 :=
  if current = 0 then block.timestamp else current

abbrev Applied (crates : LedgerCrates) :=
  LedgerState crates × List (Transaction crates) × LedgerParameters crates

/-- The closure `apply_transactions`. -/
def applyToLedger (block : NodeBlock crates) (parentBlockTimestamp : UInt64)
    (ledger : LedgerState crates) : Except IndexError (Applied crates) :=
  (ledger.applyTransactions block.transactions block.parentHash block.timestamp
    parentBlockTimestamp (decide (0 < block.height))).mapError
      (.domain "apply transactions to ledger state")

/-- A genesis state that already has the block's root replaces the state the
transactions were applied to; any other is what they are applied to. -/
def applyGenesis (node : NodeApi) (block : NodeBlock crates) (parentBlockTimestamp : UInt64)
    (ledger : LedgerState crates) : Except IndexError (Applied crates) :=
  match block.ledgerStateRoot with
  | none => applyToLedger block parentBlockTimestamp ledger
  | some ledgerStateRoot => do
    let raw ← okOr node.fetchGenesisLedgerState .fetchGenesisLedgerState
    let genesis ← (LedgerState.fromGenesis crates raw
      block.protocolVersion.ledgerVersion).mapError
        fun e => IndexError.domain "create ledger state from genesis" (.create e)
    let genesisRoot ← genesis.root.mapError (.ledger "compute genesis ledger state root")
    if ledgerStateRoot = genesisRoot then do
      let applied ← applyToLedger block parentBlockTimestamp ledger
      return (genesis, applied.2)
    else applyToLedger block parentBlockTimestamp genesis

def applyBlock (node : NodeApi) (block : NodeBlock crates) (parentBlockTimestamp : UInt64)
    (ledger : LedgerState crates) : Except IndexError (Applied crates) :=
  if block.height = 0 then applyGenesis node block parentBlockTimestamp ledger
  else applyToLedger block parentBlockTimestamp ledger

/-- Compare the ledger state root, where the node has one, and the zswap root. -/
def validate (block : NodeBlock crates) (ledger : LedgerState crates) :
    Except IndexError Unit := do
  let root ← ledger.root.mapError (.ledger "get ledger state root")
  if block.ledgerStateRoot.any fun nodeRoot => decide (nodeRoot ≠ root) then
    .error (.ledgerStateRootMismatch block.hash block.height
      (block.ledgerStateRoot.getD []) root)
  else if ledger.zswapMerkleTreeRoot ≠ block.zswapMerkleTreeRoot then
    .error (.zswapStateRootMismatch block.hash block.height block.zswapMerkleTreeRoot
      ledger.zswapMerkleTreeRoot)
  else .ok ()

/-- What the ledger contributes to a block. -/
structure Computed (crates : LedgerCrates) where
  ledgerState : LedgerState crates
  ledgerStateKey : ByteVec
  transactions : List (Transaction crates)
  zswapMerkleTreeRoot : ByteVec
  ledgerParameters : ByteVec
  dustCommitmentMerkleTreeRoot : ByteVec
  dustGenerationMerkleTreeRoot : ByteVec

/-- `index_block` up to the persisted ledger state. -/
def computeBlock (node : NodeApi) (networkId : String) (process : Process crates)
    (block : NodeBlock crates) : Except IndexError (Computed crates) := do
  let zswapRoot ← (block.zswapMerkleTreeRoot.serialize crates).mapError
    (.ledger "convert node block into domain")
  let base ← ledgerForBlock networkId block process.ledgerState
  let applied ← applyBlock node block
    (parentTimestamp process.parentBlockTimestamp block) base
  let parameters ← applied.2.2.serialize.mapError .serializeLedgerParameters
  let dustCommitmentRoot ← applied.1.dustCommitmentMerkleTreeRoot.mapError
    (.ledger "get dust commitment merkle tree root")
  let dustGenerationRoot ← applied.1.dustGenerationMerkleTreeRoot.mapError
    (.ledger "get dust generation merkle tree root")
  let _ ← validate block applied.1
  let persisted ← applied.1.persist.mapError (.ledger "persist ledger state")
  return ⟨persisted.1, persisted.2, applied.2.1, zswapRoot, parameters, dustCommitmentRoot,
    dustGenerationRoot⟩

def toDomain (block : NodeBlock crates) (computed : Computed crates) : Block :=
  { hash := block.hash
    height := block.height
    protocolVersion := block.protocolVersion
    parentHash := block.parentHash
    author := block.author
    timestamp := block.timestamp
    zswapMerkleTreeRoot := computed.zswapMerkleTreeRoot
    dustRegistrationEvents := block.dustRegistrationEvents
    bridgeEvents := block.bridgeEvents
    ledgerParameters := computed.ledgerParameters
    zswapEndIndex := crates.zswapFirstFree computed.ledgerState.state
    dustCommitmentEndIndex := crates.dustCommitmentsFirstFree computed.ledgerState.state
    dustGenerationEndIndex := crates.dustGenerationsFirstFree computed.ledgerState.state
    dustCommitmentMerkleTreeRoot := computed.dustCommitmentMerkleTreeRoot
    dustGenerationMerkleTreeRoot := computed.dustGenerationMerkleTreeRoot }

/-- A parameter changed if the node has one and the stored one differs or is
missing; a parameter that the node no longer has is not a change. -/
def changed {α : Type} [DecidableEq α] (current stored : Option α) : Bool :=
  match current, stored with
  | some c, some s => decide (c ≠ s)
  | some _, none => true
  | none, _ => false

def determineSystemParametersChange (node : NodeApi) (block : Block) (storage : Storage tables) :
    Except IndexError (Option SystemParametersChange) := do
  let current ← okOr (node.fetchSystemParameters block.hash block.height block.timestamp
    block.protocolVersion.nodeVersion) .fetchSystemParameters
  let storedTerms ← storage.getLatestTermsAndConditions.mapError
    (.storage "get latest terms and conditions")
  let dParameterChanged := changed current.dParameter storage.getLatestDParameter
  let termsChanged := changed current.termsAndConditions storedTerms
  if dParameterChanged || termsChanged then
    return some
      { blockHeight := block.height
        blockHash := block.hash
        timestamp := block.timestamp
        dParameter := if dParameterChanged then current.dParameter else none
        termsAndConditions := if termsChanged then current.termsAndConditions else none }
  else return none

def indexBlock (node : NodeApi) (networkId : String) (process : Process crates)
    (storage : Storage tables) (block : NodeBlock crates) :
    Except IndexError (Process crates × Storage tables) := do
  let computed ← computeBlock node networkId process block
  let change ← determineSystemParametersChange node (toDomain block computed) storage
  let after ← (storage.saveBlock (toDomain block computed) computed.transactions
    computed.ledgerStateKey change).mapError (.storage "save block")
  return (⟨computed.ledgerState, block.timestamp⟩, after)

/-- The state of the highest block, or a fresh one of the oldest version. -/
def resumeLedgerState (crates : LedgerCrates) (networkId : String) :
    Option (ProtocolVersion × ByteVec) → Except IndexError (LedgerState crates)
  | some (version, key) => (LedgerState.load crates key version.ledgerVersion).mapError
      fun e => .domain "load ledger state" (.load e)
  | none => .ok (LedgerState.new crates networkId .oldest)

def startProcess (networkId : String) (storage : Storage tables) :
    Except IndexError (Process crates) := do
  let highest ← storage.getHighestBlock.mapError (.storage "get highest block")
  let ledger ← resumeLedgerState crates networkId highest
  return ⟨ledger, storage.getHighestBlockTimestamp.getD 0⟩

/-- The chain indexer as a service over the blocks of the node. -/
def chainIndexer (tables : ChildTables crates) (node : NodeApi) (networkId : String) :
    Service IndexError (Storage tables) (Process crates) (NodeBlock crates) :=
  ⟨startProcess networkId, indexBlock node networkId⟩

end MidnightIndexer.Source.ChainIndexer
