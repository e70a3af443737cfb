import MidnightIndexer.Lib.Follow
import MidnightIndexer.Lib.Sql
import MidnightIndexer.Lib.TryPages
import MidnightIndexer.Source.LedgerStateCache

/-!
# The `dustGenerations` subscription

indexer-api/src/infra/api/v4/subscription/dust_generations.rs:113-330 with the storage
functions of indexer-api/src/infra/storage/dust_generations.rs:141-346,
ledger_state.rs:42-71 and block.rs:60-86. The subscription yields the dtime updates of
the owner's generations, then the owner's entries with collapsed updates in between,
and completes. The quota and the decoding of its arguments come before what is
modelled here.

A row has at most one transaction and one block, along foreign keys, whose columns
are part of the row. The columns of migration 002 are filled in together; rows from
before it have none of them. A ledger event's `variant` and `attributes` are written
from the same value, so a row of the variant always has its attributes.
-/

namespace MidnightIndexer.Source.IndexerApi

open Lib Lib.Follow ChainIndexer

/-! ## Tables -/

structure DustBlock where
  id : Nat
  hash : ByteVec
  height : Nat
  protocolVersion : ProtocolVersion
  ledgerStateKey : ByteVec
  deriving DecidableEq

structure TransactionRef where
  id : Nat
  hash : ByteVec
  deriving DecidableEq

/-- The columns of migration 002. -/
structure QdoColumns where
  generationIndex : Nat
  backingNight : ByteVec
  initialValue : Nat
  deriving DecidableEq

/-- A row of `dust_generation_info`. -/
structure GenerationRow where
  id : Nat
  nightUtxoHash : ByteVec
  owner : ByteVec
  value : Nat
  ctime : Nat
  merkleIndex : Nat
  transaction : Option TransactionRef
  qdo : Option QdoColumns
  deriving DecidableEq

inductive DustEventAttributes where
  | dustGenerationDtimeUpdate (nightUtxoHash : ByteVec) (dtime : UInt64)
      (treeInsertionPath : ByteVec)
  | other
  deriving DecidableEq

/-- A row of `ledger_events` with its transaction. -/
structure DustEventRow where
  id : Nat
  attributes : DustEventAttributes
  transaction : TransactionRef
  blockId : Nat
  deriving DecidableEq

/-- Blocks get higher ids with higher heights; ids are positive and fit their columns. -/
structure DustDb where
  blocks : List DustBlock
  events : List DustEventRow
  generations : List GenerationRow
  blocksOrdered : blocks.Pairwise fun older newer =>
    older.id < newer.id ∧ older.height < newer.height
  blockColumns : ∀ block ∈ blocks, 0 < block.id ∧ block.id < 2 ^ 63 ∧ block.height < 2 ^ 32
  eventsOrdered : Serial DustEventRow.id (2 ^ 63) events
  eventColumns : ∀ event ∈ events, 0 < event.id ∧ ∃ block ∈ blocks, block.id = event.blockId
  generationIds : (generations.map GenerationRow.id).Nodup
  indexColumn : ∀ row ∈ generations, ∀ qdo ∈ row.qdo, qdo.generationIndex + 1 < 2 ^ 63

inductive ApiError where
  | client (message : String)
  | server (message : String)
  | unfinished
  deriving DecidableEq, Repr

/-! ## The owner's entries -/

structure DustGenerationEntry where
  commitmentMtIndex : Nat
  generationMtIndex : Nat
  owner : ByteVec
  value : Nat
  initialValue : Nat
  backingNight : ByteVec
  ctime : Nat
  transactionId : Nat
  transactionHash : ByteVec
  deriving DecidableEq

/-- The join with `transactions`; a row without a generation index satisfies no
comparison. -/
def GenerationRow.entry (row : GenerationRow) : Option DustGenerationEntry := do
  let qdo ← row.qdo
  let transaction ← row.transaction
  return {
    commitmentMtIndex := row.merkleIndex
    generationMtIndex := qdo.generationIndex
    owner := row.owner
    value := row.value
    initialValue := qdo.initialValue
    backingNight := qdo.backingNight
    ctime := row.ctime
    transactionId := transaction.id
    transactionHash := transaction.hash }

/-- The query of `get_dust_generation_entries`. -/
def entriesPage (db : DustDb) (owner : ByteVec) (batchSize : NonZeroU32)
    (endIndex startIndex : Nat) : List DustGenerationEntry :=
  (Sql.orderBy DustGenerationEntry.generationMtIndex
    ((db.generations.filterMap GenerationRow.entry).filter fun entry =>
      entry.owner = owner ∧ Sql.asI64 startIndex ≤ entry.generationMtIndex ∧
        entry.generationMtIndex ≤ Sql.asI64 endIndex)).take batchSize.val

def getDustGenerationEntries (db : DustDb) (owner : ByteVec) (batchSize : NonZeroU32)
    (endIndex queries startIndex : Nat) : TryStream ApiError DustGenerationEntry Unit :=
  Paging.tryPages (fun startIndex => .ok (entriesPage db owner batchSize endIndex startIndex))
    (fun last => last.generationMtIndex + 1) (fun last => endIndex ≤ last.generationMtIndex)
    .unfinished queries startIndex

/-! ## Dtime updates -/

structure DustGenerationDtimeUpdateEntry where
  ledgerEventId : Nat
  generationMtIndex : Nat
  owner : ByteVec
  nightUtxoHash : ByteVec
  newDtime : UInt64
  transactionId : Nat
  transactionHash : ByteVec
  treeInsertionPath : ByteVec
  deriving DecidableEq

def DustEventRow.generations (event : DustEventRow) (db : DustDb) : List GenerationRow :=
  match event.attributes with
  | .dustGenerationDtimeUpdate nightUtxoHash _ _ =>
    db.generations.filter (·.nightUtxoHash = nightUtxoHash)
  | .other => []

/-- `ledger_events` joined with `dust_generation_info`. -/
def dtimeRows (db : DustDb) : List (DustEventRow × GenerationRow) :=
  db.events.flatMap fun event => (event.generations db).map (event, ·)

/-- A missing generation index cannot be decoded. -/
def decodeDtimeRow (row : DustEventRow × GenerationRow) :
    Except ApiError DustGenerationDtimeUpdateEntry := do
  let qdo ← okOr row.2.qdo (.server "get next dtime update")
  match row.1.attributes with
  | .dustGenerationDtimeUpdate _ dtime treeInsertionPath =>
    return {
      ledgerEventId := row.1.id
      generationMtIndex := qdo.generationIndex
      owner := row.2.owner
      nightUtxoHash := row.2.nightUtxoHash
      newDtime := dtime
      transactionId := row.1.transaction.id
      transactionHash := row.1.transaction.hash
      treeInsertionPath := treeInsertionPath }
  | .other => .error (.server "get next dtime update")

/-- The query of `get_dust_generation_dtime_updates`. -/
def dtimePage (db : DustDb) (owner : ByteVec) (batchSize : NonZeroU32)
    (cutoffBlockId upperBlockId afterEventId : Nat) : List (DustEventRow × GenerationRow) :=
  (Sql.orderBy (fun row => row.1.id) ((dtimeRows db).filter fun row =>
    Sql.asI64 cutoffBlockId < row.1.blockId ∧ row.1.blockId ≤ Sql.asI64 upperBlockId ∧
      row.2.owner = owner ∧ Sql.asI64 afterEventId < row.1.id)).take batchSize.val

def getDustGenerationDtimeUpdates (db : DustDb) (owner : ByteVec) (batchSize : NonZeroU32)
    (cutoffBlockId upperBlockId queries afterEventId : Nat) :
    TryStream ApiError DustGenerationDtimeUpdateEntry Unit :=
  Paging.tryPages
    (fun afterEventId =>
      (dtimePage db owner batchSize cutoffBlockId upperBlockId afterEventId).mapM decodeDtimeRow)
    DustGenerationDtimeUpdateEntry.ledgerEventId (fun _ => false) .unfinished queries afterEventId

/-! ## The subscription -/

inductive DustGenerationsEvent where
  | dtimeUpdate (update : DustGenerationDtimeUpdateEntry)
  | item (entry : DustGenerationEntry) (collapsedMerkleTree : Option MerkleTreeCollapsedUpdate)
  | progress (highestIndex : Nat) (collapsedMerkleTree : Option MerkleTreeCollapsedUpdate)
  deriving DecidableEq

structure DustGenerationsConfig where
  batchSize : NonZeroU32
  maxSnapshotAge : UInt32

variable {crates : LedgerCrates} (trees : TreeCrates crates)

/-- `dust_generations_collapsed_update` of the API's ledger state. -/
def snapshotUpdate (ledger : LedgerState crates) (protocolVersion : ProtocolVersion)
    (message : String) (startIndex endIndex : Nat) :
    Except ApiError (Option MerkleTreeCollapsedUpdate) :=
  let first := UInt64.ofNat startIndex
  let last := UInt64.ofNat endIndex
  match dustGenerationsCollapsedUpdate trees ledger first last with
  | .ok update => .ok (some ⟨first, last, update, protocolVersion⟩)
  | .error _ => .error (.server message)

def makeCollapsedUpdate (ledger : LedgerState crates) (protocolVersion : ProtocolVersion)
    (cursor entryIndex : Nat) : Except ApiError (Option MerkleTreeCollapsedUpdate) :=
  if entryIndex ≤ cursor ∨ entryIndex = 0 then .ok none
  else snapshotUpdate trees ledger protocolVersion "create dust generations collapsed update" cursor
    (entryIndex - 1)

def makeFinalCollapsedUpdate (ledger : LedgerState crates) (protocolVersion : ProtocolVersion)
    (cursor endIndex : Nat) : Except ApiError (Option MerkleTreeCollapsedUpdate) :=
  if endIndex < cursor then .ok none
  else snapshotUpdate trees ledger protocolVersion
    "create final dust generations collapsed update" cursor endIndex

/-- The loop over the entries, with the cursor behind the last one. -/
def emitEntries (ledger : LedgerState crates) (protocolVersion : ProtocolVersion) :
    Nat → List DustGenerationEntry → TryStream ApiError DustGenerationsEvent Nat
  | cursor, [] => return cursor
  | cursor, entry :: rest => do
    let collapsedMerkleTree ← .lift
      (makeCollapsedUpdate trees ledger protocolVersion cursor entry.generationMtIndex)
    .yield (.item entry collapsedMerkleTree)
    emitEntries ledger protocolVersion (entry.generationMtIndex + 1) rest

/-- `dust_generations_first_free`. -/
def generationsEnd (ledger : LedgerState crates) : Nat :=
  (UInt64.ofNat (crates.dustGenerationsFirstFree ledger.state)).toNat

/-- Parts 2 and 3: the entries and the final update. -/
def emitSnapshot (db : DustDb) (owner : ByteVec) (config : DustGenerationsConfig)
    (ledger : LedgerState crates) (protocolVersion : ProtocolVersion) (queries : Nat) :
    TryStream ApiError DustGenerationsEvent Unit := do
  let endIndex := generationsEnd ledger
  let lastIndex := endIndex - 1
  let entries := getDustGenerationEntries db owner config.batchSize lastIndex queries 0
  let cursor ← emitEntries trees ledger protocolVersion 0 entries.items
  .lift entries.outcome
  let finalUpdate ← .lift (if endIndex = 0 then .ok none
    else makeFinalCollapsedUpdate trees ledger protocolVersion cursor lastIndex)
  .yield (.progress lastIndex finalUpdate)

/-- The checks before the snapshot: its block and its ledger state. `rootLoadable` asks
the ledger DB; `none` is its error. -/
def resolveSnapshot (crates : LedgerCrates) (rootLoadable : ByteVec → LedgerVersion → Option Bool)
    (db : DustDb) (config : DustGenerationsConfig) (blockHash : ByteVec) :
    Except ApiError (DustBlock × LedgerState crates) := do
  let block ← okOr (db.blocks.find? (·.hash = blockHash)) (.client "unknown block hash")
  let latestHeight := (db.blocks.getLast?.map (·.height)).getD 0
  let version := block.protocolVersion.ledgerVersion
  if config.maxSnapshotAge.toNat < latestHeight - block.height then
    .error (.client ("block hash is older than the snapshot freshness window, re-subscribe with " ++
      "a more recent block hash"))
  else do
    let loadable ← okOr (rootLoadable block.ledgerStateKey version)
      (.server "check ledger state availability")
    if loadable then do
      let ledger ← (LedgerState.load crates block.ledgerStateKey version).mapError
        fun _ => .server "load ledger state at block"
      return (block, ledger)
    else .error (.client ("ledger state for this block is no longer available, re-subscribe with " ++
      "a more recent block hash"))

def cutoffBlockId (db : DustDb) (dtimeCutoffHeight : UInt64) : Except ApiError Nat :=
  if dtimeCutoffHeight = 0 then .ok 0
  else if dtimeCutoffHeight.toNat < 2 ^ 32 then
    .ok (((db.blocks.find? (·.height = dtimeCutoffHeight.toNat)).map (·.id)).getD 0)
  else .error (.client "dtime_cutoff_height out of range")

/-- Part 1: the dtime updates. -/
def emitDtimeUpdates (db : DustDb) (owner : ByteVec) (config : DustGenerationsConfig)
    (block : DustBlock) (dtimeCutoffHeight : UInt64) (queries : Nat) :
    TryStream ApiError DustGenerationsEvent Unit := do
  let cutoff ← .lift (cutoffBlockId db dtimeCutoffHeight)
  let updates :=
    getDustGenerationDtimeUpdates db owner config.batchSize cutoff block.id queries 0
  ⟨updates.items.map .dtimeUpdate, updates.outcome⟩

def dustGenerations (rootLoadable : ByteVec → LedgerVersion → Option Bool) (db : DustDb)
    (config : DustGenerationsConfig) (owner blockHash : ByteVec) (dtimeCutoffHeight : UInt64)
    (queries : Nat) : TryStream ApiError DustGenerationsEvent Unit := do
  let (block, ledger) ← .lift (resolveSnapshot crates rootLoadable db config blockHash)
  emitDtimeUpdates db owner config block dtimeCutoffHeight queries
  emitSnapshot trees db owner config ledger block.protocolVersion queries

end MidnightIndexer.Source.IndexerApi
