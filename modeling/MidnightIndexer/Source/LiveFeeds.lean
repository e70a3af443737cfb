import MidnightIndexer.Source.LiveSubscription

/-!
# The six subscriptions

indexer-api/src/infra/api/v4/subscription/block.rs:54-113, contract_action.rs:51-134,
contract_event.rs:64-205, unshielded.rs:88-263, zswap_ledger_events.rs:47-111 and
dust_ledger_events.rs:47-111, with `resolve_height` of indexer-api/src/infra/api/v4.rs
and the queries of indexer-api/src/infra/storage: block.rs:88-208,
contract_action.rs:396-522, contract_event.rs:61-264, ledger_events.rs:25-109,
transaction.rs:497-519 and 696-809, unshielded.rs:116-187.

Columns that are only passed on to the client are left out, and so are decoding
and checking of the arguments that come before, except that a contract event id
beyond the column is refused. A field prefix longer than Postgres can take as a
length is not considered.
-/

namespace MidnightIndexer.Source.IndexerApi

open Lib
open ChainIndexer (ByteVec UnshieldedUtxoRow)

/-- `BlockIndexed`, of which the subscriptions read the height. -/
structure BlockIndexed where
  height : Nat
  deriving DecidableEq

/-- It is published once the block is committed. -/
def BlockIndexed.published (db : ChainDb) (event : BlockIndexed) : Bool :=
  db.blocks.any fun block => block.height = event.height

structure UnshieldedUtxoIndexed where
  address : ByteVec
  deriving DecidableEq

/-- `WHERE .. AND key >= $cursor ORDER BY key LIMIT $batch_size`. -/
def pageFrom {ρ : Type} (key : ρ → Nat) (batchSize : NonZeroU32) (rows : List ρ) (cursor : Nat) :
    List ρ :=
  (Sql.orderBy key (rows.filter fun row => Sql.asI64 cursor ≤ key row)).take batchSize.val

/-! ## `resolve_height` -/

inductive BlockOffset where
  | hash (hash : ByteVec)
  | height (height : UInt32)

/-- "block with hash .. not found" and "block with height .. not found". -/
inductive OffsetError where
  | hashNotFound (hash : ByteVec)
  | heightNotFound (height : UInt32)

def resolveHeight (db : ChainDb) : Option BlockOffset → Except OffsetError Nat
  | some (.hash hash) =>
    match db.blocks.find? (fun block => block.hash = hash) with
    | some block => .ok block.height
    | none => .error (.hashNotFound hash)
  | some (.height height) =>
    match db.blocks.find? (fun block => block.height = height.toNat) with
    | some _ => .ok height.toNat
    | none => .error (.heightNotFound height)
  | none => .ok (db.latestHeight.getD 0)

/-- A resolved height is the height of a block, or 0 without any block. -/
theorem resolveHeight_ok {db : ChainDb} {offset : Option BlockOffset} {height : Nat}
    (resolved : resolveHeight db offset = .ok height) :
    (∃ block ∈ db.blocks, block.height = height) ∨ height = 0 := by
  unfold resolveHeight at resolved
  split at resolved
  · split at resolved
    next block found =>
      cases resolved
      exact .inl ⟨block, List.mem_of_find?_eq_some found, rfl⟩
    next => cases resolved
  · split at resolved
    next block found =>
      cases resolved
      exact .inl ⟨block, List.mem_of_find?_eq_some found, by simpa using List.find?_some found⟩
    next => cases resolved
  · cases resolved
    cases latest : db.latestHeight with
    | none => exact .inr rfl
    | some height => exact .inl (ChainDb.latestHeight_mem latest)

/-! ## `blocks` -/

def blocks (batchSize : NonZeroU32) : LiveFeed BlockIndexed ChainBlock ChainBlock where
  page db := pageFrom ChainBlock.height batchSize db.blocks
  key := ChainBlock.height
  item _ block := .ok (some block)
  row := id
  published := BlockIndexed.published

/-! ## `zswapLedgerEvents` and `dustLedgerEvents` -/

/-- `ZswapLedgerEvent::try_from`. -/
def zswapLedgerEvent : LedgerEventVariant → Bool
  | .zswapInput | .zswapOutput => true
  | _ => false

/-- `DustLedgerEvent::try_from`. -/
def dustLedgerEvent : LedgerEventVariant → Bool
  | .paramChange | .dustInitialUtxo | .dustGenerationDtimeUpdate | .dustSpendProcessed => true
  | _ => false

def ledgerEvents (grouping : LedgerEventGrouping) (expected : LedgerEventVariant → Bool)
    (name : String) (batchSize : NonZeroU32) :
    LiveFeed BlockIndexed LedgerEventRow LedgerEventRow where
  page db := pageFrom (fun row => row.id) batchSize
    ((ledgerEventRows db.blocks).filter fun row => row.grouping = grouping)
  key row := row.id
  item _ row :=
    if expected row.attributes then .ok (some row)
    else .error s!"unexpected {name} ledger event with ID {row.id}"
  row := id
  published := BlockIndexed.published

def zswapLedgerEvents := ledgerEvents .zswap zswapLedgerEvent "zswap"

def dustLedgerEvents := ledgerEvents .dust dustLedgerEvent "dust"

/-- `id.unwrap_or(1)`. -/
def startLedgerEvents (db : ChainDb) (id : Option UInt64) :
    LiveState BlockIndexed LedgerEventRow LedgerEventRow :=
  LiveFeed.start db (id.getD 1).toNat

/-! ## `unshieldedTransactions` -/

structure UnshieldedTransaction where
  transaction : TransactionRow
  createdUtxos : List UnshieldedUtxoRow
  spentUtxos : List UnshieldedUtxoRow
  deriving DecidableEq

/-- The `UNION` of the query. -/
def transactionIdsByAddress (utxos : List UnshieldedUtxoRow) (address : ByteVec) (cursor : Nat) :
    List Nat :=
  (utxos.filter fun utxo =>
    utxo.owner = address ∧ Sql.asI64 cursor ≤ utxo.creatingTransactionId).map
      (·.creatingTransactionId) ++
  (utxos.filter fun utxo => utxo.owner = address).filterMap fun utxo =>
    utxo.spendingTransactionId.filter fun (id : Nat) => Sql.asI64 cursor ≤ id

/-- The query of `get_transactions_by_unshielded_address`. -/
def transactionsByUnshieldedAddress (db : ChainDb) (address : ByteVec) (batchSize : NonZeroU32)
    (cursor : Nat) : List TransactionRow :=
  (Sql.orderBy TransactionRow.id ((transactionRows db.blocks).filter fun t =>
    t.id ∈ transactionIdsByAddress db.utxos address cursor)).take batchSize.val

def utxosCreatedBy (db : ChainDb) (address : ByteVec) (transactionId : Nat) :
    List UnshieldedUtxoRow :=
  Sql.orderBy (·.outputIndex) (db.utxos.filter fun utxo =>
    Sql.asI64 transactionId = utxo.creatingTransactionId ∧ utxo.owner = address)

def utxosSpentBy (db : ChainDb) (address : ByteVec) (transactionId : Nat) :
    List UnshieldedUtxoRow :=
  Sql.orderBy (·.outputIndex) (db.utxos.filter fun utxo =>
    (utxo.spendingTransactionId.any fun id => Sql.asI64 transactionId = id) ∧
      utxo.owner = address)

def makeUnshieldedTransaction (db : ChainDb) (address : ByteVec) (transaction : TransactionRow) :
    Option UnshieldedTransaction :=
  let created := utxosCreatedBy db address transaction.id
  let spent := utxosSpentBy db address transaction.id
  if !created.isEmpty || !spent.isEmpty then some ⟨transaction, created, spent⟩ else none

def unshieldedTransactions (address : ByteVec) (batchSize : NonZeroU32) :
    LiveFeed UnshieldedUtxoIndexed TransactionRow UnshieldedTransaction where
  page db := transactionsByUnshieldedAddress db address batchSize
  key := TransactionRow.id
  item db transaction := .ok (makeUnshieldedTransaction db address transaction)
  row := UnshieldedTransaction.transaction
  published db event := db.utxos.any fun utxo => utxo.owner = event.address
  concerns event := event.address = address

/-- `transaction_id.unwrap_or(0)`. -/
def startUnshieldedTransactions (db : ChainDb) (transactionId : Option UInt64) :
    LiveState UnshieldedUtxoIndexed TransactionRow UnshieldedTransaction :=
  LiveFeed.start db (transactionId.getD 0).toNat

/-! ## `contractActions` -/

/-- The first action of any contract in a block at or above the height. -/
def getContractActionIdByBlockHeight (db : ChainDb) (height : Nat) : Option Nat :=
  (Sql.orderBy (fun row : ContractActionRow => row.id) ((contractActionRows db.blocks).filter
    fun row => height ≤ row.blockHeight)).head?.map fun row => row.id

def contractActions (address : ByteVec) (height : Nat) (batchSize : NonZeroU32) :
    LiveFeed BlockIndexed ContractActionRow ContractActionRow where
  page db := pageFrom (fun row => row.id) batchSize
    ((contractActionRows db.blocks).filter fun row => row.address = address)
  key row := row.id
  item _ action := .ok (some action)
  row := id
  -- `unwrap_or_default`
  opening db _ := ((getContractActionIdByBlockHeight db height).getD 0, false)
  published := BlockIndexed.published

/-- The subscription before it looks for its first action. -/
def startContractActions (db : ChainDb) :
    LiveState BlockIndexed ContractActionRow ContractActionRow :=
  ⟨db, [], 0, .opening, []⟩

/-! ## `contractEvents` -/

structure ContractEventFilter where
  contractAddress : ByteVec
  variants : List LedgerEventVariant
  fieldPrefixes : List (String × ByteVec)
  fromBlock : Option UInt32
  toBlock : Option UInt32
  transactionHash : Option ByteVec

namespace ContractEventFilter

variable (filter : ContractEventFilter)

/-- The `WHERE` clause of `base_query_builder`. -/
def selects (row : LedgerEventRow) : Bool :=
  row.grouping = .contract
  && row.contractAddress = some filter.contractAddress
  && (filter.variants.isEmpty || filter.variants.contains row.variant)
  && filter.fromBlock.all (fun height => height.toNat ≤ row.blockHeight)
  && filter.toBlock.all (fun height => row.blockHeight ≤ height.toNat)
  && filter.transactionHash.all (fun hash => row.transactionHash = hash)
  && filter.fieldPrefixes.all fun (name, bytes) =>
    row.indexedFields.any fun (fieldName, value) =>
      fieldName = name && value.take bytes.length = bytes

def reachedToBlock (db : ChainDb) : Bool :=
  match filter.toBlock with
  | none => false
  | some toBlock => db.latestHeight.any fun height => toBlock.toNat ≤ height

end ContractEventFilter

/-- `ContractEvent::try_from`. -/
def contractEvent : LedgerEventVariant → Bool
  | .shieldedSpend | .shieldedReceive | .shieldedMint | .shieldedBurn | .unshieldedSpend
  | .unshieldedReceive | .unshieldedMint | .unshieldedBurn | .paused | .unpaused | .misc => true
  | _ => false

def contractEvents (filter : ContractEventFilter) (batchSize : NonZeroU32) :
    LiveFeed BlockIndexed LedgerEventRow LedgerEventRow where
  page db := pageFrom (fun row => row.id) batchSize
    ((ledgerEventRows db.blocks).filter filter.selects)
  key row := row.id
  item _ row :=
    if contractEvent row.attributes then .ok (some row)
    else .error s!"unexpected contract event row at id {row.id}"
  row := id
  opening db id := (id, filter.reachedToBlock db)
  published := BlockIndexed.published
  lastRound event := filter.toBlock.any fun toBlock => toBlock.toNat ≤ event.height

/-- `id.unwrap_or(0)`, refused beyond `i64`. -/
def startContractEvents (db : ChainDb) (id : Option UInt64) :
    Except String (LiveState BlockIndexed LedgerEventRow LedgerEventRow) :=
  let id := (id.getD 0).toNat
  if id < 2 ^ 63 then .ok ⟨db, [], id, .opening, []⟩ else .error "id out of range"

end MidnightIndexer.Source.IndexerApi
