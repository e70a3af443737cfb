import MidnightIndexer.Lib.Bytes
import MidnightIndexer.Lib.Saturating
import MidnightIndexer.Source.BridgeClaims

/-!
# Bridge events and the summary of the protocol pools

chain-indexer/src/infra/storage.rs:1329-1383 with
indexer-common/src/domain/bridge.rs:20-191, and
indexer-api/src/infra/storage/bridge.rs:46-84 and 211-340. An event is saved with its
amount as eight bytes and, for a flush, its count cast to the signed column. The summary
reads these columns again and adds them up outside of the database; the treasury inflows
are a query of their own.

The events of a block are seen through `read`. Ids are those of a `BIGSERIAL` column, so
that an insert fails when there is none left. Counters of `u64` wrap as in a release build.
-/

namespace MidnightIndexer.Source.ChainIndexer

open Lib
open IndexerApi (BridgeEventVariant)

structure ByteArray32 where
  bytes : ByteVec
  length : bytes.length = 32
  deriving DecidableEq

def bridgeRecipientMaxBytes : Nat := 32

structure BridgeRecipient where
  bytes : ByteVec
  short : bytes.length ≤ bridgeRecipientMaxBytes
  deriving DecidableEq

inductive BridgeEvent where
  | userTransfer (mcTxHash : ByteArray32) (amount : UInt64) (recipient : BridgeRecipient)
      (midnightTxHash : ByteArray32)
  | reserveTransfer (mcTxHash : ByteArray32) (amount : UInt64) (midnightTxHash : ByteArray32)
  | invalidTransfer (mcTxHash : ByteArray32) (amount : UInt64) (midnightTxHash : ByteArray32)
  | unapprovedTransfer (mcTxHash : ByteArray32) (amount : UInt64) (recipient : BridgeRecipient)
      (midnightTxHash : ByteArray32)
  | subminimalFlushTransfer (amount : UInt64) (count : UInt32) (midnightTxHash : ByteArray32)
  deriving DecidableEq

namespace BridgeEvent

def variant : BridgeEvent → BridgeEventVariant
  | .userTransfer .. => .userTransfer
  | .reserveTransfer .. => .reserveTransfer
  | .invalidTransfer .. => .invalidTransfer
  | .unapprovedTransfer .. => .unapprovedTransfer
  | .subminimalFlushTransfer .. => .subminimalFlushTransfer

def mcTxHash : BridgeEvent → Option ByteArray32
  | .userTransfer hash .. | .reserveTransfer hash .. | .invalidTransfer hash ..
  | .unapprovedTransfer hash .. => some hash
  | .subminimalFlushTransfer .. => none

def recipient : BridgeEvent → Option BridgeRecipient
  | .userTransfer _ _ recipient _ | .unapprovedTransfer _ _ recipient _ => some recipient
  | .reserveTransfer .. | .invalidTransfer .. | .subminimalFlushTransfer .. => none

def amount : BridgeEvent → UInt64
  | .userTransfer _ amount .. | .reserveTransfer _ amount _ | .invalidTransfer _ amount _
  | .unapprovedTransfer _ amount .. | .subminimalFlushTransfer amount .. => amount

def midnightTxHash : BridgeEvent → ByteArray32
  | .userTransfer _ _ _ hash | .reserveTransfer _ _ hash | .invalidTransfer _ _ hash
  | .unapprovedTransfer _ _ _ hash | .subminimalFlushTransfer _ _ hash => hash

/-- The count of a flush; the other events have none. -/
def count : BridgeEvent → Option UInt32
  | .subminimalFlushTransfer _ count _ => some count
  | .userTransfer .. | .reserveTransfer .. | .invalidTransfer .. | .unapprovedTransfer .. => none

end BridgeEvent

/-- Table `protocol_bridge_events`. -/
structure ProtocolBridgeEventRow where
  id : Nat
  blockId : Nat
  transactionId : Option Nat
  variant : BridgeEventVariant
  mcTxHash : Option ByteVec
  amount : ByteVec
  recipient : Option ByteVec
  midnightTxHash : ByteVec
  count : Option Int
  deriving DecidableEq

def toBeBytes (n : UInt64) : ByteVec := (Bytes.leBytes 8 n.toNat).reverse

/-- The row of an event, with the transaction of the block that has its hash. -/
def bridgeEventRow (id : Nat) (transactions : List TransactionRow) (blockId : Nat)
    (event : BridgeEvent) : ProtocolBridgeEventRow where
  id := id
  blockId := blockId
  transactionId := (transactions.find? fun row =>
    row.blockId == blockId && row.hash == event.midnightTxHash.bytes).map TransactionRow.id
  variant := event.variant
  mcTxHash := event.mcTxHash.map ByteArray32.bytes
  amount := toBeBytes event.amount
  recipient := event.recipient.map BridgeRecipient.bytes
  midnightTxHash := event.midnightTxHash.bytes
  count := event.count.map fun count => Sql.asI32 count.toNat

/-- The `INSERT`, which takes the next id. -/
def saveBridgeEvent (transactions : List TransactionRow) (blockId : Nat)
    (rows : List ProtocolBridgeEventRow) (event : BridgeEvent) :
    Except Sql.Error (List ProtocolBridgeEventRow) :=
  if rows.length + 1 < 2 ^ 63 then
    .ok (rows ++ [bridgeEventRow (rows.length + 1) transactions blockId event])
  else .error (.protocol "no id left")

def saveBridgeEvents (rows : List ProtocolBridgeEventRow) (transactions : List TransactionRow)
    (events : List BridgeEvent) (blockId : Nat) : Except Sql.Error (List ProtocolBridgeEventRow) :=
  events.foldlM (saveBridgeEvent transactions blockId) rows

variable {crates : LedgerCrates}

/-- Any other tables together with `protocol_bridge_events`. -/
def withBridgeEvents (read : ByteVec → BridgeEvent) (others : ChildTables crates) :
    ChildTables crates where
  Tables := others.Tables × List ProtocolBridgeEventRow
  empty := (others.empty, [])
  saveRegularTransaction tables transactionId blockId t := do
    let saved ← others.saveRegularTransaction tables.1 transactionId blockId t
    return (saved, tables.2)
  saveSystemTransaction tables transactionId t := do
    let saved ← others.saveSystemTransaction tables.1 transactionId t
    return (saved, tables.2)
  saveDustRegistrationEvents tables events blockId blockTimestamp := do
    let saved ← others.saveDustRegistrationEvents tables.1 events blockId blockTimestamp
    return (saved, tables.2)
  saveBridgeEvents tables transactions events blockId := do
    let saved ← others.saveBridgeEvents tables.1 transactions events blockId
    let rows ← ChainIndexer.saveBridgeEvents tables.2 transactions (events.map read) blockId
    return (saved, rows)

namespace Storage

variable {read : ByteVec → BridgeEvent} {others : ChildTables crates}

def bridgeEvents (storage : Storage (withBridgeEvents read others)) : List ProtocolBridgeEventRow :=
  storage.children.2

variable {storage after : Storage (withBridgeEvents read others)}
  {transactions : List (Transaction crates)}

theorem saveTransaction_bridgeEvents {blockId : Nat} {t : Transaction crates}
    (success : saveTransaction blockId storage t = .ok after) :
    after.bridgeEvents = storage.bridgeEvents := by
  cases t with
  | regular t | system t =>
    obtain ⟨children, saved, success⟩ := bind_success success
    cases success
    obtain ⟨rest, _, saved⟩ := bind_success (mapError_success saved)
    cases saved
    rfl

theorem saveTransactions_bridgeEvents {blockId : Nat}
    (success : storage.saveTransactions blockId transactions = .ok after) :
    after.bridgeEvents = storage.bridgeEvents := by
  refine foldlM_keeps (fun current _ => current.bridgeEvents = storage.bridgeEvents) ?_ rfl success
  intro current taken t next same saved
  rw [saveTransaction_bridgeEvents saved, same]

/-- A saved block adds its events to the table and nothing else does. -/
theorem saveBlock_bridgeEvents {block : Block} {key : ByteVec}
    {change : Option SystemParametersChange}
    (success : storage.saveBlock block transactions key change = .ok after) :
    ∃ saved, saveBridgeEvents storage.bridgeEvents saved (block.bridgeEvents.map read)
      (storage.blocks.length + 1) = .ok after.bridgeEvents := by
  obtain ⟨saved, registered, bridged, save, register, bridge, rfl⟩ := saveBlock_success success
  obtain ⟨_, _, register⟩ := bind_success register
  cases register
  obtain ⟨_, _, rows, written, bridge⟩ := bind₂_success bridge
  cases bridge
  have kept := saveTransactions_bridgeEvents save
  rw [show saved.children.2 = storage.bridgeEvents from kept] at written
  exact ⟨saved.transactions, by cases change <;> exact written⟩

end Storage

end MidnightIndexer.Source.ChainIndexer

namespace MidnightIndexer.Source.IndexerApi

open Lib
open ChainIndexer (BridgeRecipient ByteArray32 ProtocolBridgeEventRow
  bridgeRecipientMaxBytes)

/-- A row with the height of its block. -/
structure BridgeEventView where
  height : Int
  row : ProtocolBridgeEventRow
  deriving DecidableEq

/-- `protocol_bridge_events` joined with `blocks`. -/
def joinBlocks (blocks : List ChainIndexer.BlockRow) (rows : List ProtocolBridgeEventRow) :
    List BridgeEventView :=
  rows.flatMap fun row =>
    (blocks.filter fun block => block.id == row.blockId).map fun block => ⟨block.height, row⟩

/-- The API's `BridgeEvent`. -/
structure BridgeEvent where
  id : Nat
  blockHeight : UInt64
  transactionId : Option Nat
  variant : BridgeEventVariant
  mcTxHash : Option ByteArray32
  amount : Nat
  recipient : Option BridgeRecipient
  midnightTxHash : ByteArray32
  count : Option UInt32
  deriving DecidableEq

/-- `ByteArray::try_from`. -/
def toByteArray32 (bytes : List UInt8) : Except Sql.ReadError ByteArray32 :=
  if length : bytes.length = 32 then .ok ⟨bytes, length⟩ else .error .decode

/-- `BridgeRecipient::new`. -/
def toBridgeRecipient (bytes : List UInt8) : Except Sql.ReadError BridgeRecipient :=
  if short : bytes.length ≤ bridgeRecipientMaxBytes then .ok ⟨bytes, short⟩ else .error .decode

/-- `map` and `transpose`. -/
def transposed {α β : Type} (convert : α → Except Sql.ReadError β) :
    Option α → Except Sql.ReadError (Option β)
  | none => .ok none
  | some x => (convert x).map some

theorem toByteArray32_bytes (array : ByteArray32) : toByteArray32 array.bytes = .ok array :=
  dif_pos array.length

theorem toBridgeRecipient_bytes (recipient : BridgeRecipient) :
    toBridgeRecipient recipient.bytes = .ok recipient :=
  dif_pos recipient.short

theorem transposed_map {α β : Type} {convert : α → Except Sql.ReadError β} {column : β → α}
    (restored : ∀ value, convert (column value) = .ok value) (value : Option β) :
    transposed convert (value.map column) = .ok value := by
  cases value with
  | none => rfl
  | some value => exact congrArg (Except.map some) (restored value)

def mapEventRow (view : BridgeEventView) : Except Sql.ReadError BridgeEvent := do
  let mcTxHash ← transposed toByteArray32 view.row.mcTxHash
  let midnightTxHash ← toByteArray32 view.row.midnightTxHash
  let recipient ← transposed toBridgeRecipient view.row.recipient
  return {
    id := view.row.id
    blockHeight := UInt64.ofInt view.height
    transactionId := view.row.transactionId
    variant := view.row.variant
    mcTxHash := mcTxHash
    amount := decodeU64Be view.row.amount
    recipient := recipient
    midnightTxHash := midnightTxHash
    count := view.row.count.map UInt32.ofInt }

inductive TreasuryReason where
  | invalid | unapproved | subminimalFlush
  deriving DecidableEq, Repr

def TreasuryReason.asVariant : TreasuryReason → BridgeEventVariant
  | .invalid => .invalidTransfer
  | .unapproved => .unapprovedTransfer
  | .subminimalFlush => .subminimalFlushTransfer

/-- The condition on the variant in `get_bridge_treasury_inflows`. -/
def treasuryVariants : Option TreasuryReason → List BridgeEventVariant
  | some reason => [reason.asVariant]
  | none => [.invalidTransfer, .unapprovedTransfer, .subminimalFlushTransfer]

def getBridgeTreasuryInflows (backend : Sql.Backend) (views : List BridgeEventView)
    (reason : Option TreasuryReason) (blockHeightFrom blockHeightTo : Option UInt64)
    (offset limit : UInt64) : Except Sql.ReadError (List BridgeEvent) := do
  let selected := views.filter fun view =>
    (treasuryVariants reason).contains view.row.variant
    && blockHeightFrom.all (fun height => Sql.asI64 height.toNat ≤ view.height)
    && blockHeightTo.all (fun height => view.height ≤ Sql.asI64 height.toNat)
  let ordered := Sql.orderBy (fun view => view.row.id) selected
  let rest ← (Sql.offset backend (Sql.asI64 offset.toNat) ordered).mapError .refused
  let page ← (Sql.limit backend (Sql.asI64 limit.toNat) rest).mapError .refused
  page.mapM mapEventRow

theorem decodeU64Be_toBeBytes (n : UInt64) : decodeU64Be (ChainIndexer.toBeBytes n) = n.toNat := by
  have length : (ChainIndexer.toBeBytes n).length - 8 = 0 := by simp [ChainIndexer.toBeBytes]
  have word : n.toNat < 256 ^ 8 := n.toNat_lt
  rw [decodeU64Be, length, List.drop_zero, ChainIndexer.toBeBytes, Bytes.foldl_reverse_leNat,
    Bytes.leNat_leBytes, Nat.mod_eq_of_lt word]

/-! ## The summary -/

def addU128 (total amount : Nat) : Nat := Saturating.add (2 ^ 128 - 1) total amount

def addU64 (total n : Nat) : Nat := (total + n) % 2 ^ 64

structure PoolTotals where
  reserveTotal : Nat
  invalidTotal : Nat
  invalidCount : Nat
  unapprovedTotal : Nat
  unapprovedCount : Nat
  flushTotal : Nat
  flushCount : Nat
  subminimumTxCount : Nat
  deriving DecidableEq, Repr

def PoolTotals.zero : PoolTotals := ⟨0, 0, 0, 0, 0, 0, 0, 0⟩

def PoolTotals.add (totals : PoolTotals) (row : ProtocolBridgeEventRow) : PoolTotals :=
  let amount := decodeU64Be row.amount
  match row.variant with
  | .reserveTransfer => { totals with reserveTotal := addU128 totals.reserveTotal amount }
  | .invalidTransfer => { totals with
      invalidTotal := addU128 totals.invalidTotal amount
      invalidCount := addU64 totals.invalidCount 1 }
  | .unapprovedTransfer => { totals with
      unapprovedTotal := addU128 totals.unapprovedTotal amount
      unapprovedCount := addU64 totals.unapprovedCount 1 }
  | .subminimalFlushTransfer => { totals with
      flushTotal := addU128 totals.flushTotal amount
      flushCount := addU64 totals.flushCount 1
      -- `*c as u64` on an `i32` extends the sign
      subminimumTxCount := row.count.elim totals.subminimumTxCount fun count =>
        addU64 totals.subminimumTxCount (UInt64.ofInt count).toNat }
  | .userTransfer => totals

structure BridgeTreasuryAggregate where
  reason : BridgeEventVariant
  total : Nat
  count : Nat
  deriving DecidableEq, Repr

structure BridgePoolSummary where
  reserveTotal : Nat
  treasuryByReason : List BridgeTreasuryAggregate
  subminimumTxCount : Nat
  lastEventBlockHeight : Option UInt64
  deriving DecidableEq

/-- The bound on the height; without one it is `i64::MAX`. -/
def heightBound (atBlockHeight : Option UInt64) : Int :=
  atBlockHeight.elim (2 ^ 63 - 1) fun height => Sql.asI64 height.toNat

def getBridgePoolSummary (views : List BridgeEventView) (atBlockHeight : Option UInt64) :
    BridgePoolSummary :=
  let selected := views.filter fun view => view.height ≤ heightBound atBlockHeight
  let totals := (selected.map BridgeEventView.row).foldl PoolTotals.add .zero
  { reserveTotal := totals.reserveTotal
    treasuryByReason :=
      [⟨.invalidTransfer, totals.invalidTotal, totals.invalidCount⟩,
        ⟨.unapprovedTransfer, totals.unapprovedTotal, totals.unapprovedCount⟩,
        ⟨.subminimalFlushTransfer, totals.flushTotal, totals.flushCount⟩]
    subminimumTxCount := totals.subminimumTxCount
    lastEventBlockHeight := (selected.map BridgeEventView.height).max?.map UInt64.ofInt }

end MidnightIndexer.Source.IndexerApi
