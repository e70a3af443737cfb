import MidnightIndexer.Lib.Follow
import MidnightIndexer.Source.UnshieldedUtxos

/-!
# The chain tables the API reads

The tables `blocks`, `transactions`, `contract_actions`, `ledger_events` with
`contract_event_indexed_fields`, and `unshielded_utxos`
(indexer-common/migrations), as far as the subscriptions read them. Rows refer to
their transaction and transactions to their block by foreign keys, so the tables
are kept block by block and a join is the flattened list.

A block is committed in one database transaction (chain-indexer/src/infra/storage.rs).
It is above all blocks before it, and the serial ids of its rows are above the ids
given before. No height is the last `u32` and no id the last of its column: a key
always has a successor. The update of `unshielded_utxos` is the chain indexer's own.
-/

namespace MidnightIndexer.Source.IndexerApi

open Lib Lib.Follow List
open ChainIndexer

inductive LedgerEventGrouping where
  | zswap | dust | contract
  deriving DecidableEq, Repr

/-- The column `variant`, and the variants of `LedgerEventAttributes`. -/
inductive LedgerEventVariant where
  | zswapInput | zswapOutput
  | paramChange | dustInitialUtxo | dustGenerationDtimeUpdate | dustSpendProcessed
  | shieldedSpend | shieldedReceive | shieldedMint | shieldedBurn
  | unshieldedSpend | unshieldedReceive | unshieldedMint | unshieldedBurn
  | paused | unpaused | misc
  deriving DecidableEq, Repr

/-- Of `attributes` only the variant is kept. The indexed fields are the event's
rows in `contract_event_indexed_fields`. -/
structure LedgerEvent where
  id : Nat
  variant : LedgerEventVariant
  grouping : LedgerEventGrouping
  contractAddress : Option ByteVec
  attributes : LedgerEventVariant
  indexedFields : List (String × ByteVec)
  deriving DecidableEq

structure ContractAction where
  id : Nat
  address : ByteVec
  deriving DecidableEq

structure ChainTransaction where
  id : Nat
  hash : ByteVec
  contractActions : List ContractAction
  ledgerEvents : List LedgerEvent
  createdUtxos : List UnshieldedUtxo
  spentUtxos : List UnshieldedUtxo
  deriving DecidableEq

structure ChainBlock where
  height : Nat
  hash : ByteVec
  transactions : List ChainTransaction
  deriving DecidableEq

/-! ## Joined rows -/

structure TransactionRow where
  id : Nat
  hash : ByteVec
  blockHeight : Nat
  deriving DecidableEq

structure ContractActionRow extends ContractAction where
  blockHeight : Nat
  deriving DecidableEq

structure LedgerEventRow extends LedgerEvent where
  transactionHash : ByteVec
  blockHeight : Nat
  deriving DecidableEq

def transactionRows (blocks : List ChainBlock) : List TransactionRow :=
  blocks.flatMap fun block => block.transactions.map fun t => ⟨t.id, t.hash, block.height⟩

def contractActionRows (blocks : List ChainBlock) : List ContractActionRow :=
  blocks.flatMap fun block => block.transactions.flatMap fun t =>
    t.contractActions.map fun action => ⟨action, block.height⟩

def ledgerEventRows (blocks : List ChainBlock) : List LedgerEventRow :=
  blocks.flatMap fun block => block.transactions.flatMap fun t =>
    t.ledgerEvents.map fun event => ⟨event, t.hash, block.height⟩

@[simp] theorem transactionRows_append (blocks more : List ChainBlock) :
    transactionRows (blocks ++ more) = transactionRows blocks ++ transactionRows more :=
  flatMap_append

@[simp] theorem contractActionRows_append (blocks more : List ChainBlock) :
    contractActionRows (blocks ++ more) = contractActionRows blocks ++ contractActionRows more :=
  flatMap_append

@[simp] theorem ledgerEventRows_append (blocks more : List ChainBlock) :
    ledgerEventRows (blocks ++ more) = ledgerEventRows blocks ++ ledgerEventRows more :=
  flatMap_append

variable {block : ChainBlock} {backend : Sql.Backend} {rows after : List UnshieldedUtxoRow}
  {t : ChainTransaction} {address : ByteVec} {id : Nat} {transactions : List ChainTransaction}

theorem contractActionRow_height {row : ContractActionRow}
    (member : row ∈ contractActionRows [block]) : row.blockHeight = block.height := by
  simp only [contractActionRows, flatMap_singleton, mem_flatMap, mem_map] at member
  obtain ⟨_, _, _, _, rfl⟩ := member
  rfl

theorem ledgerEventRow_height {row : LedgerEventRow} (member : row ∈ ledgerEventRows [block]) :
    row.blockHeight = block.height := by
  simp only [ledgerEventRows, flatMap_singleton, mem_flatMap, mem_map] at member
  obtain ⟨_, _, _, _, rfl⟩ := member
  rfl

/-- Keys in commit order. -/
structure Ordered (blocks : List ChainBlock) : Prop where
  heights : Serial ChainBlock.height (2 ^ 32) blocks
  transactions : Serial TransactionRow.id (2 ^ 63) (transactionRows blocks)
  contractActions : Serial (fun row => row.id) (2 ^ 63) (contractActionRows blocks)
  ledgerEvents : Serial (fun row => row.id) (2 ^ 63) (ledgerEventRows blocks)

instance Ordered.decidable (blocks : List ChainBlock) : Decidable (Ordered blocks) :=
  decidable_of_iff
    (Serial ChainBlock.height (2 ^ 32) blocks ∧
      Serial TransactionRow.id (2 ^ 63) (transactionRows blocks) ∧
      Serial (fun row => row.id) (2 ^ 63) (contractActionRows blocks) ∧
      Serial (fun row => row.id) (2 ^ 63) (ledgerEventRows blocks))
    ⟨fun h => ⟨h.1, h.2.1, h.2.2.1, h.2.2.2⟩,
      fun h => ⟨h.heights, h.transactions, h.contractActions, h.ledgerEvents⟩⟩

theorem Ordered.nil : Ordered [] := ⟨.nil _ _, .nil _ _, .nil _ _, .nil _ _⟩

theorem Ordered.above {blocks : List ChainBlock} (ordered : Ordered (blocks ++ [block])) :
    ∀ old ∈ blocks, old.height < block.height :=
  fun old member =>
    (pairwise_append.mp ordered.heights.increasing).2.2 old member block (by simp)

/-! ## `unshielded_utxos` -/

/-- The statements of the transactions on `unshielded_utxos`. -/
def saveUtxos (backend : Sql.Backend) :
    List UnshieldedUtxoRow → List ChainTransaction → Except Sql.Error (List UnshieldedUtxoRow)
  | rows, [] => .ok rows
  | rows, t :: rest => do
    let rows ← saveCreatedUnshieldedUtxos rows t.id t.createdUtxos
    let rows ← saveSpentUnshieldedUtxos backend rows t.id t.spentUtxos
    saveUtxos backend rows rest

def ChainTransaction.afterUtxos (t : ChainTransaction) (rows : List UnshieldedUtxoRow) :
    List UnshieldedUtxoRow :=
  markSpent t.id (t.spentUtxos.map UnshieldedUtxo.key)
    (rows ++ t.createdUtxos.map (UnshieldedUtxoRow.created t.id))

open UnshieldedUtxoRow

theorem saveUtxos_cons {rest : List ChainTransaction} (unique : (rows.map key).Nodup)
    (saved : saveUtxos backend rows (t :: rest) = .ok after) : ((t.afterUtxos rows).map key).Nodup ∧
      saveUtxos backend (t.afterUtxos rows) rest = .ok after := by
  rw [saveUtxos] at saved
  obtain ⟨middle, created, saved⟩ := bind_success saved
  obtain ⟨distinct, rfl⟩ := (saveCreatedUnshieldedUtxos_ok_iff unique _ _).mp created
  have created_unique : ((rows ++ t.createdUtxos.map (UnshieldedUtxoRow.created t.id)).map
      key).Nodup := by
    rw [map_append, map_map]
    exact distinct
  obtain ⟨last, spent, saved⟩ := bind_success saved
  obtain ⟨_, rfl⟩ := (saveSpentUnshieldedUtxos_ok_iff created_unique _ _ _).mp spent
  refine ⟨?_, saved⟩
  rw [ChainTransaction.afterUtxos, markSpent_map fun row => row.key_spentBy t.id]
  exact created_unique

/-- A UTXO of the address is created or spent by the transaction. -/
def Touches (rows : List UnshieldedUtxoRow) (address : ByteVec) (id : Nat) : Prop :=
  ∃ row ∈ rows, row.owner = address ∧
    (row.creatingTransactionId = id ∨ row.spendingTransactionId = some id)

theorem touches_append {more : List UnshieldedUtxoRow} :
    Touches (rows ++ more) address id ↔ Touches rows address id ∨ Touches more address id := by
  simp only [Touches, mem_append, or_and_right, exists_or]

theorem touches_created {utxos : List UnshieldedUtxo} {transactionId : Nat} :
    Touches (utxos.map (created transactionId)) address id ↔
      id = transactionId ∧ ∃ utxo ∈ utxos, utxo.owner = address := by
  constructor
  · intro touched
    obtain ⟨row, member, owner, named⟩ := touched
    obtain ⟨utxo, created, rfl⟩ := mem_map.mp member
    rcases named with named | spent
    · exact ⟨named.symm, utxo, created, owner⟩
    · cases spent
  · intro created
    obtain ⟨rfl, utxo, member, owner⟩ := created
    exact ⟨_, mem_map_of_mem member, owner, .inl rfl⟩

theorem touches_markSpent {keys : List UtxoKey} {transactionId : Nat} :
    Touches (markSpent transactionId keys rows) address id ↔ Touches rows address id ∨
      (id = transactionId ∧ ∃ row ∈ rows, row.owner = address ∧
        row.key ∈ keys ∧ row.spendingTransactionId = none) := by
  constructor
  · intro touched
    obtain ⟨after, member, owner, named⟩ := touched
    obtain ⟨row, before, rfl⟩ := mem_markSpent.mp member
    by_cases hit : row.key ∈ keys ∧ row.spendingTransactionId = none
    · rw [if_pos hit] at owner named
      rcases named with created | spent
      · exact .inl ⟨row, before, owner, .inl created⟩
      · exact .inr ⟨(Option.some.inj spent).symm, row, before, owner, hit⟩
    · rw [if_neg hit] at owner named
      exact .inl ⟨row, before, owner, named⟩
  · intro touched
    rcases touched with ⟨row, before, owner, named⟩ | ⟨rfl, row, before, owner, hit⟩
    · refine ⟨_, mem_markSpent.mpr ⟨row, before, rfl⟩, ?_⟩
      by_cases hit : row.key ∈ keys ∧ row.spendingTransactionId = none
      · rw [if_pos hit]
        exact ⟨owner, .inl (named.resolve_right (by simp [hit.2]))⟩
      · rw [if_neg hit]
        exact ⟨owner, named⟩
    · refine ⟨_, mem_markSpent.mpr ⟨row, before, rfl⟩, ?_⟩
      rw [if_pos hit]
      exact ⟨owner, .inr rfl⟩

/-- A transaction adds itself for the owners of what it creates and of the rows
that it marks. -/
theorem touches_afterUtxos (touched : Touches (t.afterUtxos rows) address id) :
    Touches rows address id ∨ (id = t.id ∧ ((∃ utxo ∈ t.createdUtxos, utxo.owner = address) ∨
        ∃ row ∈ rows, row.owner = address ∧ row.key ∈ t.spentUtxos.map UnshieldedUtxo.key)) := by
  rw [ChainTransaction.afterUtxos, touches_markSpent, touches_append, touches_created] at touched
  rcases touched with (before | created) | ⟨same, row, member, owner, spent, _⟩
  · exact .inl before
  · exact .inr ⟨created.1, .inl created.2⟩
  · refine .inr ⟨same, ?_⟩
    rcases mem_append.mp member with old | new
    · exact .inr ⟨row, old, owner, spent⟩
    · obtain ⟨utxo, created, rfl⟩ := mem_map.mp new
      exact .inl ⟨utxo, created, owner⟩

theorem touches_kept (t : ChainTransaction) (touched : Touches rows address id) :
    Touches (t.afterUtxos rows) address id := by
  rw [ChainTransaction.afterUtxos, touches_markSpent, touches_append]
  exact .inl (.inl touched)

variable (unique : (rows.map UnshieldedUtxoRow.key).Nodup)
  (saved : saveUtxos backend rows transactions = .ok after)

include unique saved in
/-- The transactions touch nothing in the name of another transaction. -/
theorem touches_saveUtxos (other : ∀ t ∈ transactions, t.id ≠ id) :
    Touches after address id ↔ Touches rows address id := by
  induction transactions generalizing rows with
  | nil =>
    cases saved
    rfl
  | cons t rest ih =>
    obtain ⟨unique_after, saved⟩ := saveUtxos_cons unique saved
    rw [ih unique_after saved fun t member => other t (mem_cons_of_mem _ member)]
    constructor
    · intro touched
      rcases touches_afterUtxos touched with before | ⟨same, _⟩
      · exact before
      · exact absurd same.symm (other t mem_cons_self)
    · exact touches_kept t

include unique saved in
theorem saveUtxos_unique : (after.map key).Nodup := by
  induction transactions generalizing rows with
  | nil =>
    cases saved
    exact unique
  | cons t rest ih =>
    obtain ⟨unique_after, saved⟩ := saveUtxos_cons unique saved
    exact ih unique_after saved

/-! ## The database -/

structure ChainDb where
  blocks : List ChainBlock
  utxos : List UnshieldedUtxoRow
  ordered : Ordered blocks
  keys : (utxos.map UnshieldedUtxoRow.key).Nodup
  -- The foreign keys of `unshielded_utxos`.
  references : ∀ address id, Touches utxos address id → id ∈ (transactionRows blocks).map (·.id)

namespace ChainDb

def empty : ChainDb :=
  ⟨[], [], .nil, .nil, fun _ _ touched => (List.not_mem_nil touched.choose_spec.1).elim⟩

theorem saveUtxos_references {db : ChainDb}
    (saved : saveUtxos backend db.utxos block.transactions = .ok after) (address : ByteVec)
    (id : Nat) (touched : Touches after address id) :
    id ∈ (transactionRows (db.blocks ++ [block])).map (·.id) := by
  rw [transactionRows_append, map_append, mem_append]
  by_cases new : ∃ t ∈ block.transactions, t.id = id
  · obtain ⟨t, member, rfl⟩ := new
    refine .inr ?_
    simp only [transactionRows, flatMap_singleton, map_map, mem_map, Function.comp_apply]
    exact ⟨t, member, rfl⟩
  · rw [touches_saveUtxos db.keys saved fun t member same => new ⟨t, member, same⟩] at touched
    exact .inl (db.references address id touched)

/-- A committed block. A block that is out of order is never committed, and one
whose statements fail is rolled back. -/
def commit (backend : Sql.Backend) (db : ChainDb) (block : ChainBlock) : ChainDb :=
  match saved : saveUtxos backend db.utxos block.transactions with
  | .ok utxos =>
    if ordered : Ordered (db.blocks ++ [block]) then
      { blocks := db.blocks ++ [block]
        utxos := utxos
        ordered := ordered
        keys := saveUtxos_unique db.keys saved
        references := saveUtxos_references saved }
    else db
  | .error _ => db

/-- A commit changes nothing or appends the block. -/
theorem commit_cases (backend : Sql.Backend) (db : ChainDb) (block : ChainBlock) :
    db.commit backend block = db ∨
      (Ordered (db.blocks ++ [block]) ∧ (db.commit backend block).blocks = db.blocks ++ [block] ∧
        saveUtxos backend db.utxos block.transactions = .ok (db.commit backend block).utxos) := by
  unfold commit
  split
  next utxos saved =>
    split
    next ordered => exact .inr ⟨ordered, rfl, saved⟩
    next => exact .inl rfl
  next => exact .inl rfl

/-- `get_latest_block`: the height of the last block. -/
def latestHeight (db : ChainDb) : Option Nat :=
  (Sql.orderByDesc ChainBlock.height db.blocks).head?.map (·.height)

theorem latestHeight_mem {db : ChainDb} {height : Nat} (latest : db.latestHeight = some height) :
    ∃ block ∈ db.blocks, block.height = height := by
  obtain ⟨top, first, rfl⟩ := Option.map_eq_some_iff.mp latest
  exact ⟨top, Sql.mem_orderByDesc.mp (mem_of_head? first), rfl⟩

end ChainDb

end MidnightIndexer.Source.IndexerApi
