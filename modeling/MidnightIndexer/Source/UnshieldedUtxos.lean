import MidnightIndexer.Lib.Table
import MidnightIndexer.Source.BlockStorage

/-!
# The `unshielded_utxos` table

chain-indexer/src/infra/storage.rs:395-560 and 612-756 with
indexer-common/migrations/{postgres,sqlite}/001_initial.sql. A transaction first
inserts the UTXOs it creates and then marks those it spends; a system transaction
only creates. The two engines select the rows to mark by different conditions.

This instance of `ChildTables` holds `unshielded_utxos` alone. No statement for
another child table reads or writes it. Its serial `id` is left out, and so is
the list of UTXOs at the end of the error message.
-/

namespace MidnightIndexer.Source.ChainIndexer

open Lib List Storage

/-- `indexer_common::domain::UnshieldedUtxo`. -/
structure UnshieldedUtxo where
  owner : ByteVec
  tokenType : ByteVec
  value : Nat
  intentHash : ByteVec
  outputIndex : UInt32
  ctime : Option UInt64
  initialNonce : ByteVec
  registeredForDustGeneration : Bool
  deriving DecidableEq

/-- The columns `intent_hash` and `output_index`. -/
abbrev UtxoKey := ByteVec × Int

def UnshieldedUtxo.key (utxo : UnshieldedUtxo) : UtxoKey :=
  (utxo.intentHash, utxo.outputIndex.toNat)

structure UnshieldedUtxoRow where
  creatingTransactionId : Nat
  spendingTransactionId : Option Nat
  owner : ByteVec
  tokenType : ByteVec
  value : Nat
  intentHash : ByteVec
  outputIndex : Int
  ctime : Option Int
  initialNonce : ByteVec
  registeredForDustGeneration : Bool
  deriving DecidableEq

namespace UnshieldedUtxoRow

/-- `UNIQUE (intent_hash, output_index)`. -/
def key (row : UnshieldedUtxoRow) : UtxoKey := (row.intentHash, row.outputIndex)

def created (transactionId : Nat) (utxo : UnshieldedUtxo) : UnshieldedUtxoRow where
  creatingTransactionId := transactionId
  spendingTransactionId := none
  owner := utxo.owner
  tokenType := utxo.tokenType
  value := utxo.value
  intentHash := utxo.intentHash
  outputIndex := utxo.outputIndex.toNat
  ctime := utxo.ctime.map fun n => Sql.asI64 n.toNat
  initialNonce := utxo.initialNonce
  registeredForDustGeneration := utxo.registeredForDustGeneration

def spentBy (transactionId : Nat) (row : UnshieldedUtxoRow) : UnshieldedUtxoRow :=
  { row with spendingTransactionId := some transactionId }

def unspent (row : UnshieldedUtxoRow) : UnshieldedUtxoRow :=
  { row with spendingTransactionId := none }

@[simp] theorem key_spentBy (transactionId : Nat) (row : UnshieldedUtxoRow) :
    (row.spentBy transactionId).key = row.key := rfl

@[simp] theorem unspent_spentBy (transactionId : Nat) (row : UnshieldedUtxoRow) :
    (row.spentBy transactionId).unspent = row.unspent := rfl

end UnshieldedUtxoRow

def saveCreatedUnshieldedUtxos (rows : List UnshieldedUtxoRow) (transactionId : Nat)
    (utxos : List UnshieldedUtxo) : Except Sql.Error (List UnshieldedUtxoRow) :=
  if utxos.isEmpty then .ok rows
  else okOr (Table.insertAll UnshieldedUtxoRow.key rows
    (utxos.map (UnshieldedUtxoRow.created transactionId))) .uniqueViolation

/-- The `WHERE` clause of the update. -/
def spendsRow (backend : Sql.Backend) (utxos : List UnshieldedUtxo) (row : UnshieldedUtxoRow) :
    Bool :=
  match backend with
  | .postgres =>
    -- Two arrays are bound and `UNNEST` pairs them again.
    let arrays := (utxos.map UnshieldedUtxo.key).unzip
    arrays.1.zip arrays.2 |>.contains (row.intentHash, row.outputIndex)
      && row.spendingTransactionId.isNone
  | .sqlite =>
    (utxos.map UnshieldedUtxo.key).any (fun pair =>
        pair.1 == row.intentHash && pair.2 == row.outputIndex)
      && row.spendingTransactionId.isNone

def saveSpentUnshieldedUtxos (backend : Sql.Backend) (rows : List UnshieldedUtxoRow)
    (transactionId : Nat) (utxos : List UnshieldedUtxo) :
    Except Sql.Error (List UnshieldedUtxoRow) :=
  if utxos.isEmpty then .ok rows
  else
    let (after, rowsAffected) :=
      Table.updateWhere (spendsRow backend utxos) (UnshieldedUtxoRow.spentBy transactionId) rows
    let expected := utxos.length
    if rowsAffected ≠ expected then
      .error (.protocol s!"expected {expected} spent UTXOs but updated {rowsAffected}")
    else .ok after

section

variable {crates : LedgerCrates} (read : crates.UnshieldedUtxo → UnshieldedUtxo)

/-- The statements on `unshielded_utxos`. -/
def utxoTables (backend : Sql.Backend) : ChildTables crates where
  Tables := List UnshieldedUtxoRow
  empty := []
  saveRegularTransaction rows transactionId _ t := do
    let rows ← saveCreatedUnshieldedUtxos rows transactionId (t.createdUnshieldedUtxos.map read)
    saveSpentUnshieldedUtxos backend rows transactionId (t.spentUnshieldedUtxos.map read)
  saveSystemTransaction rows transactionId t :=
    saveCreatedUnshieldedUtxos rows transactionId (t.createdUnshieldedUtxos.map read)
  saveDustRegistrationEvents rows _ _ _ := .ok rows
  saveBridgeEvents rows _ _ _ := .ok rows

namespace Transaction

def createdUtxos : Transaction crates → List UnshieldedUtxo
  | .regular t => t.createdUnshieldedUtxos.map read
  | .system t => t.createdUnshieldedUtxos.map read

def spentUtxos : Transaction crates → List UnshieldedUtxo
  | .regular t => t.spentUnshieldedUtxos.map read
  | .system _ => []

def createdKeys (t : Transaction crates) : List UtxoKey :=
  (t.createdUtxos read).map UnshieldedUtxo.key

def spentKeys (t : Transaction crates) : List UtxoKey :=
  (t.spentUtxos read).map UnshieldedUtxo.key

end Transaction

def saveTransactionUtxos (backend : Sql.Backend) (rows : List UnshieldedUtxoRow)
    (transactionId : Nat) (t : Transaction crates) : Except Sql.Error (List UnshieldedUtxoRow) := do
  let rows ← saveCreatedUnshieldedUtxos rows transactionId (t.createdUtxos read)
  saveSpentUnshieldedUtxos backend rows transactionId (t.spentUtxos read)

/-- What the transactions of a block do to the table, the first one having the
given id. -/
def saveBlockUtxos (backend : Sql.Backend) :
    List UnshieldedUtxoRow → Nat → List (Transaction crates) →
      Except Sql.Error (List UnshieldedUtxoRow)
  | rows, _, [] => .ok rows
  | rows, id, t :: rest => do
    let rows ← saveTransactionUtxos read backend rows id t
    saveBlockUtxos backend rows (id + 1) rest

end

/-! ## What the statements do -/

def openKeys (rows : List UnshieldedUtxoRow) : List UtxoKey :=
  (rows.filter fun row => row.spendingTransactionId.isNone).map UnshieldedUtxoRow.key

/-- The unspent rows under the keys get a spender. -/
def markSpent (transactionId : Nat) (keys : List UtxoKey) (rows : List UnshieldedUtxoRow) :
    List UnshieldedUtxoRow :=
  rows.map fun row =>
    if row.key ∈ keys ∧ row.spendingTransactionId = none then row.spentBy transactionId else row

variable {rows after : List UnshieldedUtxoRow} {k : UtxoKey} {transactionId : Nat}

theorem mem_openKeys :
    k ∈ openKeys rows ↔ ∃ row ∈ rows, row.key = k ∧ row.spendingTransactionId = none := by
  simp [openKeys, and_assoc, and_comm]

theorem markSpent_map {γ : Type} {column : UnshieldedUtxoRow → γ}
    (same : ∀ row, column (row.spentBy transactionId) = column row) (keys : List UtxoKey)
    (rows : List UnshieldedUtxoRow) :
    (markSpent transactionId keys rows).map column = rows.map column := by
  rw [markSpent, map_map]
  apply map_congr_left
  intro row _
  rw [Function.comp_apply]
  split
  · exact same row
  · rfl

theorem mem_markSpent {keys : List UtxoKey} {x : UnshieldedUtxoRow} :
    x ∈ markSpent transactionId keys rows ↔
      ∃ row ∈ rows, x = if row.key ∈ keys ∧ row.spendingTransactionId = none then
        row.spentBy transactionId else row := by
  simp only [markSpent, mem_map, eq_comm]

/-- The open keys after the marking are those not among the marked ones. -/
theorem mem_openKeys_markSpent {keys : List UtxoKey} :
    k ∈ openKeys (markSpent transactionId keys rows) ↔ k ∈ openKeys rows ∧ k ∉ keys := by
  simp only [mem_openKeys]
  constructor
  · rintro ⟨x, member, rfl, unspent⟩
    obtain ⟨row, old, rfl⟩ := mem_markSpent.mp member
    by_cases hit : row.key ∈ keys ∧ row.spendingTransactionId = none
    · rw [if_pos hit] at unspent
      cases unspent
    · rw [if_neg hit] at unspent ⊢
      exact ⟨⟨row, old, rfl, unspent⟩, fun named => hit ⟨named, unspent⟩⟩
  · rintro ⟨⟨row, old, rfl, unspent⟩, other⟩
    refine ⟨row, mem_markSpent.mpr ⟨row, old, ?_⟩, rfl, unspent⟩
    rw [if_neg fun hit => other hit.1]

open UnshieldedUtxoRow

/-- Both engines mark the same rows. -/
theorem spendsRow_iff (backend : Sql.Backend) (utxos : List UnshieldedUtxo)
    (row : UnshieldedUtxoRow) : spendsRow backend utxos row ↔
      row.key ∈ utxos.map UnshieldedUtxo.key ∧ row.spendingTransactionId = none := by
  cases backend with
  | postgres =>
    simp only [spendsRow, zip_unzip]
    simp [key]
  | sqlite => simp [spendsRow, key, Prod.ext_iff]

theorem created_keys (rows : List UnshieldedUtxoRow) (transactionId : Nat)
    (utxos : List UnshieldedUtxo) : (rows ++ utxos.map (created transactionId)).map key =
      rows.map key ++ utxos.map UnshieldedUtxo.key := by
  rw [map_append, map_map]
  rfl

theorem saveCreatedUnshieldedUtxos_ok_iff (unique : (rows.map key).Nodup)
    (transactionId : Nat) (utxos : List UnshieldedUtxo) :
    saveCreatedUnshieldedUtxos rows transactionId utxos = .ok after ↔
      (rows.map key ++ utxos.map UnshieldedUtxo.key).Nodup ∧
        after = rows ++ utxos.map (created transactionId) := by
  rw [← created_keys rows transactionId utxos, ← Table.insertAll_eq_some unique]
  unfold saveCreatedUnshieldedUtxos
  split
  next empty =>
    rw [isEmpty_iff.mp empty]
    simp [Table.insertAll]
  next =>
    cases Table.insertAll key rows (utxos.map (created transactionId)) <;> simp [okOr]

theorem saveSpentUnshieldedUtxos_ok_iff (unique : (rows.map key).Nodup)
    (backend : Sql.Backend) (transactionId : Nat) (utxos : List UnshieldedUtxo) :
    saveSpentUnshieldedUtxos backend rows transactionId utxos = .ok after ↔
      ((utxos.map UnshieldedUtxo.key).Nodup ∧
        ∀ k ∈ utxos.map UnshieldedUtxo.key, k ∈ openKeys rows) ∧
      after = markSpent transactionId (utxos.map UnshieldedUtxo.key) rows := by
  have counted := Table.countP_eq_length_iff unique (spendsRow_iff backend utxos)
  simp only [← mem_openKeys, length_map] at counted
  have marked : (Table.updateWhere (spendsRow backend utxos) (spentBy transactionId) rows).1 =
      markSpent transactionId (utxos.map UnshieldedUtxo.key) rows := by
    simp only [Table.updateWhere, markSpent, spendsRow_iff]
  rw [← counted, ← marked]
  unfold saveSpentUnshieldedUtxos
  split
  next empty =>
    rw [isEmpty_iff.mp empty] at counted marked ⊢
    rw [Except.ok.injEq, marked]
    simp only [markSpent, map_nil, not_mem_nil, false_and, if_false, map_id']
    exact ⟨fun same => ⟨counted.mpr ⟨nodup_nil, by simp⟩, same.symm⟩, fun same => same.2.symm⟩
  next =>
    dsimp only [Table.updateWhere]
    split
    next wrong => exact iff_of_false (by simp) fun right => wrong right.1
    next right =>
      rw [Except.ok.injEq]
      exact ⟨fun same => ⟨not_not.mp right, same.symm⟩, fun same => same.2.symm⟩

section

variable {crates : LedgerCrates} (read : crates.UnshieldedUtxo → UnshieldedUtxo)
  (backend : Sql.Backend)

def afterTransaction (rows : List UnshieldedUtxoRow) (transactionId : Nat)
    (t : Transaction crates) : List UnshieldedUtxoRow :=
  markSpent transactionId (t.spentKeys read)
    (rows ++ (t.createdUtxos read).map (UnshieldedUtxoRow.created transactionId))

variable {read backend}

theorem afterTransaction_keys (rows : List UnshieldedUtxoRow) (transactionId : Nat)
    (t : Transaction crates) : (afterTransaction read rows transactionId t).map key =
      rows.map key ++ t.createdKeys read := by
  rw [afterTransaction, markSpent_map fun row => row.key_spentBy transactionId, map_append, map_map]
  rfl

theorem mem_openKeys_created {utxos : List UnshieldedUtxo} :
    k ∈ openKeys (rows ++ utxos.map (created transactionId)) ↔
      k ∈ openKeys rows ∨ k ∈ utxos.map UnshieldedUtxo.key := by
  have opened : (utxos.map (created transactionId)).filter
      (fun row => row.spendingTransactionId.isNone) =
      utxos.map (created transactionId) := by
    rw [filter_eq_self]
    intro row member
    obtain ⟨utxo, _, rfl⟩ := mem_map.mp member
    rfl
  rw [openKeys, filter_append, map_append, mem_append, opened, map_map]
  rfl

variable {t : Transaction crates} {storage after : Storage (utxoTables read backend)}
  {transactions : List (Transaction crates)}

theorem mem_openKeys_afterTransaction : k ∈ openKeys (afterTransaction read rows transactionId t) ↔
      (k ∈ openKeys rows ∨ k ∈ t.createdKeys read) ∧ k ∉ t.spentKeys read := by
  rw [afterTransaction, mem_openKeys_markSpent, mem_openKeys_created, Transaction.createdKeys]

/-- A transaction is saved exactly if it creates new keys and spends distinct open
ones, its own included. -/
theorem saveTransactionUtxos_ok_iff {after : List UnshieldedUtxoRow}
    (unique : (rows.map key).Nodup) (transactionId : Nat) (t : Transaction crates) :
    saveTransactionUtxos read backend rows transactionId t = .ok after ↔
      ((rows.map key ++ t.createdKeys read).Nodup ∧ (t.spentKeys read).Nodup ∧
        ∀ k ∈ t.spentKeys read, k ∈ openKeys rows ∨ k ∈ t.createdKeys read) ∧
      after = afterTransaction read rows transactionId t := by
  have keys : (rows ++ (t.createdUtxos read).map (created transactionId)).map
      key = rows.map key ++ t.createdKeys read := by
    rw [map_append, map_map]
    rfl
  constructor
  · intro success
    obtain ⟨created, inserted, spent⟩ := bind_success success
    obtain ⟨distinct, rfl⟩ :=
      (saveCreatedUnshieldedUtxos_ok_iff unique transactionId _).mp inserted
    obtain ⟨⟨once, known⟩, rfl⟩ :=
      (saveSpentUnshieldedUtxos_ok_iff (keys ▸ distinct) backend transactionId _).mp spent
    exact ⟨⟨distinct, once, fun k member => mem_openKeys_created.mp (known k member)⟩, rfl⟩
  · rintro ⟨⟨distinct, once, known⟩, rfl⟩
    have inserted := (saveCreatedUnshieldedUtxos_ok_iff unique transactionId
      (t.createdUtxos read)).mpr ⟨distinct, rfl⟩
    unfold saveTransactionUtxos
    rw [inserted]
    exact (saveSpentUnshieldedUtxos_ok_iff (keys ▸ distinct) backend transactionId _).mpr
      ⟨⟨once, fun k member => mem_openKeys_created.mpr (known k member)⟩, rfl⟩

/-! ## `save_block` on this table -/

theorem saveTransaction_utxos {blockId : Nat}
    (success : saveTransaction blockId storage t = .ok after) :
    saveTransactionUtxos read backend storage.children (storage.transactions.length + 1) t =
        .ok after.children ∧ after.transactions.length = storage.transactions.length + 1 := by
  cases t with
  | regular t =>
    obtain ⟨rows, saved, success⟩ := bind_success success
    cases success
    exact ⟨mapError_success saved, length_append⟩
  | system t =>
    obtain ⟨rows, saved, success⟩ := bind_success success
    cases success
    have created : saveCreatedUnshieldedUtxos storage.children (storage.transactions.length + 1)
        (t.createdUnshieldedUtxos.map read) = .ok rows := mapError_success saved
    refine ⟨?_, length_append⟩
    simp only [saveTransactionUtxos, Transaction.createdUtxos, created]
    rfl

theorem saveTransaction_of_utxos (blockId : Nat)
    (success : saveTransactionUtxos read backend storage.children
      (storage.transactions.length + 1) t = .ok rows) :
    ∃ after, saveTransaction blockId storage t = .ok after := by
  cases t with
  | regular t =>
    have saved : (utxoTables read backend).saveRegularTransaction storage.children
        (storage.transactions.length + 1) blockId t = .ok rows := success
    simp only [saveTransaction, saveDetails, saved]
    exact ⟨_, rfl⟩
  | system t =>
    obtain ⟨created, inserted, _⟩ := bind_success success
    have saved : (utxoTables read backend).saveSystemTransaction storage.children
        (storage.transactions.length + 1) t = .ok created := inserted
    simp only [saveTransaction, saveDetails, saved]
    exact ⟨_, rfl⟩

theorem saveTransactions_utxos {blockId : Nat}
    (success : storage.saveTransactions blockId transactions = .ok after) :
    saveBlockUtxos read backend storage.children (storage.transactions.length + 1) transactions =
        .ok after.children ∧
      after.transactions.length = storage.transactions.length + transactions.length := by
  unfold saveTransactions at success
  induction transactions generalizing storage with
  | nil =>
    cases success
    exact ⟨rfl, rfl⟩
  | cons t rest ih =>
    rw [foldlM_cons] at success
    obtain ⟨next, saved, success⟩ := bind_success success
    obtain ⟨rows, grown⟩ := saveTransaction_utxos saved
    obtain ⟨later, total⟩ := ih success
    rw [grown] at later total
    refine ⟨?_, by rw [total, length_cons]; omega⟩
    simp only [saveBlockUtxos, rows]
    exact later

theorem saveTransactions_of_utxos (storage : Storage (utxoTables read backend)) (blockId : Nat)
    (success : saveBlockUtxos read backend storage.children (storage.transactions.length + 1)
      transactions = .ok rows) :
    ∃ after, storage.saveTransactions blockId transactions = .ok after := by
  unfold saveTransactions
  induction transactions generalizing storage with
  | nil => exact ⟨storage, rfl⟩
  | cons t rest ih =>
    obtain ⟨created, first, success⟩ := bind_success success
    obtain ⟨next, saved⟩ := saveTransaction_of_utxos blockId first
    obtain ⟨same, grown⟩ := saveTransaction_utxos saved
    rw [foldlM_cons, saved]
    apply ih
    rw [← Except.ok.inj (first.symm.trans same), grown]
    exact success

theorem saveBlock_utxos {block : Block} {key : ByteVec} {change : Option SystemParametersChange}
    (success : storage.saveBlock block transactions key change = .ok after) :
    saveBlockUtxos read backend storage.children (storage.transactions.length + 1) transactions =
        .ok after.children ∧
      after.transactions.length = storage.transactions.length + transactions.length := by
  obtain ⟨saved, _, _, save, registered, bridged, rfl⟩ := saveBlock_success success
  cases registered
  cases bridged
  have effect := saveTransactions_utxos save
  cases change <;> exact effect

/-- A block whose row is new is saved if its transactions fit the table. -/
theorem saveBlock_of_utxos {block : Block} (fresh : ∀ old ∈ storage.blocks, old.hash ≠ block.hash ∧
      old.height ≠ Sql.asI64 block.height.toNat)
    (success : saveBlockUtxos read backend storage.children (storage.transactions.length + 1)
      transactions = .ok rows) (key : ByteVec) (change : Option SystemParametersChange) :
    ∃ after, storage.saveBlock block transactions key change = .ok after := by
  have insert : storage.insertBlock (blockRow (storage.blocks.length + 1) block key) =
      .ok { storage with
        blocks := storage.blocks ++ [blockRow (storage.blocks.length + 1) block key] } := by
    unfold insertBlock
    rw [if_neg]
    simpa [blockRow] using fresh
  obtain ⟨saved, save⟩ := saveTransactions_of_utxos { storage with
    blocks := storage.blocks ++ [blockRow (storage.blocks.length + 1) block key] }
    (storage.blocks.length + 1) success
  unfold saveBlock
  dsimp only
  rw [insert]
  dsimp only [bind, Except.bind]
  rw [save]
  exact ⟨_, rfl⟩

end

end MidnightIndexer.Source.ChainIndexer
