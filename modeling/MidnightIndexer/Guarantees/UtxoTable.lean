import MidnightIndexer.Lib.Run
import MidnightIndexer.Source.UnshieldedUtxos

/-!
# The UTXO table over every sequence of saved blocks

After any sequence of `save_block` calls the table is determined by the
transactions of the calls that succeeded: one row per created UTXO, and as its
spender the one transaction that spent it. The condition under which a call
succeeds is stated over the whole block, with the keys that earlier transactions
of the block have created and spent.
-/

namespace MidnightIndexer.Guarantees.UtxoTable

open Lib List Source.ChainIndexer UnshieldedUtxoRow

variable {crates : LedgerCrates}

structure SaveBlock (crates : LedgerCrates) where
  block : Block
  transactions : List (Transaction crates)
  ledgerStateKey : ByteVec
  systemParametersChange : Option SystemParametersChange

section

variable {tables : ChildTables crates}

def SaveBlock.on (call : SaveBlock crates) (storage : Storage tables) :
    Except StorageError (Storage tables) :=
  storage.saveBlock call.block call.transactions call.ledgerStateKey call.systemParametersChange

/-- A failed call is rolled back. -/
def saveBlockStep (storage : Storage tables) (call : SaveBlock crates) : Storage tables :=
  match call.on storage with
  | .ok after => after
  | .error _ => storage

/-- The transactions of the calls that succeed, in the order of their ids. -/
def savedTransactions : Storage tables → List (SaveBlock crates) → List (Transaction crates)
  | _, [] => []
  | storage, call :: rest =>
    match call.on storage with
    | .ok after => call.transactions ++ savedTransactions after rest
    | .error _ => savedTransactions storage rest

end

variable (read : crates.UnshieldedUtxo → UnshieldedUtxo)

/-- The rows that the transactions insert; ids are counted from 1. -/
def creations (history : List (Transaction crates)) : List UnshieldedUtxoRow :=
  (history.zipIdx 1).flatMap fun t =>
    (t.1.createdUtxos read).map (UnshieldedUtxoRow.created t.2)

/-- The keys that the transactions spend, with their ids. -/
def spends (history : List (Transaction crates)) : List (UtxoKey × Nat) :=
  (history.zipIdx 1).flatMap fun t => (t.1.spentKeys read).map fun k => (k, t.2)

structure SpendersOf (rows : List UnshieldedUtxoRow) (spenders : List (UtxoKey × Nat)) : Prop where
  one_row : (rows.map UnshieldedUtxoRow.key).Nodup
  spent_once : (spenders.map Prod.fst).Nodup
  spent_rows : ∀ spend ∈ spenders, spend.1 ∈ rows.map UnshieldedUtxoRow.key
  spender : ∀ row ∈ rows, ∀ id, row.spendingTransactionId = some id ↔ (row.key, id) ∈ spenders

/-- The table holds what the transactions have created and spent. -/
structure TableOf (rows : List UnshieldedUtxoRow) (history : List (Transaction crates)) : Prop where
  created : rows.map UnshieldedUtxoRow.unspent = creations read history
  spenders : SpendersOf rows (spends read history)
  ordered : ∀ row ∈ rows, ∀ id ∈ row.spendingTransactionId, row.creatingTransactionId ≤ id

/-- The block creates no key that exists, and each of its transactions spends
distinct rows that exist and that nothing has spent before. -/
structure Saveable (rows : List UnshieldedUtxoRow) (transactions : List (Transaction crates)) :
    Prop where
  created : (rows.map UnshieldedUtxoRow.key ++
    transactions.flatMap (Transaction.createdKeys read)).Nodup
  spent : ∀ before t after, transactions = before ++ t :: after →
    (t.spentKeys read).Nodup ∧ ∀ k ∈ t.spentKeys read,
      (k ∈ openKeys rows ∨ k ∈ (before ++ [t]).flatMap (Transaction.createdKeys read)) ∧
        k ∉ before.flatMap (Transaction.spentKeys read)

variable {read}

theorem creations_append_singleton (history : List (Transaction crates)) (t : Transaction crates) :
    creations read (history ++ [t]) = creations read history ++
      (t.createdUtxos read).map (created (history.length + 1)) := by
  simp [creations, zipIdx_append, Nat.add_comm]

theorem spends_append_singleton (history : List (Transaction crates)) (t : Transaction crates) :
    spends read (history ++ [t]) = spends read history ++
      (t.spentKeys read).map fun k => (k, history.length + 1) := by
  simp [spends, zipIdx_append, Nat.add_comm]

/-! ## One transaction -/

variable {rows after : List UnshieldedUtxoRow} {spenders : List (UtxoKey × Nat)}
  {history : List (Transaction crates)} {t : Transaction crates} {backend : Sql.Backend}

theorem SpendersOf.insert (table : SpendersOf rows spenders) {utxos : List UnshieldedUtxo}
    (transactionId : Nat) (distinct : (rows.map key ++ utxos.map UnshieldedUtxo.key).Nodup) :
    SpendersOf (rows ++ utxos.map (created transactionId)) spenders := by
  have keys := created_keys rows transactionId utxos
  refine ⟨keys ▸ distinct, table.spent_once, fun spend member => ?_, fun row member id => ?_⟩
  · rw [keys]
    exact mem_append_left _ (table.spent_rows spend member)
  · rcases mem_append.mp member with old | new
    · exact table.spender row old id
    · obtain ⟨utxo, utxo_member, rfl⟩ := mem_map.mp new
      refine iff_of_false (by simp [created]) fun spent => ?_
      have known : utxo.key ∈ rows.map key := table.spent_rows _ spent
      exact (nodup_append.mp distinct).2.2 _ known _ (mem_map_of_mem utxo_member) rfl

theorem SpendersOf.mark (table : SpendersOf rows spenders) {keys : List UtxoKey}
    (transactionId : Nat) (distinct : keys.Nodup) (unspent : ∀ k ∈ keys, k ∈ openKeys rows) :
    SpendersOf (markSpent transactionId keys rows)
      (spenders ++ keys.map fun k => (k, transactionId)) := by
  have same_keys : (markSpent transactionId keys rows).map key =
      rows.map key := markSpent_map (fun row => row.key_spentBy _) keys rows
  -- A row is named by the update only while it has no spender.
  have unspent_row : ∀ row ∈ rows, row.key ∈ keys → row.spendingTransactionId = none := by
    intro row member named
    obtain ⟨other, other_member, same, no_spender⟩ := mem_openKeys.mp (unspent row.key named)
    rw [← inj_on_of_nodup_map table.one_row other_member member same]
    exact no_spender
  have unspent_key : ∀ k ∈ keys, ∀ id, (k, id) ∉ spenders := by
    intro k named id spent
    obtain ⟨row, member, rfl, no_spender⟩ := mem_openKeys.mp (unspent k named)
    have spender := (table.spender row member id).mpr spent
    simp [no_spender] at spender
  have mem_marked : ∀ k id, (k, id) ∈ keys.map (fun k => (k, transactionId)) ↔
      k ∈ keys ∧ transactionId = id := by
    simp
  refine ⟨same_keys ▸ table.one_row, ?_, ?_, ?_⟩
  · rw [map_append, map_map, nodup_append]
    refine ⟨table.spent_once, by simpa [Function.comp_def] using distinct, ?_⟩
    intro k old other new same
    obtain ⟨⟨_, id⟩, spent, rfl⟩ := mem_map.mp old
    obtain ⟨k, named, rfl⟩ := mem_map.mp new
    dsimp only [Function.comp_apply] at same
    exact unspent_key k named id (same ▸ spent)
  · rw [same_keys]
    intro spend member
    rcases mem_append.mp member with old | new
    · exact table.spent_rows spend old
    · obtain ⟨k, named, rfl⟩ := mem_map.mp new
      obtain ⟨row, row_member, rfl, _⟩ := mem_openKeys.mp (unspent k named)
      exact mem_map_of_mem row_member
  · intro x member id
    obtain ⟨row, old, rfl⟩ := mem_markSpent.mp member
    by_cases named : row.key ∈ keys
    · have marked : (if row.key ∈ keys ∧ row.spendingTransactionId = none then
          row.spentBy transactionId else row) = row.spentBy transactionId :=
        if_pos ⟨named, unspent_row row old named⟩
      rw [marked, key_spentBy, mem_append, mem_marked]
      simp [spentBy, unspent_key row.key named id, named]
    · rw [if_neg fun hit => named hit.1, table.spender row old id, mem_append, mem_marked]
      simp [named]

theorem TableOf.creator_le (table : TableOf read rows history) {row : UnshieldedUtxoRow}
    (member : row ∈ rows) : row.creatingTransactionId ≤ history.length := by
  have inserted : row.unspent ∈ creations read history := by
    rw [← table.created]
    exact mem_map_of_mem member
  obtain ⟨⟨t, id⟩, numbered, new⟩ := mem_flatMap.mp inserted
  obtain ⟨utxo, _, same⟩ := mem_map.mp new
  have number : row.creatingTransactionId = id :=
    (congrArg creatingTransactionId same).symm
  have bound := (mem_zipIdx numbered).2.1
  omega

theorem TableOf.transaction (table : TableOf read rows history)
    (success : saveTransactionUtxos read backend rows (history.length + 1) t = .ok after) :
    TableOf read after (history ++ [t]) := by
  obtain ⟨⟨distinct, once, known⟩, rfl⟩ :=
    (saveTransactionUtxos_ok_iff table.spenders.one_row _ t).mp success
  have inserted := table.spenders.insert (history.length + 1) distinct
  refine ⟨?_, ?_, ?_⟩
  · rw [afterTransaction, markSpent_map fun row => row.unspent_spentBy _, map_append,
      table.created, creations_append_singleton, map_map]
    rfl
  · rw [spends_append_singleton]
    exact inserted.mark (history.length + 1) once fun k named =>
      mem_openKeys_created.mpr (known k named)
  · intro x member id spender
    obtain ⟨row, row_member, rfl⟩ := mem_markSpent.mp member
    have creator : row.creatingTransactionId ≤ history.length + 1 := by
      rcases mem_append.mp row_member with old | new
      · exact Nat.le_succ_of_le (table.creator_le old)
      · obtain ⟨utxo, _, rfl⟩ := mem_map.mp new
        exact Nat.le_refl _
    split at spender
    next hit =>
      cases spender
      rw [if_pos hit]
      exact creator
    next missed =>
      rw [if_neg missed]
      rcases mem_append.mp row_member with old | new
      · exact table.ordered row old id spender
      · obtain ⟨utxo, _, rfl⟩ := mem_map.mp new
        cases spender

/-! ## One block -/

theorem TableOf.block {transactions : List (Transaction crates)} (table : TableOf read rows history)
    (success : saveBlockUtxos read backend rows (history.length + 1) transactions = .ok after) :
    TableOf read after (history ++ transactions) := by
  induction transactions generalizing rows history with
  | nil =>
    cases success
    rwa [append_nil]
  | cons t rest ih =>
    obtain ⟨next, first, success⟩ := bind_success success
    have saved := ih (table.transaction first) (by rwa [length_append])
    rwa [append_assoc] at saved

/-- The condition on a block is the one on its first transaction and the one on
the rest, over the table that the first leaves. -/
theorem saveable_cons {rest : List (Transaction crates)} (transactionId : Nat) :
    Saveable read rows (t :: rest) ↔ ((rows.map key ++ t.createdKeys read).Nodup ∧
        (t.spentKeys read).Nodup ∧
        ∀ k ∈ t.spentKeys read, k ∈ openKeys rows ∨ k ∈ t.createdKeys read) ∧
      Saveable read (afterTransaction read rows transactionId t) rest := by
  constructor
  · rintro ⟨created, spent⟩
    rw [flatMap_cons, ← append_assoc] at created
    have first := spent [] t rest rfl
    refine ⟨⟨(nodup_append.mp created).1, first.1, fun k named => ?_⟩, ?_, ?_⟩
    · simpa using (first.2 k named).1
    · rwa [afterTransaction_keys]
    · rintro before u after rfl
      obtain ⟨once, known⟩ := spent (t :: before) u after rfl
      refine ⟨once, fun k named => ?_⟩
      have here := known k named
      simp only [cons_append, flatMap_cons, mem_append, not_or] at here
      rw [mem_openKeys_afterTransaction]
      tauto
  · rintro ⟨⟨distinct, once, known⟩, created, spent⟩
    -- What the first transaction spends existed before, so no later one creates it.
    have created_later : ∀ k ∈ rest.flatMap (Transaction.createdKeys read),
        k ∉ t.spentKeys read := by
      intro k later named
      rw [afterTransaction_keys] at created
      refine (nodup_append.mp created).2.2 k ?_ k later rfl
      rcases known k named with unspent | own
      · obtain ⟨row, member, rfl, _⟩ := mem_openKeys.mp unspent
        exact mem_append_left _ (mem_map_of_mem member)
      · exact mem_append_right _ own
    refine ⟨?_, ?_⟩
    · rwa [flatMap_cons, ← append_assoc, ← afterTransaction_keys]
    · intro before u after shape
      cases before with
      | nil =>
        cases shape
        exact ⟨once, fun k named => by simpa using known k named⟩
      | cons first before =>
        rw [cons_append, cons.injEq] at shape
        obtain ⟨rfl, rfl⟩ := shape
        obtain ⟨once, known⟩ := spent before u after rfl
        refine ⟨once, fun k named => ?_⟩
        have here := known k named
        have inside : k ∈ (before ++ [u]).flatMap (Transaction.createdKeys read) →
            k ∉ t.spentKeys read := by
          intro member
          apply created_later
          rw [append_cons, flatMap_append]
          exact mem_append_left _ member
        rw [mem_openKeys_afterTransaction] at here
        simp only [cons_append, flatMap_cons, mem_append, not_or]
        tauto

theorem saveBlockUtxos_ok_iff (unique : (rows.map key).Nodup)
    (transactionId : Nat) (transactions : List (Transaction crates)) :
    (∃ after, saveBlockUtxos read backend rows transactionId transactions = .ok after) ↔
      Saveable read rows transactions := by
  induction transactions generalizing rows transactionId with
  | nil =>
    refine iff_of_true ⟨rows, rfl⟩ ⟨by simpa using unique, ?_⟩
    intro before t after shape
    simp at shape
  | cons t rest ih =>
    rw [saveable_cons transactionId]
    constructor
    · rintro ⟨after, success⟩
      obtain ⟨next, first, success⟩ := bind_success success
      obtain ⟨fits, rfl⟩ := (saveTransactionUtxos_ok_iff unique transactionId t).mp first
      have keys : ((afterTransaction read rows transactionId t).map key).Nodup := by
        rw [afterTransaction_keys]
        exact fits.1
      exact ⟨fits, (ih keys (transactionId + 1)).mp ⟨after, success⟩⟩
    · rintro ⟨fits, later⟩
      have keys : ((afterTransaction read rows transactionId t).map key).Nodup := by
        rw [afterTransaction_keys]
        exact fits.1
      obtain ⟨after, success⟩ := (ih keys (transactionId + 1)).mpr later
      refine ⟨after, ?_⟩
      rw [saveBlockUtxos, (saveTransactionUtxos_ok_iff unique transactionId t).mpr ⟨fits, rfl⟩]
      exact success

/-! ## Every sequence of calls -/

/-- The table belongs to the transactions, which have the ids in use. -/
structure StoreOf {backend : Sql.Backend} (storage : Storage (utxoTables read backend))
    (history : List (Transaction crates)) : Prop where
  table : TableOf read storage.children history
  ids : storage.transactions.length = history.length

variable {storage : Storage (utxoTables read backend)}

theorem StoreOf.call {after : Storage (utxoTables read backend)} (store : StoreOf storage history)
    {call : SaveBlock crates} (success : call.on storage = .ok after) :
    StoreOf after (history ++ call.transactions) := by
  obtain ⟨saved, grown⟩ := saveBlock_utxos success
  rw [store.ids] at saved grown
  exact ⟨store.table.block saved, by rw [grown, length_append]⟩

theorem StoreOf.run (store : StoreOf storage history) (calls : List (SaveBlock crates)) :
    StoreOf (Lib.run saveBlockStep storage calls) (history ++ savedTransactions storage calls) := by
  induction calls generalizing storage history with
  | nil => simpa [savedTransactions] using store
  | cons call rest ih =>
    rw [run_cons, savedTransactions, saveBlockStep]
    cases outcome : call.on storage with
    | error e => exact ih store
    | ok after =>
      rw [← append_assoc]
      exact ih (store.call outcome)

theorem StoreOf.empty (backend : Sql.Backend) :
    StoreOf (Storage.empty (utxoTables read backend)) [] where
  table :=
    { created := rfl
      spenders := ⟨nodup_nil, nodup_nil, by simp [spends], by simp [Storage.empty, utxoTables]⟩
      ordered := by simp [Storage.empty, utxoTables] }
  ids := rfl

/-- A call for a new block succeeds exactly if its transactions fit the table. -/
theorem StoreOf.call_ok_iff (store : StoreOf storage history) {call : SaveBlock crates}
    (fresh : ∀ old ∈ storage.blocks, old.hash ≠ call.block.hash ∧
      old.height ≠ Sql.asI64 call.block.height.toNat) :
    (∃ after, call.on storage = .ok after) ↔ Saveable read storage.children call.transactions := by
  rw [← saveBlockUtxos_ok_iff store.table.spenders.one_row (storage.transactions.length + 1)]
  constructor
  · rintro ⟨after, success⟩
    exact ⟨after.children, (saveBlock_utxos success).1⟩
  · rintro ⟨rows, success⟩
    exact saveBlock_of_utxos fresh success _ _

/-- After every sequence of calls the table is that of the transactions saved. A
further call for a new block saves all of its transactions if they fit the table;
if they do not, it fails and changes nothing. -/
theorem utxo_table_exact (read : crates.UnshieldedUtxo → UnshieldedUtxo) (backend : Sql.Backend)
    (calls : List (SaveBlock crates)) :
    let start := Storage.empty (utxoTables read backend)
    let storage := Lib.run saveBlockStep start calls
    TableOf read storage.children (savedTransactions start calls) ∧
    ∀ call : SaveBlock crates, (∀ old ∈ storage.blocks, old.hash ≠ call.block.hash ∧
        old.height ≠ Sql.asI64 call.block.height.toNat) →
      (Saveable read storage.children call.transactions ∧
        (∃ after, call.on storage = .ok after ∧
          TableOf read after.children (savedTransactions start calls ++ call.transactions))) ∨
      (¬ Saveable read storage.children call.transactions ∧
        (∃ e, call.on storage = .error e) ∧ saveBlockStep storage call = storage) := by
  intro start storage
  have store : StoreOf storage (savedTransactions start calls) :=
    (StoreOf.empty backend).run calls
  refine ⟨store.table, fun call fresh => ?_⟩
  have succeeds := store.call_ok_iff fresh
  cases outcome : call.on storage with
  | ok after =>
    exact Or.inl ⟨succeeds.mp ⟨after, outcome⟩, after, rfl, (store.call outcome).table⟩
  | error e =>
    refine Or.inr ⟨fun fits => ?_, ⟨e, rfl⟩, by rw [saveBlockStep, outcome]⟩
    obtain ⟨after, success⟩ := succeeds.mpr fits
    rw [outcome] at success
    cases success

end MidnightIndexer.Guarantees.UtxoTable
