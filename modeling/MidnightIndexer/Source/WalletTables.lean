import MidnightIndexer.Source.WalletEffects

/-!
# The wallet tables over whole runs

The constraints of the schema (primary keys, unique columns, foreign keys) and
the column range hold after every run of the services, whatever their inputs.
Every relevant row names an existing wallet and a committed transaction that is
relevant to that wallet's viewing key: no run inserts a foreign transaction.
-/

namespace MidnightIndexer.Source

open Lib List Table

structure WalletTables (env : WalletEnv) (db : WalletDb) : Prop where
  ordered : OrderedTransactions db.transactions
  ids : (db.wallets.map WalletRow.id).Nodup
  keys : (db.wallets.map WalletRow.viewingKey).Nodup
  columns : ∀ w ∈ db.wallets, w.wantedStartIndex ≤ w.firstIndexedTransactionId ∧
    w.firstIndexedTransactionId < 2 ^ 63 ∧ w.lastIndexedTransactionId < 2 ^ 63
  relevant : db.relevantTransactions.Nodup
  sound : ∀ r ∈ db.relevantTransactions, ∃ w ∈ db.wallets, w.id = r.walletId ∧
    ∃ t ∈ db.transactions, t.id = r.transactionId ∧ env.isRelevant w.viewingKey t

/-- Nothing is left to scan: no backward gap and no regular transaction above
the forward cursor. -/
def ScanComplete (db : WalletDb) (wallet : WalletRow) : Prop :=
  wallet.firstIndexedTransactionId ≤ wallet.wantedStartIndex ∧
    ∀ t ∈ db.transactions, t.isRegular → t.id ≤ wallet.lastIndexedTransactionId

theorem walletTables_empty (env : WalletEnv) : WalletTables env WalletDb.empty where
  ordered := ⟨Pairwise.nil, by simp [WalletDb.empty]⟩
  ids := nodup_nil
  keys := nodup_nil
  columns := by simp [WalletDb.empty]
  relevant := nodup_nil
  sound := by simp [WalletDb.empty]

namespace WalletTables

variable {env : WalletEnv} {db after : WalletDb} (tables : WalletTables env db)

include tables

theorem walletByKey_of_mem {wallet : WalletRow} (member : wallet ∈ db.wallets) :
    db.walletByKey wallet.viewingKey = some wallet :=
  lookup_of_mem tables.keys member

variable {f : WalletRow → WalletRow}

/-- An assignment to wallet rows that leaves id and key alone keeps the tables
well formed if it keeps the cursors in order. -/
theorem update_wallets {κ : Type} [DecidableEq κ] {key : WalletRow → κ} {k : κ}
    (id_same : ∀ w, (f w).id = w.id) (key_same : ∀ w, (f w).viewingKey = w.viewingKey)
    (columns : ∀ w ∈ db.wallets, key w = k →
      (f w).wantedStartIndex ≤ (f w).firstIndexedTransactionId ∧
      (f w).firstIndexedTransactionId < 2 ^ 63 ∧ (f w).lastIndexedTransactionId < 2 ^ 63) :
    WalletTables env { db with wallets := update key k f db.wallets } where
  ordered := tables.ordered
  ids := by
    rw [update_map_eq WalletRow.id id_same]
    exact tables.ids
  keys := by
    rw [update_map_eq WalletRow.viewingKey key_same]
    exact tables.keys
  columns := by
    intro w member
    obtain ⟨row, row_member, rfl⟩ := mem_update.mp member
    split
    next hit => exact columns row row_member hit
    next => exact tables.columns row row_member
  relevant := tables.relevant
  sound := by
    intro r member
    obtain ⟨w, w_member, w_id, found⟩ := tables.sound r member
    refine ⟨_, mem_update.mpr ⟨w, w_member, rfl⟩, ?_, ?_⟩
    · split <;> simp [id_same, w_id]
    · split <;> simpa [key_same] using found

/-- An indexing step, which moves a cursor of a stored wallet and inserts rows
for it, keeps the tables well formed. -/
theorem insert_rows {κ : Type} [DecidableEq κ] {key : WalletRow → κ} {k : κ} {wallet : WalletRow}
    {relevant : List TransactionRow} {published : Bool} (member : wallet ∈ db.wallets)
    (wallets : after.wallets = update key k f db.wallets)
    (inserted : Inserted env wallet relevant db after published) (id_same : ∀ w, (f w).id = w.id)
    (key_same : ∀ w, (f w).viewingKey = w.viewingKey) (columns : ∀ w ∈ db.wallets, key w = k →
      (f w).wantedStartIndex ≤ (f w).firstIndexedTransactionId ∧
      (f w).firstIndexedTransactionId < 2 ^ 63 ∧ (f w).lastIndexedTransactionId < 2 ^ 63) :
    WalletTables env after := by
  have moved := tables.update_wallets id_same key_same columns
  rw [← wallets] at moved
  refine ⟨inserted.transactions ▸ tables.ordered, moved.ids, moved.keys, moved.columns,
    inserted.unique, ?_⟩
  intro r r_member
  rw [inserted.rows, mem_append] at r_member
  rcases r_member with old | new
  · rw [inserted.transactions]
    exact moved.sound r old
  · obtain ⟨t, t_member, rfl⟩ := mem_map.mp new
    obtain ⟨stored, keep⟩ := inserted.sound t t_member
    rw [inserted.transactions, wallets]
    refine ⟨_, mem_update.mpr ⟨wallet, member, rfl⟩, ?_, t, stored, rfl, ?_⟩
    · split <;> simp [id_same]
    · split <;> simpa [key_same] using keep

theorem indexWallet_kept {call : IndexCall} {published : Bool}
    (success : env.indexWallet call db = .ok (after, published)) : WalletTables env after := by
  rcases indexWallet_success success with ⟨rfl, _⟩ | ⟨wallet, found, arm⟩
  · exact tables
  · have member := (lookup_some found).1
    have bounds := tables.columns wallet member
    have owner : ∀ w ∈ db.wallets, w.id = wallet.id → w = wallet :=
      fun w w_member => inj_on_of_nodup_map tables.ids w_member member
    rcases arm with ⟨gap, scanned⟩ | ⟨_, _, scanned⟩
    · obtain ⟨first, relevant, effect⟩ :=
        indexBackward_effects tables.ordered gap bounds.2.1 scanned
      refine tables.insert_rows member effect.wallets effect.inserted (fun _ => rfl)
        (fun _ => rfl) ?_
      intro w w_member same
      rw [owner w w_member same]
      exact ⟨effect.low, effect.high.trans bounds.2.1, bounds.2.2⟩
    · rcases indexForward_effects tables.ordered (tables.walletByKey_of_mem member) scanned with
        ⟨rfl, _⟩ | ⟨last, relevant, effect⟩
      · exact tables
      · refine tables.insert_rows member effect.wallets effect.inserted (fun _ => rfl)
          (fun _ => rfl) ?_
        intro w w_member _
        exact ⟨(tables.columns w w_member).1, (tables.columns w w_member).2.1, effect.column⟩

theorem connectWallet_kept {id : Uuid} {key : ViewingKey} {startIndex : Option Nat} {now : Int}
    {session : SessionId} (success : connectWallet id key startIndex now session db = .ok after) :
    WalletTables env after := by
  obtain ⟨fits, arm⟩ := connectWallet_success success
  rcases arm with ⟨wallet, _, rfl⟩ | ⟨missing, fresh, rfl⟩
  · refine tables.update_wallets (fun _ => rfl) (fun _ => rfl) ?_
    intro w member _
    obtain ⟨low, first, last⟩ := tables.columns w member
    refine ⟨?_, first, last⟩
    simp only [reconnect]
    split <;> omega
  · have absent := lookup_eq_none.mp missing
    refine ⟨tables.ordered, ?_, ?_, ?_, tables.relevant, ?_⟩
    · simpa [nodup_append, tables.ids, newWallet] using fresh
    · simpa [nodup_append, tables.keys, newWallet] using absent
    · intro w member
      rcases mem_append.mp member with old | new
      · exact tables.columns w old
      · rw [mem_singleton.mp new]
        exact ⟨le_refl _, fits, fits⟩
    · intro r member
      obtain ⟨w, w_member, found⟩ := tables.sound r member
      exact ⟨w, mem_append_left _ w_member, found⟩

theorem commitTransaction_kept (row : TransactionRow) :
    WalletTables env (commitTransaction row db) := by
  rcases commitTransaction_cases row db with refused | ⟨column, above, committed⟩
  · rw [refused]
    exact tables
  · rw [committed]
    refine ⟨tables.ordered.append column above, tables.ids, tables.keys, tables.columns,
      tables.relevant, ?_⟩
    intro r member
    obtain ⟨w, w_member, same, t, t_member, found⟩ := tables.sound r member
    exact ⟨w, w_member, same, t, mem_append_left _ t_member, found⟩

theorem step (input : WalletInput) : WalletTables env (walletStep env db input) := by
  cases input with
  | connect id key startIndex now session =>
    simp only [walletStep]
    split
    next connected => exact tables.connectWallet_kept connected
    next => exact tables
  | commit row => exact tables.commitTransaction_kept row
  | index call =>
    simp only [walletStep]
    split
    next indexed => exact tables.indexWallet_kept indexed
    next => exact tables

end WalletTables

end MidnightIndexer.Source
