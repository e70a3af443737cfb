import MidnightIndexer.Source.WalletTables

/-!
# What a complete scan has found

`connect_wallet` starts both cursors at the start index and the scans work
outwards from there, so the invariant of a wallet is about the closed interval
between its cursors: its relevant rows are the committed relevant transactions
with an id in that interval.

The interval contains an id that no scan has read: the start index itself, which
`ConnectOptions` documents as inclusive. A run keeps the invariant if no relevant
transaction enters the interval unread: at the first connect, through a commit
between the cursors (a start index beyond the tip), through a backward query
whose limit was cast to zero, or through a forward query whose start was cast to
a negative number.
-/

namespace MidnightIndexer.Guarantees

open Lib List Source

/-- The wallet's relevant rows are the committed relevant transactions whose id
meets `inside`. -/
def Holds (env : WalletEnv) (db : WalletDb) (wallet : WalletRow) (inside : Nat → Prop) : Prop :=
  ∀ id, RelevantRow.mk wallet.id id ∈ db.relevantTransactions ↔
    ∃ t ∈ db.transactions, t.id = id ∧ env.isRelevant wallet.viewingKey t ∧ inside t.id

/-- The condition on one step, over the state it is taken in. -/
def ScanStep (env : WalletEnv) (key : ViewingKey) (db : WalletDb) : WalletInput → Prop
  | .connect _ connected startIndex _ _ =>
    connected = key → db.walletByKey key = none →
      ∀ t ∈ db.transactions, env.isRelevant key t → t.id ≠ startIndex.getD 0
  | .commit row =>
    ∀ w ∈ db.walletByKey key, env.isRelevant key row →
      ¬ (w.firstIndexedTransactionId ≤ row.id ∧ row.id ≤ w.lastIndexedTransactionId)
  | .index call =>
    ∀ w ∈ db.walletById call.walletId, w.viewingKey = key →
      if w.wantedStartIndex < w.firstIndexedTransactionId then LimitScans env w call.batch db
      else w.lastIndexedTransactionId < call.maxTransactionId →
        w.lastIndexedTransactionId + 1 < 2 ^ 63

instance LimitScans.decidable (env : WalletEnv) (wallet : WalletRow) (batch : NonZeroUsize)
    (db : WalletDb) : Decidable (LimitScans env wallet batch db) :=
  inferInstanceAs (Decidable (Sql.asI32 batch.val ≠ 0 ∨ ∀ t ∈ db.transactions,
    env.isRelevant wallet.viewingKey t →
      ¬ (wallet.wantedStartIndex ≤ t.id ∧ t.id < wallet.firstIndexedTransactionId)))

instance ScanStep.decidable (env : WalletEnv) (key : ViewingKey) (db : WalletDb) :
    ∀ input, Decidable (ScanStep env key db input)
  | .connect _ connected startIndex _ _ => inferInstanceAs (Decidable (connected = key →
      db.walletByKey key = none →
        ∀ t ∈ db.transactions, env.isRelevant key t → t.id ≠ startIndex.getD 0))
  | .commit row => inferInstanceAs (Decidable (∀ w ∈ db.walletByKey key, env.isRelevant key row →
      ¬ (w.firstIndexedTransactionId ≤ row.id ∧ row.id ≤ w.lastIndexedTransactionId)))
  | .index call => inferInstanceAs (Decidable (∀ w ∈ db.walletById call.walletId,
      w.viewingKey = key →
        if w.wantedStartIndex < w.firstIndexedTransactionId then LimitScans env w call.batch db
        else w.lastIndexedTransactionId < call.maxTransactionId →
          w.lastIndexedTransactionId + 1 < 2 ^ 63))

def WalletRow.scanned (wallet : WalletRow) (id : Nat) : Prop :=
  wallet.firstIndexedTransactionId ≤ id ∧ id ≤ wallet.lastIndexedTransactionId

/-- Between its cursors the wallet has found everything. -/
structure Covered (env : WalletEnv) (db : WalletDb) (wallet : WalletRow) : Prop where
  cursors : wallet.firstIndexedTransactionId ≤ wallet.lastIndexedTransactionId
  holds : Holds env db wallet (WalletRow.scanned wallet)

structure ScanInvariant (env : WalletEnv) (key : ViewingKey) (db : WalletDb) : Prop where
  tables : WalletTables env db
  covered : ∀ wallet, db.walletByKey key = some wallet → Covered env db wallet

variable {env : WalletEnv} {db after : WalletDb} {wallet : WalletRow}
  {relevant : List TransactionRow} {published : Bool}

theorem Holds.extend {low high : Nat} {before inside : Nat → Prop}
    (holds : Holds env db wallet before)
    (inserted : Inserted env wallet relevant db after published)
    (covers : Covers env wallet.viewingKey db low high relevant)
    (union : ∀ n, inside n ↔ before n ∨ (low ≤ n ∧ n < high)) : Holds env after wallet inside := by
  intro id
  rw [inserted.rows, inserted.transactions, mem_append, holds id]
  constructor
  · rintro (⟨t, stored, same, keep, old⟩ | new)
    · exact ⟨t, stored, same, keep, (union t.id).mpr (.inl old)⟩
    · obtain ⟨t, member, row_eq⟩ := mem_map.mp new
      obtain ⟨stored, keep, new⟩ := (covers t).mp member
      exact ⟨t, stored, (RelevantRow.mk.inj row_eq).2, keep, (union t.id).mpr (.inr new)⟩
  · rintro ⟨t, stored, same, keep, within⟩
    rcases (union t.id).mp within with old | new
    · exact .inl ⟨t, stored, same, keep, old⟩
    · exact .inr (mem_map.mpr ⟨t, (covers t).mpr ⟨stored, keep, new⟩, by rw [same]⟩)

theorem Holds.frame {other : WalletRow} {inside : Nat → Prop} (holds : Holds env db wallet inside)
    (inserted : Inserted env other relevant db after published) (different : wallet.id ≠ other.id) :
    Holds env after wallet inside := by
  intro id
  rw [inserted.rows, inserted.transactions, mem_append, ← holds id]
  simp [Ne.symm different]

theorem Covered.congr {moved : WalletRow} (covered : Covered env db wallet)
    (id : moved.id = wallet.id) (key : moved.viewingKey = wallet.viewingKey)
    (first : moved.firstIndexedTransactionId = wallet.firstIndexedTransactionId)
    (last : moved.lastIndexedTransactionId = wallet.lastIndexedTransactionId)
    (transactions : after.transactions = db.transactions)
    (relevant : after.relevantTransactions = db.relevantTransactions) :
    Covered env after moved := by
  obtain ⟨cursors, holds⟩ := covered
  refine ⟨by omega, fun n => ?_⟩
  rw [id, key, transactions, relevant, holds n]
  simp only [WalletRow.scanned, first, last]

theorem Covered.backward {batch : NonZeroUsize} {first : Nat} (covered : Covered env db wallet)
    (effect : BackwardEffect env wallet batch db after published first relevant)
    (scans : LimitScans env wallet batch db) : Covered env after (moveFirst first wallet) := by
  have high := effect.high
  have cursors := covered.cursors
  refine ⟨high.le.trans cursors, covered.holds.extend effect.inserted (effect.covers scans) ?_⟩
  intro n
  simp only [WalletRow.scanned, moveFirst]
  omega

theorem Covered.forward {last : Nat} (covered : Covered env db wallet)
    (effect : ForwardEffect env wallet db after published last relevant)
    (fits : wallet.lastIndexedTransactionId + 1 < 2 ^ 63) :
    Covered env after (moveLast last wallet) := by
  obtain ⟨further, covers⟩ := effect.covers fits
  have cursors := covered.cursors
  refine ⟨cursors.trans further.le, covered.holds.extend effect.inserted covers ?_⟩
  intro n
  simp only [WalletRow.scanned, moveLast]
  omega

namespace ScanInvariant

variable {key : ViewingKey} (invariant : ScanInvariant env key db)

include invariant

theorem connect {id : Uuid} {connected : ViewingKey} {startIndex : Option Nat} {now : Int}
    {session : SessionId}
    (allowed : ScanStep env key db (.connect id connected startIndex now session))
    (success : connectWallet id connected startIndex now session db = .ok after) :
    ScanInvariant env key after := by
  refine ⟨invariant.tables.connectWallet_kept success, fun moved found => ?_⟩
  rcases (connectWallet_success success).2 with ⟨_, _, rfl⟩ | ⟨missing, fresh, rfl⟩
  · obtain ⟨old, old_found, rfl⟩ := Table.lookup_update_some found (fun _ => rfl)
    refine (invariant.covered old old_found).congr ?_ ?_ ?_ ?_ rfl rfl <;> split <;> rfl
  · rw [WalletDb.walletByKey, Table.lookup_append_singleton] at found
    rcases Option.or_eq_some_iff.mp found with old_found | ⟨none_before, new_found⟩
    · exact (invariant.covered moved old_found).congr rfl rfl rfl rfl rfl rfl
    · split at new_found
      next same =>
        cases new_found
        have same : connected = key := same
        refine ⟨le_refl _, fun n => ⟨fun member => ?_, ?_⟩⟩
        · obtain ⟨w, w_member, w_id, _⟩ := invariant.tables.sound _ member
          exact absurd w_id (fresh w w_member)
        · rintro ⟨t, stored, _, keep, low, high⟩
          simp only [newWallet, same] at keep low high
          exact absurd (le_antisymm high low) (allowed same none_before t stored keep)
      next => cases new_found

theorem commit {row : TransactionRow} (allowed : ScanStep env key db (.commit row)) :
    ScanInvariant env key (commitTransaction row db) := by
  refine ⟨invariant.tables.commitTransaction_kept row, ?_⟩
  rcases commitTransaction_cases row db with refused | ⟨_, _, committed⟩
  · rw [refused]
    exact invariant.covered
  · rw [committed]
    intro w found
    obtain ⟨cursors, holds⟩ := invariant.covered w found
    have same_key := (Table.lookup_some found).2
    refine ⟨cursors, fun n => (holds n).trans ⟨?_, ?_⟩⟩
    · rintro ⟨t, stored, rest⟩
      exact ⟨t, mem_append_left _ stored, rest⟩
    · rintro ⟨t, member, same, keep, within⟩
      rcases mem_append.mp member with stored | new
      · exact ⟨t, stored, same, keep, within⟩
      · cases mem_singleton.mp new
        rw [same_key] at keep
        exact absurd within (allowed w found keep)

/-- An indexing step moves the row of one wallet. The other wallets keep their
rows, and that one has to be covered anew. -/
theorem moved_covered {κ : Type} [DecidableEq κ] {column : WalletRow → κ}
    {f : WalletRow → WalletRow} {moved : WalletRow} (unique : (db.wallets.map column).Nodup)
    (member : wallet ∈ db.wallets)
    (wallets : after.wallets = Table.update column (column wallet) f db.wallets)
    (inserted : Inserted env wallet relevant db after published)
    (found : after.walletByKey key = some moved) (key_same : ∀ w, (f w).viewingKey = w.viewingKey)
    (own : wallet.viewingKey = key → Covered env db wallet → Covered env after (f wallet)) :
    Covered env after moved := by
  rw [WalletDb.walletByKey, wallets] at found
  obtain ⟨old, old_found, rfl⟩ := Table.lookup_update_some found key_same
  have covered := invariant.covered old old_found
  obtain ⟨old_member, old_key⟩ := Table.lookup_some old_found
  split
  next same =>
    cases inj_on_of_nodup_map unique old_member member same
    exact own old_key covered
  next different =>
    refine ⟨covered.cursors, covered.holds.frame inserted fun same => different ?_⟩
    rw [inj_on_of_nodup_map invariant.tables.ids old_member member same]

theorem index {call : IndexCall} (allowed : ScanStep env key db (.index call))
    (success : env.indexWallet call db = .ok (after, published)) : ScanInvariant env key after := by
  have tables := invariant.tables
  refine ⟨tables.indexWallet_kept success, fun moved found => ?_⟩
  rcases indexWallet_success success with ⟨rfl, _⟩ | ⟨wallet, byId, arm⟩
  · exact invariant.covered moved found
  · have member := (Table.lookup_some byId).1
    have step := allowed wallet byId
    rcases arm with ⟨gap, scanned⟩ | ⟨closed, behind, scanned⟩
    · obtain ⟨first, relevant, effect⟩ :=
        indexBackward_effects tables.ordered gap (tables.columns wallet member).2.1 scanned
      refine invariant.moved_covered tables.ids member effect.wallets effect.inserted found
        (fun _ => rfl) fun same covered => ?_
      have scans := step same
      rw [if_pos gap] at scans
      exact covered.backward effect scans
    · rcases indexForward_effects tables.ordered (tables.walletByKey_of_mem member) scanned with
        ⟨rfl, _⟩ | ⟨last, relevant, effect⟩
      · exact invariant.covered moved found
      · refine invariant.moved_covered tables.keys member effect.wallets effect.inserted found
          (fun _ => rfl) fun same covered => ?_
        have fits := step same
        rw [if_neg (not_lt.mpr closed)] at fits
        exact covered.forward effect (fits behind)

theorem step (input : WalletInput) (allowed : ScanStep env key db input) :
    ScanInvariant env key (walletStep env db input) := by
  cases input with
  | connect id connected startIndex now session =>
    simp only [walletStep]
    split
    next connected => exact invariant.connect allowed connected
    next => exact invariant
  | commit row => exact invariant.commit allowed
  | index call =>
    simp only [walletStep]
    split
    next indexed => exact invariant.index allowed indexed
    next => exact invariant

end ScanInvariant

theorem scanInvariant_empty (env : WalletEnv) (key : ViewingKey) :
    ScanInvariant env key WalletDb.empty :=
  ⟨walletTables_empty env, nofun⟩

/-- In every run whose steps meet `ScanStep`, a wallet with nothing left to scan
has exactly the committed relevant transactions from its wanted start on, each
once. -/
theorem complete_scan_exact (env : WalletEnv) (key : ViewingKey) (inputs : List WalletInput)
    (guarded : Guarded (walletStep env) (ScanStep env key) WalletDb.empty inputs)
    (wallet : WalletRow)
    (found : (run (walletStep env) WalletDb.empty inputs).walletByKey key = some wallet)
    (complete : ScanComplete (run (walletStep env) WalletDb.empty inputs) wallet) :
    Holds env (run (walletStep env) WalletDb.empty inputs) wallet
        (fun id => wallet.wantedStartIndex ≤ id) ∧
      (run (walletStep env) WalletDb.empty inputs).relevantTransactions.Nodup := by
  have keep : ∀ db input, ScanInvariant env key db → ScanStep env key db input →
      ScanInvariant env key (walletStep env db input) :=
    fun _ input invariant allowed => invariant.step input allowed
  have invariant := run_invariant keep WalletDb.empty inputs (scanInvariant_empty env key) guarded
  obtain ⟨_, holds⟩ := invariant.covered wallet found
  have bounds := invariant.tables.columns wallet (Table.lookup_some found).1
  refine ⟨fun id => (holds id).trans ⟨?_, ?_⟩, invariant.tables.relevant⟩
  · rintro ⟨t, stored, same, keep, low, _⟩
    exact ⟨t, stored, same, keep, bounds.1.trans low⟩
  · rintro ⟨t, stored, same, keep, low⟩
    exact ⟨t, stored, same, keep, complete.1.trans low,
      complete.2 t stored (Bool.and_eq_true_iff.mp keep).1⟩

/-- A wallet that connects from 2 and later from 0, around three commits. -/
def sampleScan : List WalletInput :=
  [.commit (sampleTransaction 1 [7] 0 1), .commit (sampleTransaction 2 [8] 1 2),
    .connect 1 7 (some 2) 0 1, .commit (sampleTransaction 3 [7] 2 3), .index sampleCall,
    .connect 1 7 (some 0) 1 2, .index sampleCall, .index sampleCall]

theorem complete_scan_exact_sample :
    let db := run (walletStep sampleEnv) WalletDb.empty sampleScan
    let wallet : WalletRow := ⟨1, 7, 0, 0, 3, 1, some 2⟩
    db.walletByKey 7 = some wallet ∧ ScanComplete db wallet ∧
      db.relevantTransactions = [⟨1, 3⟩, ⟨1, 1⟩] ∧
      Holds sampleEnv db wallet (fun id => wallet.wantedStartIndex ≤ id) :=
  have found : (run (walletStep sampleEnv) WalletDb.empty sampleScan).walletByKey 7 =
      some ⟨1, 7, 0, 0, 3, 1, some 2⟩ := by decide +kernel
  have complete : ScanComplete (run (walletStep sampleEnv) WalletDb.empty sampleScan)
      ⟨1, 7, 0, 0, 3, 1, some 2⟩ := ⟨by decide +kernel, by decide +kernel⟩
  ⟨found, complete, by decide +kernel,
    (complete_scan_exact sampleEnv 7 sampleScan (by decide +kernel) _ found complete).1⟩

/-- A committed transaction for the key, then a first connect that starts at its
id. -/
def missedStart : List WalletInput :=
  [.commit (sampleTransaction 1 [7] 0 1), .connect 1 7 (some 1) 0 1, .index sampleCall]

/-- The transaction at the start index is never scanned: the wallet has nothing
left to scan and no relevant row. -/
theorem start_transaction_missed :
    let db := run (walletStep sampleEnv) WalletDb.empty missedStart
    let wallet : WalletRow := ⟨1, 7, 1, 1, 1, 0, some 1⟩
    db.walletByKey 7 = some wallet ∧ ScanComplete db wallet ∧ db.relevantTransactions = [] ∧
      ¬ Holds sampleEnv db wallet (fun id => wallet.wantedStartIndex ≤ id) := by
  refine ⟨by decide +kernel, ⟨by decide +kernel, by decide +kernel⟩, by decide +kernel, fun holds => ?_⟩
  have missed := (holds 1).mpr
    ⟨sampleTransaction 1 [7] 0 1, by decide +kernel, rfl, by decide +kernel, by decide +kernel⟩
  exact absurd missed (by decide +kernel)

end MidnightIndexer.Guarantees
