import MidnightIndexer.Source.WalletReplicas

/-!
# The ranges that wallet scans read

The cursors of a wallet are moved by the holder of its lock only, so a scan starts next to
what earlier scans have read even if a connect has lowered the wanted start in between. The
exception is a forward scan at the last id of the column: its start is cast to the lowest
one, and the cursor falls back.
-/

namespace MidnightIndexer.Guarantees.WalletRanges

open Lib List Source ReplicaState Table RelevantRow

/-- The ids from `low` up to but without `high`. -/
structure Scan where
  walletId : Uuid
  low : Int
  high : Int
  deriving DecidableEq

def Scan.Disjoint (a b : Scan) : Prop := a.walletId = b.walletId → a.high ≤ b.low ∨ b.high ≤ a.low

def scanOf (walletId : Uuid) (flight : Flight) (page : List TransactionRow) : Scan where
  walletId := walletId
  low := if flight.backward then flight.lowest page
    else Sql.asI64 (flight.wallet.lastIndexedTransactionId + 1)
  high := if flight.backward then flight.wallet.firstIndexedTransactionId
    else flight.highest page + 1

variable (env : WalletEnv)

def scans (s : ReplicaState) : ReplicaInput → List Scan
  | .save walletId =>
    match s.pageOf walletId with
    | none => []
    | some (flight, page) =>
      match env.savePage flight page s.db with
      | .error _ => []
      | .ok _ => [scanOf walletId flight page]
  | _ => []

def inserts (s : ReplicaState) : ReplicaInput → List RelevantRow
  | .save walletId =>
    match s.pageOf walletId with
    | none => []
    | some (flight, page) =>
      match env.selectRelevant flight.wallet.viewingKey page with
      | .error _ => []
      | .ok relevant => relevant.map fun t => ⟨walletId, t.id⟩
  | _ => []

/-- Every wallet is kept, and its cursors have moved outwards if at all. -/
def CursorsMove (db after : WalletDb) : Prop :=
  ∀ w ∈ db.wallets, ∃ w' ∈ after.wallets, w'.id = w.id ∧
    w'.firstIndexedTransactionId ≤ w.firstIndexedTransactionId ∧
    w.lastIndexedTransactionId ≤ w'.lastIndexedTransactionId

abbrev after (inputs : List ReplicaInput) : ReplicaState :=
  run (replicaStep env) ReplicaState.empty inputs

/-- The ranges of the run are disjoint, no row is inserted twice, and between any two
moments the cursors move outwards. -/
structure DisjointScans (inputs : List ReplicaInput) : Prop where
  ranges : (outputs (scans env) (replicaStep env) ReplicaState.empty inputs).Pairwise Scan.Disjoint
  rows : (outputs (inserts env) (replicaStep env) ReplicaState.empty inputs).Nodup
  cursors : ∀ first middle last, inputs = first ++ middle ++ last →
    CursorsMove (after env first).db (after env (first ++ middle)).db

/-- A forward scan that is saved did not start at the last id of the column. -/
def fits (s : ReplicaState) : ReplicaInput → Bool
  | .save walletId =>
    match s.pageOf walletId with
    | none => true
    | some (flight, page) =>
      flight.backward || decide (flight.wallet.lastIndexedTransactionId + 1 < 2 ^ 63) ||
        !(env.selectRelevant flight.wallet.viewingKey page).isOk
  | _ => true

def Fits (s : ReplicaState) (input : ReplicaInput) : Prop := fits env s input = true

instance Fits.decidable (s : ReplicaState) (input : ReplicaInput) : Decidable (Fits env s input) :=
  inferInstanceAs (Decidable (fits env s input = true))

variable {env}

theorem CursorsMove.refl (db : WalletDb) : CursorsMove db db :=
  fun w member => ⟨w, member, rfl, le_rfl, le_rfl⟩

theorem CursorsMove.trans {a b c : WalletDb} (first : CursorsMove a b) (second : CursorsMove b c) :
    CursorsMove a c := by
  intro w member
  obtain ⟨w', member', id', first', last'⟩ := first w member
  obtain ⟨w'', member'', id'', first'', last''⟩ := second w' member'
  exact ⟨w'', member'', id''.trans id', first''.trans first', last'.trans last''⟩

/-! ## One save -/

/-- The page lies outside the ids between the cursors, and the moved cursors enclose it. -/
structure Advances (walletId : Uuid) (flight : Flight) (page : List TransactionRow)
    (w : WalletRow) : Prop where
  first : (flight.move page w).firstIndexedTransactionId ≤ w.firstIndexedTransactionId
  last : w.lastIndexedTransactionId ≤ (flight.move page w).lastIndexedTransactionId
  outside : (scanOf walletId flight page).high ≤ w.firstIndexedTransactionId ∨
    w.lastIndexedTransactionId + 1 ≤ (scanOf walletId flight page).low
  enclosed : w.firstIndexedTransactionId ≤ w.lastIndexedTransactionId →
    (flight.move page w).firstIndexedTransactionId ≤ (scanOf walletId flight page).low ∧
      (scanOf walletId flight page).high ≤ (flight.move page w).lastIndexedTransactionId + 1
  ids : ∀ t ∈ page, (scanOf walletId flight page).low ≤ t.id ∧
    t.id < (scanOf walletId flight page).high

variable {walletId : Uuid} {flight : Flight} {page relevant : List TransactionRow} {db : WalletDb}
  {w : WalletRow} {s : ReplicaState} {input : ReplicaInput} {rows : List RelevantRow}
  {inputs : List ReplicaInput}

theorem advances (read : PageRead flight page db) (same : SameCursors flight.wallet w)
    (fit : flight.backward = true ∨ flight.wallet.lastIndexedTransactionId + 1 < 2 ^ 63) :
    Advances walletId flight page w := by
  have same_first := same.first
  have same_last := same.last
  cases direction : flight.backward with
  | true =>
    obtain ⟨_, below, inside⟩ := read.gap direction
    have low : (scanOf walletId flight page).low = flight.lowest page := if_pos direction
    have high : (scanOf walletId flight page).high = flight.wallet.firstIndexedTransactionId :=
      if_pos direction
    have first : (flight.move page w).firstIndexedTransactionId = flight.lowest page := by
      rw [Flight.move, if_pos direction]
      rfl
    have last : (flight.move page w).lastIndexedTransactionId = w.lastIndexedTransactionId := by
      rw [Flight.move, if_pos direction]
      rfl
    refine ⟨by omega, by omega, by omega, fun _ => by omega, fun t member => ?_⟩
    have bounds := inside t member
    omega
  | false =>
    have forward : ¬ flight.backward = true := by
      rw [direction]
      exact Bool.false_ne_true
    have small := fit.resolve_left forward
    obtain ⟨⟨top, top_member, top_id⟩, above⟩ := read.above direction
    have further := above small top top_member
    have low : (scanOf walletId flight page).low =
        (flight.wallet.lastIndexedTransactionId + 1 : Nat) := by
      rw [← Sql.asI64_of_lt small]
      exact if_neg forward
    have high : (scanOf walletId flight page).high = flight.highest page + 1 := if_neg forward
    have first : (flight.move page w).firstIndexedTransactionId = w.firstIndexedTransactionId := by
      rw [Flight.move, if_neg forward]
      rfl
    have last : (flight.move page w).lastIndexedTransactionId = flight.highest page := by
      rw [Flight.move, if_neg forward]
      rfl
    refine ⟨by omega, by omega, by omega, fun _ => by omega, fun t member => ?_⟩
    have bounds := above small t member
    omega

section

variable {s : ReplicaState} {walletId : Uuid} {flight : Flight} {page : List TransactionRow}

/-- The row under the lock, and how a save that fits moves it. -/
theorem save_advances (locked : Locked env s) (found : s.pageOf walletId = some (flight, page))
    (fit : Fits env s (.save walletId))
    (selected : env.selectRelevant flight.wallet.viewingKey page = .ok relevant) :
    ∃ w ∈ s.db.wallets, w.id = walletId ∧ Advances walletId flight page w := by
  obtain ⟨_, queried, held⟩ := locked.pageOf found
  obtain ⟨w, row, same⟩ := held.row
  obtain ⟨member, own⟩ := lookup_some row
  refine ⟨w, member, own, advances (held.read page queried) same ?_⟩
  simpa [Fits, fits, found, selected, Except.isOk, Except.toBool] using fit

theorem moved_rows (locked : Locked env s) (member : w ∈ s.db.wallets) (own : w.id = walletId)
    {moved : WalletRow}
    (listed : moved ∈ update WalletRow.id walletId (flight.move page) s.db.wallets) :
    moved = flight.move page w ∨ moved ∈ s.db.wallets ∧ moved.id ≠ walletId := by
  obtain ⟨row, row_member, rfl⟩ := mem_update.mp listed
  split
  next hit =>
    rw [inj_on_of_nodup_map locked.tables.ids row_member member (hit.trans own.symm)]
    exact .inl rfl
  next other => exact .inr ⟨row_member, other⟩

theorem mem_moved (member : w ∈ s.db.wallets) (own : w.id = walletId) :
    flight.move page w ∈ update WalletRow.id walletId (flight.move page) s.db.wallets :=
  mem_update.mpr ⟨w, member, (if_pos own).symm⟩

end

/-! ## What every step keeps -/

theorem connectWallet_cursorsMove {id : Uuid} {key : ViewingKey} {startIndex : Option Nat}
    {now : Int} {session : SessionId} {connected : WalletDb} (tables : WalletTables env db)
    (success : connectWallet id key startIndex now session db = .ok connected) :
    CursorsMove db connected := by
  intro w member
  obtain ⟨w', found, same⟩ := connectWallet_rows success (lookup_of_mem tables.ids member)
  exact ⟨w', (lookup_some found).1, same.id, same.first.le, same.last.ge⟩

theorem cursorsMove_step (locked : Locked env s) (fit : Fits env s input) :
    CursorsMove s.db (replicaStep env s input).db := by
  rcases replicaStep_db env s input with same | ⟨_, _, _, _, _, success⟩ | ⟨row, _, committed⟩ |
    ⟨walletId, flight, page, rfl, found, success⟩
  · rw [same]
    exact CursorsMove.refl _
  · exact connectWallet_cursorsMove locked.tables success
  · rw [committed]
    exact fun w member => ⟨w, member, rfl, le_rfl, le_rfl⟩
  · obtain ⟨relevant, selected, saved⟩ := locked.saved found success
    obtain ⟨w, member, own, moves⟩ := save_advances locked found fit selected
    rw [saved]
    intro row listed
    refine ⟨_, mem_update.mpr ⟨row, listed, rfl⟩, ?_⟩
    split
    next hit =>
      rw [inj_on_of_nodup_map locked.tables.ids listed member (hit.trans own.symm)]
      exact ⟨Flight.move_id flight page w, moves.first, moves.last⟩
    next => exact ⟨rfl, le_rfl, le_rfl⟩

/-- The rows of every wallet lie between its cursors. -/
structure Between (db : WalletDb) : Prop where
  cursors : ∀ w ∈ db.wallets, w.firstIndexedTransactionId ≤ w.lastIndexedTransactionId
  rows : ∀ r ∈ db.relevantTransactions, ∀ w ∈ db.wallets, w.id = r.walletId →
    w.firstIndexedTransactionId ≤ r.transactionId ∧ r.transactionId ≤ w.lastIndexedTransactionId

theorem Between.connect {connected : WalletDb} (between : Between db)
    (tables : WalletTables env db) {id : Uuid} {key : ViewingKey} {startIndex : Option Nat}
    {now : Int} {session : SessionId}
    (success : connectWallet id key startIndex now session db = .ok connected) :
    Between connected := by
  rcases (connectWallet_success success).2 with ⟨_, _, rfl⟩ | ⟨_, fresh, rfl⟩
  · have cursors : ∀ w' ∈ update WalletRow.viewingKey key
        (reconnect (startIndex.getD 0) now session) db.wallets, ∃ w ∈ db.wallets,
        w.id = w'.id ∧ w'.firstIndexedTransactionId = w.firstIndexedTransactionId ∧
          w'.lastIndexedTransactionId = w.lastIndexedTransactionId := by
      intro w' member
      obtain ⟨w, w_member, rfl⟩ := mem_update.mp member
      refine ⟨w, w_member, ?_⟩
      split <;> exact ⟨rfl, rfl, rfl⟩
    constructor
    · intro w' member
      obtain ⟨w, w_member, _, first, last⟩ := cursors w' member
      rw [first, last]
      exact between.cursors w w_member
    · intro r stored w' member own
      obtain ⟨w, w_member, id_eq, first, last⟩ := cursors w' member
      rw [first, last]
      exact between.rows r stored w w_member (id_eq.trans own)
  · constructor
    · intro w member
      rcases mem_append.mp member with old | new
      · exact between.cursors w old
      · rw [mem_singleton.mp new]
        exact le_rfl
    · intro r stored w member own
      rcases mem_append.mp member with old | new
      · exact between.rows r stored w old own
      · -- A new wallet has no rows.
        obtain ⟨owner, owner_member, owner_id, _⟩ := tables.sound r stored
        rw [mem_singleton.mp new] at own
        exact absurd (owner_id.trans own.symm) (fresh owner owner_member)

theorem Between.save (between : Between s.db) (locked : Locked env s) (member : w ∈ s.db.wallets)
    (own : w.id = walletId) (moves : Advances walletId flight page w)
    (subset : ∀ t ∈ relevant, t ∈ page) : Between { s.db with
      wallets := update WalletRow.id walletId (flight.move page) s.db.wallets
      relevantTransactions := s.db.relevantTransactions ++
        relevant.map fun t => RelevantRow.mk walletId t.id } := by
  have ordered := between.cursors w member
  have first := moves.first
  have last := moves.last
  constructor
  · intro moved listed
    rcases moved_rows locked member own listed with rfl | ⟨old, _⟩
    · omega
    · exact between.cursors moved old
  · intro r stored moved listed id_eq
    rcases moved_rows locked member own listed with rfl | ⟨old, other⟩
    · rw [Flight.move_id] at id_eq
      rcases mem_append.mp stored with before | new
      · have inside := between.rows r before w member id_eq
        omega
      · obtain ⟨t, t_member, rfl⟩ := mem_map.mp new
        have bounds := moves.ids t (subset t t_member)
        have enclosed := moves.enclosed ordered
        dsimp only
        omega
    · rcases mem_append.mp stored with before | new
      · exact between.rows r before moved old id_eq
      · obtain ⟨t, _, rfl⟩ := mem_map.mp new
        exact absurd id_eq other

variable (locked : Locked env s) (found : s.pageOf walletId = some (flight, page))
  (selected : env.selectRelevant flight.wallet.viewingKey page = .ok relevant)

include locked found selected in
theorem subset_page : relevant.Sublist page := by
  obtain ⟨_, queried, held⟩ := locked.pageOf found
  rw [env.selectRelevant_success selected fun t listed =>
    ((held.read page queried).stored t listed).2]
  exact filter_sublist

theorem Between.step (between : Between s.db) (locked : Locked env s) (fit : Fits env s input) :
    Between (replicaStep env s input).db := by
  rcases replicaStep_db env s input with same | ⟨_, _, _, _, _, success⟩ | ⟨row, _, committed⟩ |
    ⟨walletId, flight, page, rfl, found, success⟩
  · rw [same]
    exact between
  · exact between.connect locked.tables success
  · rw [committed]
    exact ⟨between.cursors, between.rows⟩
  · obtain ⟨relevant, selected, saved⟩ := locked.saved found success
    obtain ⟨w, member, own, moves⟩ := save_advances locked found fit selected
    rw [saved]
    exact between.save locked member own moves fun t listed =>
      (subset_page locked found selected).subset listed

/-! ## The ranges of a run -/

/-- A step that puts out a range has saved its page. -/
theorem scans_cases (env : WalletEnv) (s : ReplicaState) (input : ReplicaInput) :
    scans env s input = [] ∨ ∃ walletId flight page, input = .save walletId ∧
      s.pageOf walletId = some (flight, page) ∧
      env.savePage flight page s.db = .ok (replicaStep env s input).db ∧
      scans env s input = [scanOf walletId flight page] := by
  cases input with
  | save walletId =>
    cases found : s.pageOf walletId with
    | none =>
      left
      simp only [scans, found]
    | some pair =>
      obtain ⟨flight, page⟩ := pair
      cases saved : env.savePage flight page s.db with
      | error _ =>
        left
        simp only [scans, found, saved]
      | ok _ =>
        right
        refine ⟨walletId, flight, page, rfl, found, ?_, ?_⟩
        · simp only [replicaStep, saveStep, found, saved]
          rfl
        · simp only [scans, found, saved]
  | _ => exact .inl rfl

/-- Every range lies between the cursors of its wallet. -/
structure Swept (s : ReplicaState) (ranges : List Scan) : Prop where
  between : Between s.db
  inside : ∀ scan ∈ ranges, ∃ w ∈ s.db.wallets, w.id = scan.walletId ∧
    w.firstIndexedTransactionId ≤ scan.low ∧ scan.high ≤ w.lastIndexedTransactionId + 1
  disjoint : ranges.Pairwise Scan.Disjoint

theorem Swept.step {ranges : List Scan} (swept : Swept s ranges) (locked : Locked env s)
    (fit : Fits env s input) : Swept (replicaStep env s input) (ranges ++ scans env s input) := by
  have moved : ∀ scan ∈ ranges, ∃ w ∈ (replicaStep env s input).db.wallets,
      w.id = scan.walletId ∧ w.firstIndexedTransactionId ≤ scan.low ∧
        scan.high ≤ w.lastIndexedTransactionId + 1 := by
    intro scan member
    obtain ⟨w, w_member, own, low, high⟩ := swept.inside scan member
    obtain ⟨w', w'_member, id_eq, first, last⟩ := cursorsMove_step locked fit w w_member
    exact ⟨w', w'_member, id_eq.trans own, by omega, by omega⟩
  rcases scans_cases env s input with none_out | ⟨walletId, flight, page, rfl, found, success, out⟩
  · rw [none_out, append_nil]
    exact ⟨swept.between.step locked fit, moved, swept.disjoint⟩
  · obtain ⟨relevant, selected, saved⟩ := locked.saved found success
    obtain ⟨w, member, own, moves⟩ := save_advances locked found fit selected
    rw [out]
    refine ⟨swept.between.step locked fit, ?_, ?_⟩
    · intro scan listed
      rcases mem_append.mp listed with old | new
      · exact moved scan old
      · rw [mem_singleton.mp new, saved]
        refine ⟨_, mem_moved member own, ?_, moves.enclosed (swept.between.cursors w member)⟩
        rw [Flight.move_id, own]
        rfl
    · rw [pairwise_append]
      refine ⟨swept.disjoint, pairwise_singleton _ _, ?_⟩
      intro scan old new new_eq same
      rw [mem_singleton.mp new_eq] at same ⊢
      obtain ⟨w', w'_member, own', low, high⟩ := swept.inside scan old
      have owner : w' = w := inj_on_of_nodup_map locked.tables.ids w'_member member
        ((own'.trans same).trans own.symm)
      rw [owner] at low high
      have outside := moves.outside
      omega

/-! ## The rows of a run -/

/-- Rows outside the cursors are new. -/
theorem insert_fits (locked : Locked env s) (between : Between s.db)
    (found : s.pageOf walletId = some (flight, page)) (fit : Fits env s (.save walletId))
    (selected : env.selectRelevant flight.wallet.viewingKey page = .ok relevant) :
    (s.db.relevantTransactions ++ relevant.map fun t => mk walletId t.id).Nodup := by
  obtain ⟨_, queried, held⟩ := locked.pageOf found
  obtain ⟨w, member, own, moves⟩ := save_advances locked found fit selected
  have part := subset_page locked found selected
  rw [nodup_append]
  refine ⟨locked.tables.relevant, ?_, ?_⟩
  · have ids := (held.read page queried).unique.sublist (part.map TransactionRow.id)
    rw [Nodup, pairwise_map] at ids ⊢
    exact ids.imp fun different same => different (congrArg transactionId same)
  · intro r old new listed same
    obtain ⟨t, t_member, rfl⟩ := mem_map.mp listed
    rw [same] at old
    have inside := between.rows _ old w member own
    have bounds := moves.ids t (part.subset t_member)
    have outside := moves.outside
    dsimp only at inside
    omega

include locked found selected in
/-- A save whose check succeeds is refused only for a row that is there already. -/
theorem savePage_of_nodup (unique : (s.db.relevantTransactions ++
      relevant.map fun t => mk walletId t.id).Nodup) :
    (replicaStep env s (.save walletId)).db = { s.db with
      wallets := update WalletRow.id walletId (flight.move page) s.db.wallets
      relevantTransactions := s.db.relevantTransactions ++
        relevant.map fun t => mk walletId t.id } := by
  obtain ⟨_, queried, held⟩ := locked.pageOf found
  have saved := savePage_eq locked.tables held queried
  rw [selected] at saved
  simp only [bind, Except.bind, insertRelevant, if_pos unique, Except.mapError] at saved
  simp only [replicaStep, saveStep, found, saved]
  rfl

theorem inserts_cases (env : WalletEnv) (s : ReplicaState) (input : ReplicaInput) :
    inserts env s input = [] ∨ ∃ walletId flight page relevant, input = .save walletId ∧
      s.pageOf walletId = some (flight, page) ∧
      env.selectRelevant flight.wallet.viewingKey page = .ok relevant ∧
      inserts env s input = relevant.map fun t => ⟨walletId, t.id⟩ := by
  cases input with
  | save walletId =>
    cases found : s.pageOf walletId with
    | none =>
      left
      simp only [inserts, found]
    | some pair =>
      obtain ⟨flight, page⟩ := pair
      cases selected : env.selectRelevant flight.wallet.viewingKey page with
      | error _ =>
        left
        simp only [inserts, found, selected]
      | ok relevant =>
        refine .inr ⟨walletId, flight, page, relevant, rfl, found, selected, ?_⟩
        simp only [inserts, found, selected]
  | _ => exact .inl rfl

/-- A step that fails leaves the table as it is, whatever it was to insert. -/
theorem rows_step (locked : Locked env s) (input : ReplicaInput) :
    (replicaStep env s input).db.relevantTransactions = s.db.relevantTransactions ∨
      (replicaStep env s input).db.relevantTransactions =
        s.db.relevantTransactions ++ inserts env s input := by
  rcases replicaStep_db env s input with same | ⟨_, _, _, _, _, success⟩ | ⟨_, _, committed⟩ |
    ⟨walletId, flight, page, rfl, found, success⟩
  · exact .inl (by rw [same])
  · exact .inl (connectWallet_frame success).2
  · exact .inl (by rw [committed])
  · obtain ⟨relevant, selected, saved⟩ := locked.saved found success
    right
    simp only [saved, inserts, found, selected]

/-- The rows that were to be inserted are the rows of the table. -/
theorem inserts_step (locked : Locked env s) (between : Between s.db) (fit : Fits env s input)
    (complete : s.db.relevantTransactions = rows) :
    (replicaStep env s input).db.relevantTransactions = rows ++ inserts env s input := by
  rw [← complete]
  rcases inserts_cases env s input with none_out |
    ⟨walletId, flight, page, relevant, rfl, found, selected, out⟩
  · have same := rows_step locked input
    rwa [none_out, append_nil, or_self] at *
  · rw [out, savePage_of_nodup locked found selected
      (insert_fits locked between found fit selected)]

/-- Every row of the table was to be inserted, whether steps fit or not. -/
theorem mem_inserts_step (locked : Locked env s)
    (known : ∀ r ∈ s.db.relevantTransactions, r ∈ rows) :
    ∀ r ∈ (replicaStep env s input).db.relevantTransactions, r ∈ rows ++ inserts env s input := by
  intro r stored
  rcases rows_step locked input with same | added
  · rw [same] at stored
    exact mem_append_left _ (known r stored)
  · rw [added] at stored
    rcases mem_append.mp stored with old | new
    · exact mem_append_left _ (known r old)
    · exact mem_append_right _ new

/-! ## Whole runs -/

theorem locked_after (env : WalletEnv) (inputs : List ReplicaInput) :
    Locked env (after env inputs) := locked_run env inputs

theorem between_empty : Between WalletDb.empty := ⟨by simp [WalletDb.empty], by simp [WalletDb.empty]⟩

theorem cursorsMove_run (locked : Locked env s)
    (guarded : Guarded (replicaStep env) (Fits env) s inputs) :
    CursorsMove s.db (run (replicaStep env) s inputs).db := by
  induction inputs generalizing s with
  | nil => exact CursorsMove.refl s.db
  | cons input rest ih =>
    exact (cursorsMove_step locked guarded.1).trans (ih (locked.step input) guarded.2)

theorem disjointScans_of_guarded (guarded : Guarded (replicaStep env) (Fits env) empty inputs) :
    DisjointScans env inputs := by
  have locked : Locked env empty := locked_after env []
  have swept := run_outputs_invariant (fun s ranges => Locked env s ∧ Swept s ranges)
    (fun s ranges input holds fit => ⟨holds.1.step input, holds.2.step holds.1 fit⟩)
    empty inputs
    ⟨locked, between_empty, by simp, Pairwise.nil⟩ guarded
  have rows := run_outputs_invariant
    (fun s rows => Locked env s ∧ Between s.db ∧ s.db.relevantTransactions = rows)
    (fun s rows input holds fit => ⟨holds.1.step input, holds.2.1.step holds.1 fit,
      inserts_step holds.1 holds.2.1 fit holds.2.2⟩)
    empty inputs ⟨locked, between_empty, rfl⟩ guarded
  refine ⟨swept.2.disjoint, ?_, ?_⟩
  · rw [← rows.2.2]
    exact rows.1.tables.relevant
  · rintro first middle last rfl
    rw [append_assoc] at guarded
    rw [after, after, run_append]
    exact cursorsMove_run (locked_after env first) guarded.take.2.take.1

theorem mem_inserts_run (env : WalletEnv) (inputs : List ReplicaInput) :
    ∀ r ∈ (after env inputs).db.relevantTransactions,
      r ∈ outputs (inserts env) (replicaStep env) empty inputs := by
  have always : Guarded (replicaStep env) (fun _ _ => True) empty inputs :=
    Guarded.of_forall (fun _ _ => trivial) _ _
  exact (run_outputs_invariant
    (fun s rows => Locked env s ∧ ∀ r ∈ s.db.relevantTransactions, r ∈ rows)
    (fun s rows input holds _ => ⟨holds.1.step input, mem_inserts_step holds.1 holds.2⟩)
    empty inputs
    ⟨locked_after env [], by simp [empty, WalletDb.empty]⟩ always).2

/-- No transaction has the last id of the column. -/
def BelowLastId (inputs : List ReplicaInput) : Prop :=
  ∀ row, ReplicaInput.commit row ∈ inputs → row.id + 1 < 2 ^ 63

theorem transactions_below (below : BelowLastId inputs) :
    ∀ t ∈ (after env inputs).db.transactions, t.id + 1 < 2 ^ 63 := by
  have kept : ∀ s, ∀ input ∈ inputs, (Locked env s ∧ ∀ t ∈ s.db.transactions, t.id + 1 < 2 ^ 63) →
      Locked env (replicaStep env s input) ∧
        ∀ t ∈ (replicaStep env s input).db.transactions, t.id + 1 < 2 ^ 63 := by
    intro s input member ⟨locked, bounded⟩
    refine ⟨locked.step input, fun t stored => ?_⟩
    rcases replicaStep_db env s input with same | ⟨_, _, _, _, _, success⟩ |
      ⟨row, rfl, committed⟩ | ⟨walletId, flight, page, rfl, found, success⟩
    · rw [same] at stored
      exact bounded t stored
    · rw [(connectWallet_frame success).1] at stored
      exact bounded t stored
    · rw [committed] at stored
      rcases mem_append.mp stored with old | new
      · exact bounded t old
      · rw [mem_singleton.mp new]
        exact below row member
    · obtain ⟨_, _, saved⟩ := locked.saved found success
      rw [saved] at stored
      exact bounded t stored
  exact (run_keeps_on kept empty ⟨locked_after env [], by simp [empty, WalletDb.empty]⟩).2

/-- A forward scan that is saved at the last id of the column moves the cursor down. -/
theorem fits_of_cursorsMove (locked : Locked env s)
    (bounded : ∀ t ∈ s.db.transactions, t.id + 1 < 2 ^ 63)
    (unique : (s.db.relevantTransactions ++ inserts env s input).Nodup)
    (moves : CursorsMove s.db (replicaStep env s input).db) : Fits env s input := by
  by_contra misfit
  cases input with
  | save walletId =>
    cases found : s.pageOf walletId with
    | none => exact misfit (by simp [Fits, fits, found])
    | some pair =>
      obtain ⟨flight, page⟩ := pair
      cases selected : env.selectRelevant flight.wallet.viewingKey page with
      | error _ =>
        exact misfit (by simp [Fits, fits, found, selected, Except.isOk, Except.toBool])
      | ok relevant =>
        have out : inserts env s (.save walletId) = relevant.map fun t => mk walletId t.id := by
          simp only [inserts, found, selected]
        obtain ⟨_, queried, held⟩ := locked.pageOf found
        obtain ⟨w, row, same⟩ := held.row
        obtain ⟨member, own⟩ := lookup_some row
        rw [out] at unique
        rw [savePage_of_nodup locked found selected unique] at moves
        obtain ⟨moved, listed, id_eq, _, last⟩ := moves w member
        have misfit : flight.backward = false ∧
            ¬ flight.wallet.lastIndexedTransactionId + 1 < 2 ^ 63 := by
          simpa [Fits, fits, found, selected, Except.isOk, Except.toBool] using misfit
        obtain ⟨⟨t, t_member, highest⟩, _⟩ := (held.read page queried).above misfit.1
        have small := bounded t ((held.read page queried).stored t t_member).1
        rcases moved_rows locked member own listed with rfl | ⟨_, other⟩
        · have fallen : (flight.move page w).lastIndexedTransactionId = flight.highest page := by
            rw [Flight.move, misfit.1]
            rfl
          have same_last := same.last
          omega
        · exact other (id_eq.trans own)
  | _ => exact misfit rfl

/-- The ranges of a wallet are disjoint, no row is inserted twice and the cursors move
outwards in every run in which no forward scan is saved at the last id of the column; unless
a transaction has that id, in no other run. -/
theorem disjoint_scans_iff (env : WalletEnv) (inputs : List ReplicaInput) :
    (Guarded (replicaStep env) (Fits env) ReplicaState.empty inputs → DisjointScans env inputs) ∧
      (BelowLastId inputs → DisjointScans env inputs →
        Guarded (replicaStep env) (Fits env) ReplicaState.empty inputs) := by
  refine ⟨disjointScans_of_guarded, fun below sound => Guarded.of_splits ?_⟩
  rintro first input rest rfl
  have locked := locked_after env first
  refine fits_of_cursorsMove locked ?_ ?_ ?_
  · exact transactions_below fun row member => below row (List.mem_append_left _ member)
  · have known := mem_inserts_run env first
    have rows := sound.rows
    rw [outputs_append, outputs, List.nodup_append] at rows
    obtain ⟨_, later, apart⟩ := rows
    rw [List.nodup_append]
    refine ⟨locked.tables.relevant, (List.nodup_append.mp later).1, ?_⟩
    intro r stored new listed
    exact apart r (known r stored) new (List.mem_append_left _ listed)
  · have moves := sound.cursors first [input] rest (by simp)
    rw [after, after, run_append] at moves
    exact moves

/-! ## Connects between the statements of a call -/

def threeCommits : List ReplicaInput :=
  [.commit (sampleTransaction 1 [7] 0 1), .commit (sampleTransaction 2 [7] 1 2),
    .commit (sampleTransaction 3 [7] 2 3)]

/-- The wanted start falls to 0 while a forward scan is under way. -/
def overlapping : List ReplicaInput :=
  threeCommits ++ [.connect 1 7 (some 2) 0 1, .acquire sampleCall, .connect 1 7 none 1 2, .query 1,
    .save 1, .acquire sampleCall, .query 1, .connect 1 7 (some 1) 2 3, .save 1]

theorem disjoint_scans_sample :
    outputs (scans sampleEnv) (replicaStep sampleEnv) ReplicaState.empty overlapping =
        [⟨1, 3, 4⟩, ⟨1, 1, 2⟩] ∧
      (after sampleEnv overlapping).db.relevantTransactions = [⟨1, 3⟩, ⟨1, 1⟩] ∧
      DisjointScans sampleEnv overlapping ∧ BelowLastId overlapping ∧
      Guarded (replicaStep sampleEnv) (Fits sampleEnv) ReplicaState.empty overlapping := by
  have below : BelowLastId overlapping := by
    intro row member
    simp only [overlapping, threeCommits, List.cons_append, List.nil_append, List.mem_cons,
      ReplicaInput.commit.injEq, reduceCtorEq, List.not_mem_nil, or_false] at member
    rcases member with rfl | rfl | rfl <;> decide
  have sound := (disjoint_scans_iff sampleEnv overlapping).1 (by decide +kernel)
  exact ⟨by decide +kernel, by decide +kernel, sound, below,
    (disjoint_scans_iff sampleEnv overlapping).2 below sound⟩

def lastIndex : List ReplicaInput := threeCommits ++ [.connect 1 7 (some (2 ^ 63 - 1)) 0 1]

/-- Its forward scan, and a backward scan after a connect with a lower index. -/
def scanTwice : List ReplicaInput :=
  [.acquire sampleCall, .query 1, .save 1, .connect 1 7 (some 2) 1 2, .acquire sampleCall,
    .query 1, .save 1]

/-- The cursor falls from the last id to 2, and transaction 2 is to be inserted twice. -/
theorem scans_fall_back :
    (after sampleEnv lastIndex).db.wallets.map WalletRow.lastIndexedTransactionId =
        [2 ^ 63 - 1] ∧
      (after sampleEnv (lastIndex ++ scanTwice)).db.wallets.map
        WalletRow.lastIndexedTransactionId = [2] ∧
      outputs (inserts sampleEnv) (replicaStep sampleEnv) ReplicaState.empty
        (lastIndex ++ scanTwice) = [⟨1, 1⟩, ⟨1, 2⟩, ⟨1, 3⟩, ⟨1, 2⟩] ∧
      ¬ DisjointScans sampleEnv (lastIndex ++ scanTwice) := by
  have twice : outputs (inserts sampleEnv) (replicaStep sampleEnv) ReplicaState.empty
      (lastIndex ++ scanTwice) = [⟨1, 1⟩, ⟨1, 2⟩, ⟨1, 3⟩, ⟨1, 2⟩] := by
    decide +kernel
  refine ⟨by decide +kernel, by decide +kernel, twice, fun sound => ?_⟩
  have rows := sound.rows
  rw [twice] at rows
  exact absurd rows (by decide)

end MidnightIndexer.Guarantees.WalletRanges
