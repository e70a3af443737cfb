import MidnightIndexer.Source.RootRepair

/-!
# The repair of root counts: what it changes, what it reports, and its second run

For every stored table, every node store and every window whose keys decode, the repair
raises the roots that are still roots or still whole to their number of occurrences and
leaves every other count alone. Its report is about exactly these changes, and a second
run finds nothing left to do: a raised root has its count, and a culled one is culled
again. The tally of a root and the sum of the increments are `u32`, so both have to fit.
-/

namespace MidnightIndexer.Guarantees.RootRepair

open Lib List Source

variable {Hash Key ε : Type} [DecidableEq Hash]

/-- The root is stored with a positive count or its whole DAG is present. -/
def Restorable (childrenOf : Hash → List Hash) (db : LedgerDb Hash) (root : Hash) : Prop :=
  0 < db.roots.getRootCount root ∨ Dag.Complete (db.children childrenOf) root

instance (childrenOf : Hash → List Hash) (db : LedgerDb Hash) (root : Hash) :
    Decidable (Restorable childrenOf db root) :=
  have := decidable_of_iff _ (LedgerDb.dagIsComplete_iff childrenOf db root)
  inferInstanceAs (Decidable (_ ∨ _))

/-- The walk ends on every store, whatever the references of its nodes, and finds out whether
every node that is reachable from the hash is present. -/
theorem dag_walk_exact (childrenOf : Hash → List Hash) (db : LedgerDb Hash) (hash : Hash) :
    (∃ enough, ∀ more, Dag.walk (db.children childrenOf) (enough + more) [] [hash] =
      some (db.dagIsComplete childrenOf hash)) ∧
    (db.dagIsComplete childrenOf hash = true ↔
      ∀ node, Dag.Reaches (db.children childrenOf) hash node → node ∈ db.nodes) := by
  constructor
  · refine ⟨Dag.budget (db.children childrenOf) db.nodes, fun more => ?_⟩
    obtain ⟨result, done, decides⟩ :=
      Dag.walk_root (LedgerDb.mem_nodes_of_children childrenOf db) hash more
    rw [done, Option.some_inj, Bool.eq_iff_iff, decides, LedgerDb.dagIsComplete_iff]
  · rw [LedgerDb.dagIsComplete_iff]
    refine forall₂_congr fun node _ => ?_
    simp [LedgerDb.children]

/-- What the root lacks of its occurrences, if it can be restored. -/
def missing (childrenOf : Hash → List Hash) (db : LedgerDb Hash) (hashes : List Hash)
    (root : Hash) : Nat :=
  if Restorable childrenOf db root then hashes.count root - db.roots.getRootCount root else 0

structure Repaired (childrenOf : Hash → List Hash) (db after : LedgerDb Hash)
    (hashes : List Hash) : Prop where
  nodes : after.nodes = db.nodes
  wanted : ∀ root ∈ hashes, after.roots.getRootCount root =
    if Restorable childrenOf db root then max (db.roots.getRootCount root) (hashes.count root)
    else db.roots.getRootCount root
  others : ∀ root, root ∉ hashes → after.roots.getRootCount root = db.roots.getRootCount root

/-- The numbers of raised roots, increments, culled roots and roots outside the window. -/
structure Reported (childrenOf : Hash → List Hash) (db after : LedgerDb Hash)
    (hashes : List Hash) (repair : RootCountRepair) : Prop where
  raisedRoots : repair.raisedRoots = hashes.dedup.countP fun root =>
    db.roots.getRootCount root < after.roots.getRootCount root
  raisedTotal : repair.raisedTotal = (hashes.dedup.map fun root =>
    after.roots.getRootCount root - db.roots.getRootCount root).sum
  culledRoots : repair.culledRoots = hashes.dedup.countP fun root =>
    ¬ Restorable childrenOf db root
  strays : repair.strays = db.roots.hashes.countP fun root => root ∉ hashes

/-! ## The loop -/

variable {wanted : List (Hash × Nat)}

section

variable {childrenOf : Hash → List Hash} {db : LedgerDb Hash}

theorem raised_eq_missing (childrenOf : Hash → List Hash) (db : LedgerDb Hash)
    (hashes : List Hash) (root : Hash) :
    raised childrenOf db root (hashes.count root) = missing childrenOf db hashes root := by
  have culled : (db.roots.getRootCount root = 0 ∧ ¬ db.dagIsComplete childrenOf root) ↔
      ¬ Restorable childrenOf db root := by
    rw [LedgerDb.dagIsComplete_iff, Restorable, not_or, Nat.pos_iff_ne_zero, not_not]
  unfold raised missing
  by_cases restorable : Restorable childrenOf db root
  · rw [if_pos restorable, if_neg fun stopped => culled.mp stopped restorable]
  · rw [if_neg restorable, if_pos (culled.mpr restorable)]

def isCulled (childrenOf : Hash → List Hash) (db : LedgerDb Hash) (entry : Hash × Nat) : Bool :=
  0 < entry.2 ∧ db.roots.getRootCount entry.1 = 0 ∧ ¬ db.dagIsComplete childrenOf entry.1

theorem raiseLoop_report (wanted : List (Hash × Nat)) (repair : RootCountRepair)
    (deltas : List (RootDelta Hash)) : (raiseLoop childrenOf db wanted repair deltas).1 =
      { raisedRoots := repair.raisedRoots +
          wanted.countP fun entry => 0 < raised childrenOf db entry.1 entry.2
        raisedTotal := repair.raisedTotal +
          (wanted.map fun entry => raised childrenOf db entry.1 entry.2).sum
        culledRoots := repair.culledRoots + wanted.countP (isCulled childrenOf db)
        strays := repair.strays } := by
  induction wanted generalizing repair deltas with
  | nil => rfl
  | cons entry rest ih =>
    obtain ⟨hash, want⟩ := entry
    simp only [raiseLoop]
    split
    next healthy =>
      have none_raised : raised childrenOf db hash want = 0 := by
        unfold raised
        split
        · rfl
        · exact healthy
      have kept : isCulled childrenOf db (hash, want) = false := by
        rw [isCulled, decide_eq_false_iff_not]
        intro stopped
        have positive : 0 < want := stopped.1
        have zero : db.roots.getRootCount hash = 0 := stopped.2.1
        omega
      rw [ih]
      simp [none_raised, kept]
    next lacking =>
      split
      next culled =>
        have none_raised : raised childrenOf db hash want = 0 := if_pos culled
        have counted : isCulled childrenOf db (hash, want) = true := by
          rw [isCulled, decide_eq_true_eq]
          exact ⟨by omega, culled⟩
        rw [ih]
        simp [none_raised, counted]
        omega
      next kept =>
        have some_raised : raised childrenOf db hash want =
            want - db.roots.getRootCount hash := if_neg kept
        have uncounted : isCulled childrenOf db (hash, want) = false := by
          rw [isCulled, decide_eq_false_iff_not]
          exact fun stopped => kept stopped.2
        have positive : 0 < want - db.roots.getRootCount hash := by omega
        rw [ih]
        simp [some_raised, uncounted, positive]
        omega

variable (idle : ∀ entry ∈ wanted, raised childrenOf db entry.1 entry.2 = 0)

include idle

theorem raiseLoop_idle (repair : RootCountRepair) (deltas : List (RootDelta Hash)) :
    (raiseLoop childrenOf db wanted repair deltas).2 = deltas := by
  induction wanted generalizing repair deltas with
  | nil => rfl
  | cons entry rest ih =>
    obtain ⟨hash, want⟩ := entry
    obtain ⟨repair', step⟩ := raiseLoop_cons hash want rest repair deltas
    have here := idle (hash, want) mem_cons_self
    rw [step, here, replicate_zero, append_nil]
    exact ih (fun other member => idle other (mem_cons_of_mem _ member)) repair' deltas

theorem raiseRootCounts_idle : raiseRootCounts childrenOf db wanted =
      some (db, (raiseLoop childrenOf db wanted (initialRepair db wanted) []).1) := by
  have nothing := raiseLoop_idle idle (initialRepair db wanted) []
  simp [raiseRootCounts, nothing, flushAllChanges, flushRoots]

end

/-! ## A whole run -/

section

variable {childrenOf : Hash → List Hash} {db after : LedgerDb Hash} {hashes : List Hash}

/-- The counts after a run, with what each root of the window lacked. -/
theorem repaired_of_counts (nodes : after.nodes = db.nodes)
    (counts : ∀ root, after.roots.getRootCount root =
      db.roots.getRootCount root + missing childrenOf db hashes root) :
    Repaired childrenOf db after hashes := by
  refine ⟨nodes, fun root _ => ?_, fun root absent => ?_⟩
  · rw [counts, missing]
    split <;> omega
  · have none_wanted := count_eq_zero_of_not_mem absent
    rw [counts, missing, none_wanted]
    split <;> omega

theorem restorable_after (nodes : after.nodes = db.nodes)
    (counts : ∀ root, after.roots.getRootCount root =
      db.roots.getRootCount root + missing childrenOf db hashes root) (root : Hash) :
    Restorable childrenOf after root ↔ Restorable childrenOf db root := by
  have children : after.children childrenOf = db.children childrenOf := by
    funext hash
    rw [LedgerDb.children, LedgerDb.children, nodes]
  have count := counts root
  unfold missing at count
  by_cases before : Restorable childrenOf db root
  · refine iff_of_true ?_ before
    rcases before with stored | complete
    · exact .inl (by omega)
    · exact .inr (by rwa [children])
  · rw [if_neg before, Nat.add_zero] at count
    rw [Restorable, count, children]
    rfl

theorem missing_after (nodes : after.nodes = db.nodes)
    (counts : ∀ root, after.roots.getRootCount root =
      db.roots.getRootCount root + missing childrenOf db hashes root) (root : Hash) :
    missing childrenOf after hashes root = 0 := by
  have count := counts root
  have same := restorable_after nodes counts root
  unfold missing at count ⊢
  split
  next restorable =>
    rw [if_pos (same.mp restorable)] at count
    omega
  next => rfl

/-- The roots outside of the window are the same rows before and after. -/
theorem strays_after (repaired : Repaired childrenOf db after hashes) :
    (after.roots.hashes.countP fun root => root ∉ hashes) =
      db.roots.hashes.countP fun root => root ∉ hashes := by
  have outside (roots : RootTable Hash) :
      (roots.hashes.filter fun root => root ∉ hashes).Nodup := roots.unique.filter _
  rw [countP_eq_length_filter, countP_eq_length_filter]
  refine ((perm_ext_iff_of_nodup (outside _) (outside _)).mpr fun root => ?_).length_eq
  rw [mem_filter, mem_filter, RootTable.mem_hashes_iff, RootTable.mem_hashes_iff,
    decide_eq_true_eq]
  refine and_congr_left fun absent => ?_
  rw [repaired.others root absent]

end

/-! ## The report -/

def reportOf (childrenOf : Hash → List Hash) (db : LedgerDb Hash) (hashes : List Hash) :
    RootCountRepair where
  raisedRoots := hashes.dedup.countP fun root => 0 < missing childrenOf db hashes root
  raisedTotal := (hashes.dedup.map (missing childrenOf db hashes)).sum
  culledRoots := hashes.dedup.countP fun root => ¬ Restorable childrenOf db root
  strays := db.roots.hashes.countP fun root => root ∉ hashes

variable {hashes : List Hash}

theorem isCulled_window (childrenOf : Hash → List Hash) (db : LedgerDb Hash) {root : Hash}
    (member : root ∈ hashes) : isCulled childrenOf db (root, hashes.count root) = true ↔
      ¬ Restorable childrenOf db root := by
  rw [isCulled, decide_eq_true_eq, LedgerDb.dagIsComplete_iff, Restorable, not_or, Nat.not_lt,
    Nat.le_zero]
  exact and_iff_right (count_pos_iff.mpr member)

theorem TallyOf.report (tallied : TallyOf wanted hashes)
    (fits : ∀ root, hashes.count root < 2 ^ 32) (childrenOf : Hash → List Hash)
    (db : LedgerDb Hash) : (raiseLoop childrenOf db wanted (initialRepair db wanted) []).1 =
      reportOf childrenOf db hashes := by
  have entries := tallied.perm fits
  have listed (root : Hash) : root ∈ wanted.map Prod.fst ↔ root ∈ hashes := by
    rw [(entries.map Prod.fst).mem_iff, windowRootCounts, map_map]
    simp
  rw [raiseLoop_report, reportOf, initialRepair]
  congr 1
  · rw [Nat.zero_add, entries.countP_eq, windowRootCounts, countP_map]
    simp only [Function.comp_def, raised_eq_missing]
  · rw [Nat.zero_add, (entries.map _).sum_eq, windowRootCounts, map_map]
    simp only [Function.comp_def, raised_eq_missing]
  · rw [Nat.zero_add, entries.countP_eq, windowRootCounts, countP_map]
    refine countP_congr fun root member => ?_
    rw [Function.comp_apply, isCulled_window childrenOf db (mem_dedup.mp member),
      decide_eq_true_eq]
  · rw [countP_eq_length_filter]
    simp only [listed]

/-! ## The repair of a window -/

/-- A run with the report of what the roots lacked, and the run after it. -/
theorem repairRootCounts_twice (childrenOf : Hash → List Hash)
    {arenaRootHash : Key → Except ε Hash} (db : LedgerDb Hash) {window : List Key}
    (decoded : window.mapM arenaRootHash = .ok hashes) (fits : ∀ root, hashes.count root < 2 ^ 32) :
    ∃ after, repairRootCounts childrenOf arenaRootHash db window =
        .ok (some (after, (reportOf childrenOf db hashes).wrapped)) ∧ after.nodes = db.nodes ∧
      (∀ root, after.roots.getRootCount root =
        db.roots.getRootCount root + missing childrenOf db hashes root) ∧
      repairRootCounts childrenOf arenaRootHash after window =
        .ok (some (after, (reportOf childrenOf after hashes).wrapped)) := by
  obtain ⟨wanted, tallied, holds⟩ := tallyWindow_success decoded
  obtain ⟨after, success, nodes, added⟩ := raiseRootCounts_result childrenOf db holds.distinct
  have counts : ∀ root, after.roots.getRootCount root =
      db.roots.getRootCount root + missing childrenOf db hashes root := by
    intro root
    rw [added, holds.counts, Nat.mod_eq_of_lt (fits root), ← raised_eq_missing]
    split
    next => rfl
    next absent => simp [raised, count_eq_zero_of_not_mem absent]
  have idle : ∀ entry ∈ wanted, raised childrenOf after entry.1 entry.2 = 0 := by
    intro entry member
    obtain ⟨root, _, rfl⟩ := mem_map.mp ((holds.perm fits).mem_iff.mp member)
    rw [raised_eq_missing, missing_after nodes counts]
  refine ⟨after, ?_, nodes, counts, ?_⟩
  · rw [repairRootCounts, tallied, Except.map, success, TallyOf.report holds fits]
    rfl
  · rw [repairRootCounts, tallied, Except.map, raiseRootCounts_idle idle, TallyOf.report holds fits]
    rfl

/-- For every window whose keys decode, whose tallies fit and whose increments fit: the
wanted roots that can be restored have the larger of the two counts, all other counts are
as before, the report is about these changes, and the second run changes nothing. -/
theorem root_counts_repaired (childrenOf : Hash → List Hash) (arenaRootHash : Key → Except ε Hash)
    (db : LedgerDb Hash) {window : List Key} {hashes : List Hash}
    (decoded : window.mapM arenaRootHash = .ok hashes)
    (fits : ∀ root, hashes.count root < 2 ^ 32)
    (total : (hashes.dedup.map (missing childrenOf db hashes)).sum < 2 ^ 32) :
    ∃ after repair, repairRootCounts childrenOf arenaRootHash db window =
        .ok (some (after, repair)) ∧
      Repaired childrenOf db after hashes ∧ Reported childrenOf db after hashes repair ∧
      repairRootCounts childrenOf arenaRootHash after window =
        .ok (some (after, { repair with raisedRoots := 0, raisedTotal := 0 })) := by
  obtain ⟨after, first, nodes, counts, second⟩ :=
    repairRootCounts_twice childrenOf db decoded fits
  have repaired := repaired_of_counts nodes counts
  have lacked (root : Hash) : missing childrenOf db hashes root =
      after.roots.getRootCount root - db.roots.getRootCount root := by
    rw [counts, Nat.add_sub_cancel_left]
  refine ⟨after, _, first, repaired, ⟨?_, ?_, rfl, rfl⟩, ?_⟩
  · refine List.countP_congr fun root _ => ?_
    rw [decide_eq_true_eq, decide_eq_true_eq, lacked, Nat.sub_pos_iff_lt]
  · refine (Nat.mod_eq_of_lt total).trans (congrArg List.sum (List.map_congr_left fun root _ => ?_))
    exact lacked root
  · have unchanged : (reportOf childrenOf after hashes).wrapped =
        { (reportOf childrenOf db hashes).wrapped with raisedRoots := 0, raisedTotal := 0 } := by
      have nothing : (hashes.dedup.map (missing childrenOf after hashes)).sum = 0 :=
        List.sum_eq_zero fun n member => by
          obtain ⟨root, _, rfl⟩ := List.mem_map.mp member
          exact missing_after nodes counts root
      have none_raised : (hashes.dedup.countP fun root =>
          0 < missing childrenOf after hashes root) = 0 :=
        List.countP_eq_zero.mpr fun root _ => by simp [missing_after nodes counts root]
      simp only [reportOf, RootCountRepair.wrapped, nothing, none_raised,
        restorable_after nodes counts, strays_after repaired, Nat.zero_mod]
    rw [second, unchanged]

/-- Root 5 is stored once and root 3 twice; the nodes of 5, 3 and 7 are present. -/
def storedDb : LedgerDb Nat :=
  ⟨[5, 3, 7], (RootTable.empty.setRootCount 5 1).setRootCount 3 2⟩

theorem root_counts_repaired_stored :
    ∃ after repair, repairRootCounts (fun _ => []) (Except.ok : Nat → Except Unit Nat) storedDb
        [5, 7, 9, 5] = .ok (some (after, repair)) ∧
      Repaired (fun _ => []) storedDb after [5, 7, 9, 5] ∧
      Reported (fun _ => []) storedDb after [5, 7, 9, 5] repair ∧
      repairRootCounts (fun _ => []) (Except.ok : Nat → Except Unit Nat) after [5, 7, 9, 5] =
        .ok (some (after, { repair with raisedRoots := 0, raisedTotal := 0 })) :=
  root_counts_repaired (fun _ => []) Except.ok storedDb (mapM_ok [5, 7, 9, 5])
    (fun _ => List.count_le_length.trans_lt (by decide)) (by decide)

def crowdedWindow (times : Nat) : List Bool :=
  List.replicate times false ++ List.replicate times true

/-- Both nodes are present and neither is a root. -/
def rootlessDb : LedgerDb Bool := ⟨[false, true], RootTable.empty⟩

section

variable (times : Nat)

theorem crowdedWindow_count (root : Bool) : (crowdedWindow times).count root = times := by
  cases root <;> simp [crowdedWindow, count_append, count_replicate]

theorem crowdedWindow_missing (root : Bool) :
    missing (fun _ => []) rootlessDb (crowdedWindow times) root = times := by
  have restorable : Restorable (fun _ => []) rootlessDb root := by
    cases root <;> decide
  rw [missing, if_pos restorable, crowdedWindow_count]
  rfl

theorem crowdedWindow_roots (positive : 0 < times) :
    (crowdedWindow times).dedup.Perm [false, true] := by
  refine (perm_ext_iff_of_nodup (nodup_dedup _) (by decide)).mpr fun root => ?_
  rw [mem_dedup, ← count_pos_iff, crowdedWindow_count]
  cases root <;> simp [positive]

theorem crowdedWindow_report (positive : 0 < times) :
    reportOf (fun _ => []) rootlessDb (crowdedWindow times) = ⟨2, times + times, 0, 0⟩ := by
  have roots := crowdedWindow_roots times positive
  have restorable (root : Bool) : Restorable (fun _ => []) rootlessDb root := by
    cases root <;> decide
  have rows : rootlessDb.roots.hashes = [] := rfl
  rw [reportOf, roots.countP_eq, roots.countP_eq, (roots.map _).sum_eq, rows]
  simp [crowdedWindow_missing, positive, restorable]

end

/-- Both counts are raised by `2 ^ 31`, and the reported increments are none. -/
theorem crowded_window_misreported :
    ∃ after repair, repairRootCounts (fun _ => []) (Except.ok : Bool → Except Unit Bool) rootlessDb
        (crowdedWindow (2 ^ 31)) = .ok (some (after, repair)) ∧
      (∀ root, rootlessDb.roots.getRootCount root = 0 ∧
        after.roots.getRootCount root = 2 ^ 31) ∧
      repair.raisedRoots = 2 ∧ repair.raisedTotal = 0 := by
  obtain ⟨after, success, _, counts, _⟩ := repairRootCounts_twice (fun _ => []) rootlessDb
    (mapM_ok (crowdedWindow (2 ^ 31)))
    (fun root => by rw [crowdedWindow_count]; decide)
  rw [crowdedWindow_report _ (by decide)] at success
  refine ⟨after, _, success, fun root => ⟨rfl, ?_⟩, rfl, by simp [RootCountRepair.wrapped]⟩
  rw [counts, crowdedWindow_missing]
  exact Nat.zero_add _

end MidnightIndexer.Guarantees.RootRepair
