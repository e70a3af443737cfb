import Mathlib.Data.List.Dedup
import MidnightIndexer.Lib.Dag
import MidnightIndexer.Lib.Table

/-!
# The ledger DB: nodes, gc root counts and their repair

indexer-common/src/infra/ledger_db/v1_1.rs:140-178,281-325,474-504 and
indexer-common/src/domain/ledger/ledger_state.rs:2393-2508. A node is addressed
by the hash of its content, so the store is the list of hashes it holds and the
children are a function of the hash. Counts are `u32` in the source; here they
are naturals, so 2^32 blocks that share one root are outside the model; the tally of
the repair wraps in `Source.RootRepair`.

The storage backend keeps count changes in memory until a flush. A flush is one
database transaction and panics if a stored count plus its change is negative.
-/

namespace MidnightIndexer.Source

open Lib List Table

variable {Hash : Type} [DecidableEq Hash]

/-- Table `ledger_db_roots`. -/
structure RootTable (Hash : Type) where
  rows : List (Hash × Nat)
  positive : ∀ row ∈ rows, 0 < row.2
  unique : (rows.map Prod.fst).Nodup

namespace RootTable

def empty : RootTable Hash := ⟨[], by simp, by simp⟩

/-- A missing row means count 0. -/
def getRootCount (roots : RootTable Hash) (key : Hash) : Nat :=
  ((Table.lookup Prod.fst key roots.rows).map Prod.snd).getD 0

/-- Upsert for a positive count, delete for zero. -/
def setRootCount (roots : RootTable Hash) (key : Hash) (count : Nat) : RootTable Hash :=
  if positive : 0 < count then
    { rows := (key, count) :: Table.delete Prod.fst key roots.rows
      positive := by
        intro row member
        rcases List.mem_cons.mp member with rfl | old
        · exact positive
        · exact roots.positive row (List.mem_of_mem_filter old)
      unique := by
        rw [List.map_cons, List.nodup_cons]
        refine ⟨by simp [Table.delete], roots.unique.sublist (List.filter_sublist.map _)⟩ }
  else
    { rows := Table.delete Prod.fst key roots.rows
      positive := fun row member => roots.positive row (List.mem_of_mem_filter member)
      unique := roots.unique.sublist (List.filter_sublist.map _) }

/-- The keys of `get_roots`. -/
def hashes (roots : RootTable Hash) : List Hash := roots.rows.map Prod.fst

@[simp] theorem getRootCount_empty (key : Hash) : (empty : RootTable Hash).getRootCount key = 0 :=
  rfl

@[simp] theorem getRootCount_setRootCount (roots : RootTable Hash) (key other : Hash)
    (count : Nat) : (roots.setRootCount key count).getRootCount other =
      if other = key then count else roots.getRootCount other := by
  unfold setRootCount getRootCount
  split
  next =>
    by_cases same : other = key
    · simp [same, Table.lookup]
    · have missed : ¬ key = other := fun h => same h.symm
      rw [Table.lookup, find?_cons_of_neg (by simpa using missed)]
      change (Option.map _ (lookup Prod.fst other _)).getD 0 = _
      rw [lookup_delete, if_neg same, if_neg same]
  next zero =>
    rw [lookup_delete]
    split
    · simp only [Option.map_none, Option.getD_none]
      omega
    · rfl

theorem mem_hashes_iff (roots : RootTable Hash) (key : Hash) :
    key ∈ roots.hashes ↔ 0 < roots.getRootCount key := by
  unfold getRootCount hashes
  constructor
  · intro member
    obtain ⟨row, stored, rfl⟩ := mem_map.mp member
    rw [lookup_of_mem roots.unique stored]
    exact roots.positive row stored
  · intro positive
    cases found : lookup Prod.fst key roots.rows with
    | none => simp [found] at positive
    | some row =>
      obtain ⟨stored, rfl⟩ := lookup_some found
      exact mem_map_of_mem stored

end RootTable

structure LedgerDb (Hash : Type) where
  nodes : List Hash
  roots : RootTable Hash

namespace LedgerDb

def empty : LedgerDb Hash := ⟨[], RootTable.empty⟩

/-- `backend.get`: the children of a node that is present. -/
def children (childrenOf : Hash → List Hash) (db : LedgerDb Hash) (hash : Hash) :
    Option (List Hash) :=
  if hash ∈ db.nodes then some (childrenOf hash) else none

def dagIsComplete (childrenOf : Hash → List Hash) (db : LedgerDb Hash) (hash : Hash) : Bool :=
  Dag.walk (db.children childrenOf) (Dag.budget (db.children childrenOf) db.nodes) [] [hash] =
    some true

theorem mem_nodes_of_children (childrenOf : Hash → List Hash) (db : LedgerDb Hash) (node : Hash)
    (edges : List Hash) (held : db.children childrenOf node = some edges) : node ∈ db.nodes := by
  by_contra absent
  simp [children, absent] at held

theorem dagIsComplete_iff (childrenOf : Hash → List Hash) (db : LedgerDb Hash) (hash : Hash) :
    db.dagIsComplete childrenOf hash ↔ Dag.Complete (db.children childrenOf) hash := by
  obtain ⟨result, done, decides⟩ := Dag.walk_root (mem_nodes_of_children childrenOf db) hash 0
  rw [Nat.add_zero] at done
  rw [dagIsComplete, ← decides, done]
  simp

end LedgerDb

/-- A change of a root count that is still in memory. -/
abbrev RootDelta (Hash : Type) := Hash × Int

def totalDelta (deltas : List (RootDelta Hash)) (key : Hash) : Int :=
  ((deltas.filter (fun delta => delta.1 = key)).map Prod.snd).sum

/-- Write the changed counts; `none` is the panic "roots counts can't be negative". -/
def flushRoots (deltas : List (RootDelta Hash)) :
    List Hash → RootTable Hash → Option (RootTable Hash)
  | [], roots => some roots
  | key :: rest, roots =>
    let count := (roots.getRootCount key : Int) + totalDelta deltas key
    if 0 ≤ count then flushRoots deltas rest (roots.setRootCount key count.toNat) else none

/-- `flush_all_changes_to_db`, with the nodes of newly persisted states. -/
def flushAllChanges (db : LedgerDb Hash) (deltas : List (RootDelta Hash)) (nodes : List Hash) :
    Option (LedgerDb Hash) :=
  (flushRoots deltas (deltas.map Prod.fst).dedup db.roots).map fun roots =>
    { nodes := db.nodes ++ nodes, roots := roots }

section

variable {deltas : List (RootDelta Hash)}

theorem totalDelta_append (first rest : List (RootDelta Hash)) (key : Hash) :
    totalDelta (first ++ rest) key = totalDelta first key + totalDelta rest key := by
  simp [totalDelta, filter_append]

@[simp] theorem totalDelta_singleton (delta : RootDelta Hash) (key : Hash) :
    totalDelta [delta] key = if delta.1 = key then delta.2 else 0 := by
  by_cases hit : delta.1 = key <;> simp [totalDelta, hit]

theorem totalDelta_of_not_mem {key : Hash} (absent : key ∉ deltas.map Prod.fst) :
    totalDelta deltas key = 0 := by
  have nothing : deltas.filter (fun delta => delta.1 = key) = [] := by
    rw [filter_eq_nil_iff]
    intro delta member
    have missed : delta.1 ≠ key := fun same => absent (same ▸ mem_map_of_mem member)
    simpa using missed
  rw [totalDelta, nothing]
  rfl

theorem flushRoots_count {keys : List Hash} (distinct : keys.Nodup) {roots after : RootTable Hash}
    (success : flushRoots deltas keys roots = some after) (key : Hash) :
    (after.getRootCount key : Int) =
      roots.getRootCount key + if key ∈ keys then totalDelta deltas key else 0 := by
  induction keys generalizing roots with
  | nil =>
    cases success
    simp
  | cons head tail ih =>
    obtain ⟨fresh, distinct⟩ := nodup_cons.mp distinct
    rw [flushRoots] at success
    split at success
    next enough =>
      rw [ih distinct success, RootTable.getRootCount_setRootCount]
      by_cases same : key = head
      · subst same
        simp only [if_true, fresh, if_false, mem_cons_self]
        omega
      · simp [same]
    next => cases success

theorem flushRoots_total {keys : List Hash} (distinct : keys.Nodup) {roots : RootTable Hash}
    (enough : ∀ key ∈ keys, 0 ≤ (roots.getRootCount key : Int) + totalDelta deltas key) :
    ∃ after, flushRoots deltas keys roots = some after := by
  induction keys generalizing roots with
  | nil => exact ⟨roots, rfl⟩
  | cons head tail ih =>
    obtain ⟨fresh, distinct⟩ := nodup_cons.mp distinct
    rw [flushRoots, if_pos (enough head (by simp))]
    refine ih distinct fun key member => ?_
    have different : key ≠ head := fun same => fresh (same ▸ member)
    rw [RootTable.getRootCount_setRootCount, if_neg different]
    exact enough key (by simp [member])

/-- A flush adds the changes to the stored counts and the nodes to the store. -/
theorem flushAllChanges_success {db after : LedgerDb Hash} {nodes : List Hash}
    (success : flushAllChanges db deltas nodes = some after) : after.nodes = db.nodes ++ nodes ∧
      ∀ key, (after.roots.getRootCount key : Int) =
        db.roots.getRootCount key + totalDelta deltas key := by
  obtain ⟨roots, flushed, rfl⟩ := Option.map_eq_some_iff.mp success
  refine ⟨rfl, fun key => ?_⟩
  rw [flushRoots_count (nodup_dedup _) flushed key]
  split
  next => rfl
  next absent => rw [totalDelta_of_not_mem (by simpa using absent)]

/-- A flush does not panic if no count would become negative. -/
theorem flushAllChanges_total {db : LedgerDb Hash} (nodes : List Hash)
    (enough : ∀ key, 0 ≤ (db.roots.getRootCount key : Int) + totalDelta deltas key) :
    ∃ after, flushAllChanges db deltas nodes = some after := by
  obtain ⟨roots, flushed⟩ := flushRoots_total (nodup_dedup _) fun key _ => enough key
  exact ⟨_, Option.map_eq_some_iff.mpr ⟨roots, flushed, rfl⟩⟩

end

/-- What a repair changed and what it left alone. -/
structure RootCountRepair where
  raisedRoots : Nat
  raisedTotal : Nat
  culledRoots : Nat
  strays : Nat
  deriving DecidableEq, Repr

def windowRootCounts (hashes : List Hash) : List (Hash × Nat) :=
  hashes.dedup.map fun hash => (hash, hashes.count hash)

/-- The loop of `raise_root_counts`: it persists the missing occurrences, unless
the root has to be brought back from zero and its DAG is not complete. -/
def raiseLoop (childrenOf : Hash → List Hash) (db : LedgerDb Hash) :
    List (Hash × Nat) → RootCountRepair → List (RootDelta Hash) →
      RootCountRepair × List (RootDelta Hash)
  | [], repair, deltas => (repair, deltas)
  | (hash, want) :: rest, repair, deltas =>
    let stored := db.roots.getRootCount hash
    let missing := want - stored
    if missing = 0 then raiseLoop childrenOf db rest repair deltas
    else if stored = 0 ∧ ¬ db.dagIsComplete childrenOf hash then
      raiseLoop childrenOf db rest { repair with culledRoots := repair.culledRoots + 1 } deltas
    else
      raiseLoop childrenOf db rest
        { repair with
          raisedRoots := repair.raisedRoots + 1
          raisedTotal := repair.raisedTotal + missing }
        (deltas ++ List.replicate missing (hash, 1))

/-- Root rows outside the window are counted and left alone. -/
def initialRepair (db : LedgerDb Hash) (wanted : List (Hash × Nat)) : RootCountRepair where
  raisedRoots := 0
  raisedTotal := 0
  culledRoots := 0
  strays := (db.roots.hashes.filter fun hash => hash ∉ wanted.map Prod.fst).length

def raiseRootCounts (childrenOf : Hash → List Hash) (db : LedgerDb Hash)
    (wanted : List (Hash × Nat)) : Option (LedgerDb Hash × RootCountRepair) :=
  let (repair, deltas) := raiseLoop childrenOf db wanted (initialRepair db wanted) []
  (flushAllChanges db deltas []).map fun after => (after, repair)

section

variable {childrenOf : Hash → List Hash} {db : LedgerDb Hash}

/-- What the loop adds to the count of a root, given what it wants of it. -/
def raised (childrenOf : Hash → List Hash) (db : LedgerDb Hash) (hash : Hash) (want : Nat) : Nat :=
  if db.roots.getRootCount hash = 0 ∧ ¬ db.dagIsComplete childrenOf hash then 0
  else want - db.roots.getRootCount hash

theorem totalDelta_replicate (n : Nat) (hash key : Hash) :
    totalDelta (replicate n (hash, 1)) key = if hash = key then (n : Int) else 0 := by
  induction n with
  | zero => simp [totalDelta]
  | succ n ih =>
    rw [replicate_succ', totalDelta_append, ih, totalDelta_singleton]
    split <;> simp

/-- One round of the loop persists `raised` occurrences. -/
theorem raiseLoop_cons (hash : Hash) (want : Nat) (rest : List (Hash × Nat))
    (repair : RootCountRepair) (deltas : List (RootDelta Hash)) :
    ∃ repair', raiseLoop childrenOf db ((hash, want) :: rest) repair deltas =
      raiseLoop childrenOf db rest repair'
        (deltas ++ replicate (raised childrenOf db hash want) (hash, 1)) := by
  simp only [raiseLoop]
  split
  next healthy =>
    refine ⟨repair, ?_⟩
    have none_raised : raised childrenOf db hash want = 0 := by
      unfold raised
      split
      · rfl
      · exact healthy
    rw [none_raised, replicate_zero, append_nil]
  next =>
    split
    next culled =>
      refine ⟨{ repair with culledRoots := repair.culledRoots + 1 }, ?_⟩
      rw [raised, if_pos culled, replicate_zero, append_nil]
    next kept =>
      refine ⟨{ repair with
        raisedRoots := repair.raisedRoots + 1
        raisedTotal := repair.raisedTotal + (want - db.roots.getRootCount hash) }, ?_⟩
      rw [raised, if_neg kept]

theorem raiseLoop_delta (wanted : List (Hash × Nat)) (repair : RootCountRepair)
    (deltas : List (RootDelta Hash)) (distinct : (wanted.map Prod.fst).Nodup) (key : Hash) :
    totalDelta (raiseLoop childrenOf db wanted repair deltas).2 key = totalDelta deltas key +
        ((lookup Prod.fst key wanted).map fun entry =>
          (raised childrenOf db key entry.2 : Int)).getD 0 := by
  induction wanted generalizing repair deltas with
  | nil => simp [raiseLoop, Table.lookup]
  | cons entry rest ih =>
    obtain ⟨hash, want⟩ := entry
    rw [map_cons, nodup_cons] at distinct
    obtain ⟨repair', step⟩ := raiseLoop_cons hash want rest repair deltas
    rw [step, ih _ _ distinct.2, totalDelta_append, totalDelta_replicate]
    by_cases hit : hash = key
    · subst hit
      have absent : lookup Prod.fst hash rest = none :=
        lookup_eq_none.mpr fun row member same =>
          distinct.1 (mem_map.mpr ⟨row, member, same⟩)
      have found : lookup Prod.fst hash ((hash, want) :: rest) = some (hash, want) := by
        simp [Table.lookup]
      simp [absent, found]
    · have skipped : lookup Prod.fst key ((hash, want) :: rest) = lookup Prod.fst key rest := by
        rw [Table.lookup, find?_cons_of_neg (by simpa using hit)]
        rfl
      simp [hit, skipped]

theorem windowRootCounts_distinct (hashes : List Hash) :
    ((windowRootCounts hashes).map Prod.fst).Nodup := by
  have keys : (windowRootCounts hashes).map Prod.fst = hashes.dedup := by
    simp [windowRootCounts, Function.comp_def]
  rw [keys]
  exact nodup_dedup hashes

theorem lookup_windowRootCounts (hashes : List Hash) (key : Hash) :
    lookup Prod.fst key (windowRootCounts hashes) =
      if key ∈ hashes then some (key, hashes.count key) else none := by
  split
  next member =>
    have stored : (key, hashes.count key) ∈ windowRootCounts hashes :=
      mem_map.mpr ⟨key, mem_dedup.mpr member, rfl⟩
    exact lookup_of_mem (windowRootCounts_distinct hashes) stored
  next absent =>
    rw [lookup_eq_none]
    intro row member same
    obtain ⟨hash, listed, rfl⟩ := mem_map.mp member
    exact absent (same ▸ mem_dedup.mp listed)

/-- The repair never panics, keeps the nodes, and adds to each wanted root what the
loop persists for it. -/
theorem raiseRootCounts_result (childrenOf : Hash → List Hash) (db : LedgerDb Hash)
    {wanted : List (Hash × Nat)} (distinct : (wanted.map Prod.fst).Nodup) :
    ∃ after, raiseRootCounts childrenOf db wanted =
        some (after, (raiseLoop childrenOf db wanted (initialRepair db wanted) []).1) ∧
      after.nodes = db.nodes ∧ ∀ key, after.roots.getRootCount key = db.roots.getRootCount key +
        ((lookup Prod.fst key wanted).map fun entry =>
          raised childrenOf db key entry.2).getD 0 := by
  have total : ∀ key, totalDelta
      (raiseLoop childrenOf db wanted (initialRepair db wanted) []).2 key =
        (((lookup Prod.fst key wanted).map fun entry =>
          raised childrenOf db key entry.2).getD 0 : Nat) := by
    intro key
    rw [raiseLoop_delta _ _ _ distinct]
    cases lookup Prod.fst key wanted <;> simp [totalDelta]
  have enough : ∀ key, 0 ≤ (db.roots.getRootCount key : Int) + totalDelta
      (raiseLoop childrenOf db wanted (initialRepair db wanted) []).2 key := by
    intro key
    rw [total]
    omega
  obtain ⟨after, flushed⟩ := flushAllChanges_total [] enough
  obtain ⟨nodes, counts⟩ := flushAllChanges_success flushed
  refine ⟨after, ?_, ?_, fun key => ?_⟩
  · simp only [raiseRootCounts, flushed, Option.map_some]
  · simpa using nodes
  · have count := counts key
    rw [total] at count
    omega

/-- The repair of a window never panics, keeps the nodes, and raises the count of
every root of the window to its occurrences, unless the root was culled. -/
theorem raiseRootCounts_effects (childrenOf : Hash → List Hash) (db : LedgerDb Hash)
    (hashes : List Hash) : ∃ after repair,
      raiseRootCounts childrenOf db (windowRootCounts hashes) = some (after, repair) ∧
      after.nodes = db.nodes ∧ ∀ key, after.roots.getRootCount key =
        db.roots.getRootCount key + raised childrenOf db key (hashes.count key) := by
  obtain ⟨after, success, nodes, counts⟩ :=
    raiseRootCounts_result childrenOf db (windowRootCounts_distinct hashes)
  refine ⟨after, _, success, nodes, fun key => ?_⟩
  rw [counts, lookup_windowRootCounts]
  split
  next => rfl
  next absent => simp [raised, count_eq_zero_of_not_mem absent]

/-- After a repair a root of the window covers its occurrences or is not a root,
and it was a root before or had its whole DAG. -/
theorem raiseRootCounts_raises {hashes : List Hash} {after : LedgerDb Hash}
    {repair : RootCountRepair}
    (success : raiseRootCounts childrenOf db (windowRootCounts hashes) = some (after, repair)) :
    after.nodes = db.nodes ∧ ∀ key, db.roots.getRootCount key ≤ after.roots.getRootCount key ∧
      (0 < after.roots.getRootCount key → hashes.count key ≤ after.roots.getRootCount key ∧
          (0 < db.roots.getRootCount key ∨ Dag.Complete (db.children childrenOf) key)) := by
  obtain ⟨after', repair', same, nodes, counts⟩ := raiseRootCounts_effects childrenOf db hashes
  cases success.symm.trans same
  refine ⟨nodes, fun key => ?_⟩
  rw [counts key, raised]
  split
  next culled => omega
  next kept =>
    refine ⟨by omega, fun _ => ⟨by omega, ?_⟩⟩
    rcases Nat.eq_zero_or_pos (db.roots.getRootCount key) with zero | stored
    · refine .inr ?_
      rw [← LedgerDb.dagIsComplete_iff]
      by_contra broken
      exact kept ⟨zero, broken⟩
    · exact .inl stored

end

end MidnightIndexer.Source
