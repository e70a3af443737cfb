import MidnightIndexer.Source.RetentionWindow

/-!
# Root counts cover the retention window

For every sequence of runs, with any retention sizes and any stops: the count of
a root is at least the number of its occurrences in the window, no unpersist
drives a count below zero, and every key of the window loads, with all nodes of
its state present. Gc is taken to leave what is reachable from the stored roots;
a gc that flushes first is a flush step before a gc step.
-/

namespace MidnightIndexer.Guarantees.RootCounts

open Lib Source LedgerDb

variable {core : LedgerCore}

/-- Every node of the root's DAG is present. -/
def Loadable (ledger : LedgerDb core.Hash) (hash : core.Hash) : Prop :=
  Dag.Complete (ledger.children core.childrenOf) hash

/-- Gc leaves every node that is reachable from a root with a stored count. -/
def GcKeepsRoots (world : ChainWorld core) : ChainInput core → Prop
  | .gc (some kept) => ∀ hash, 0 < world.ledger.roots.getRootCount hash →
      ∀ node, Dag.Reaches (world.ledger.children core.childrenOf) hash node → node ∈ kept
  | _ => True

/-- Gc leaves the stored roots and what it leaves is closed under children, as a
finished mark pass does. -/
def GcMarks (world : ChainWorld core) : ChainInput core → Prop
  | .gc (some kept) => (∀ hash ∈ world.ledger.roots.hashes, hash ∈ kept) ∧
      ∀ node ∈ kept, ∀ child ∈ core.childrenOf node, child ∈ kept
  | _ => True

variable {input : ChainInput core}

theorem GcMarks.keepsRoots {world : ChainWorld core} (marks : GcMarks world input) :
    GcKeepsRoots world input := by
  unfold GcKeepsRoots
  split
  next kept =>
    intro hash positive node path
    induction path with
    | refl => exact marks.1 hash ((RootTable.mem_hashes_iff ..).mpr positive)
    | tail _ edge ih =>
      obtain ⟨nodes, held, child⟩ := edge
      simp only [children, Option.ite_none_right_eq_some, Option.some.injEq] at held
      exact marks.2 _ ih _ (held.2 ▸ child)
  next => trivial

instance (world : ChainWorld core) : (input : ChainInput core) → Decidable (GcMarks world input)
  | .gc (some kept) => inferInstanceAs (Decidable
      ((∀ hash ∈ world.ledger.roots.hashes, hash ∈ kept) ∧
        ∀ node ∈ kept, ∀ child ∈ core.childrenOf node, child ∈ kept))
  | .gc none | .start _ | .seed | .persist .. | .saveBlock | .pushBack | .evict | .flush | .crash =>
    isTrue trivial

section

variable {ledger after : LedgerDb core.Hash}

theorem Loadable.grow {hash : core.Hash} {nodes : List core.Hash} (loadable : Loadable ledger hash)
    (grown : after.nodes = ledger.nodes ++ nodes) : Loadable after hash := by
  refine Dag.Complete.mono loadable fun node edges held => ?_
  simp only [children, grown, List.mem_append] at held ⊢
  split at held
  next present =>
    rw [if_pos (.inl present)]
    exact held
  next => cases held

theorem Loadable.persisted {state : core.State}
    (grown : after.nodes = ledger.nodes ++ core.dag state) : Loadable after (core.root state) := by
  have inside : ∀ node, Dag.Reaches (after.children core.childrenOf) (core.root state) node →
      node ∈ core.dag state := by
    intro node path
    induction path with
    | refl => exact core.root_mem state
    | tail _ edge ih =>
      obtain ⟨edges, held, child⟩ := edge
      simp only [children] at held
      split at held
      · cases held
        exact core.dag_closed state _ ih _ child
      · cases held
  intro node path
  simp [children, grown, inside node path]

theorem Loadable.load {state : core.State} (loadable : Loadable ledger (core.root state)) :
    loadLedgerState ledger (core.windowKey state) = some state := by
  have present := loadable (core.root state) Relation.ReflTransGen.refl
  rw [loadLedgerState, LedgerCore.windowKey, core.key_root, core.load_key]
  simp only [children, Option.isSome_ite] at present
  exact if_pos present

end

structure RootInvariant (world : ChainWorld core) : Prop where
  counts : WindowCounted world
  loadable : ∀ hash, 0 < world.ledger.roots.getRootCount hash → Loadable world.ledger hash

theorem rootInvariant_empty : RootInvariant (ChainWorld.empty : ChainWorld core) where
  counts := windowCounted_empty
  loadable := fun _ positive => absurd positive (by simp [ChainWorld.empty, empty])

namespace RootInvariant

variable {world after : ChainWorld core} {r : Running core} (invariant : RootInvariant world)

include invariant

theorem start {keys : List (HashedKey core)} {ledger : LedgerDb core.Hash}
    {repair : RootCountRepair} (repaired : raiseRootCounts core.childrenOf world.ledger
      (windowRootCounts (keys.map HashedKey.hash)) = some (ledger, repair)) {hash : core.Hash}
    (positive : 0 < ledger.roots.getRootCount hash) : Loadable ledger hash := by
  obtain ⟨nodes, raises⟩ := raiseRootCounts_raises repaired
  have children_same : ledger.children core.childrenOf = world.ledger.children core.childrenOf := by
    funext hash
    simp only [children, nodes]
  rw [Loadable, children_same]
  exact ((raises hash).2 positive).2.elim (invariant.loadable hash) id

theorem loop (process : world.process = some (.running r)) (guard : GcKeepsRoots world input)
    (move : LoopMove world.blocks world.ledger r input after) (hash : core.Hash)
    (positive : 0 < after.ledger.roots.getRootCount hash) : Loadable after.ledger hash := by
  have running := invariant.counts.running r process
  cases move with
  | @persist next height version ledger phase _ flushed =>
    obtain ⟨grown, counts⟩ := flushAllChanges_success flushed
    by_cases new : core.root next = hash
    · rw [← new]
      exact Loadable.persisted grown
    · refine (invariant.loadable hash (stored_of_rootCount running.lowering ?_)).grow grown
      have count := counts hash
      rw [totalDelta_append, totalDelta_singleton, if_neg new] at count
      change 0 < ledger.roots.getRootCount hash at positive
      rw [rootCount]
      omega
  | @gc kept _ _ =>
    refine (invariant.loadable hash positive).of_reachable fun node path => ?_
    simp [children, guard hash positive node path]
  | flush flushed =>
    exact (invariant.loadable hash (stored_of_flushed flushed running.lowering positive)).grow
      (flushAllChanges_success flushed).1
  | _ => exact invariant.loadable hash positive

theorem step {backend : Sql.Backend} (guard : GcKeepsRoots world input)
    (move : ChainMove backend world input after) : RootInvariant after := by
  refine ⟨invariant.counts.step move, fun hash positive => ?_⟩
  cases move with
  | start _ _ repaired => exact invariant.start repaired positive
  | loop running move => exact invariant.loop running guard move hash positive
  | _ => exact invariant.loadable hash positive

end RootInvariant

/-- Three blocks under retention 2, a stop with an unpersist in memory, and a
restart under retention 3. Two of the blocks share their root. -/
def sampleRuns : List (ChainInput sampleCore) :=
  let version : ProtocolVersion := .first .V0_22
  let block (n height : Nat) : List (ChainInput sampleCore) :=
    [.persist (.V8, n) height version, .saveBlock, .pushBack]
  let gc (kept : List Nat) : ChainInput sampleCore := .gc (some kept)
  [.start (.ofNat 2), .seed] ++ block 5 0 ++ [gc [0, 6]] ++ block 7 1 ++
    [.gc none] ++ block 7 2 ++
    [.evict, gc [0, 6, 8], .crash, .start (.ofNat 3), .seed]

end MidnightIndexer.Guarantees.RootCounts
