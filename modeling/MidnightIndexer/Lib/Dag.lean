import Mathlib.Algebra.Order.BigOperators.Group.List
import Mathlib.Algebra.Order.Group.Nat
import Mathlib.Algebra.Order.Ring.Int

/-!
# Complete graphs in a node store

A node store knows the children of the nodes it holds. A root is complete if
every node reachable from it is held. `walk` decides that with a visited set and
a stack, visiting each held node at most once, so it needs no more steps than the
stack starts with plus the edges of the store (`walk_total`).
-/

namespace MidnightIndexer.Lib.Dag

open List

universe u

variable {α : Type u}

/-- A path of children from one node to another. -/
def Reaches (children : α → Option (List α)) : α → α → Prop :=
  Relation.ReflTransGen (fun a b => ∃ nodes, children a = some nodes ∧ b ∈ nodes)

/-- Every node reachable from the root is held. -/
def Complete (children : α → Option (List α)) (root : α) : Prop :=
  ∀ node, Reaches children root node → (children node).isSome

variable {visited : List α}

section

variable {children kept : α → Option (List α)} {root : α}

/-- A root stays complete in a store that holds the same children for every node
reachable from it. -/
theorem Complete.of_reachable (complete : Complete children root)
    (same : ∀ node, Reaches children root node → kept node = children node) :
    Complete kept root := by
  have back : ∀ node, Reaches kept root node → Reaches children root node := by
    intro node path
    induction path with
    | refl => exact Relation.ReflTransGen.refl
    | tail _ edge ih =>
      obtain ⟨nodes, held, member⟩ := edge
      rw [same _ ih] at held
      exact ih.tail ⟨nodes, held, member⟩
  intro node path
  rw [same node (back node path)]
  exact complete node (back node path)

theorem Complete.mono (complete : Complete children root)
    (larger : ∀ node nodes, children node = some nodes → kept node = some nodes) :
    Complete kept root := by
  refine complete.of_reachable fun node path => ?_
  obtain ⟨nodes, held⟩ := Option.isSome_iff_exists.mp (complete node path)
  rw [held]
  exact larger node nodes held

/-- What has been visited leads only to what has been or will be visited. -/
def Closed (children : α → Option (List α)) (visited frontier : List α) : Prop :=
  ∀ node ∈ visited, ∃ nodes, children node = some nodes ∧
    ∀ child ∈ nodes, child ∈ visited ∨ child ∈ frontier

theorem Closed.edges {frontier visited' frontier' : List α} {node : α}
    (closed : Closed children visited frontier)
    (kept : visited ++ frontier ⊆ visited' ++ frontier') (seen : node ∈ visited) :
    ∃ nodes, children node = some nodes ∧
      ∀ child ∈ nodes, child ∈ visited' ∨ child ∈ frontier' := by
  obtain ⟨nodes, held, next⟩ := closed node seen
  exact ⟨nodes, held, fun child edge => mem_append.mp (kept (mem_append.mpr (next child edge)))⟩

theorem Closed.complete (closed : Closed children visited []) :
    ∀ start ∈ visited, Complete children start := by
  intro start member node path
  have inside : node ∈ visited := by
    induction path with
    | refl => exact member
    | tail _ edge ih =>
      obtain ⟨nodes, held, child⟩ := edge
      obtain ⟨nodes', held', next⟩ := closed _ ih
      cases held.symm.trans held'
      exact (next _ child).resolve_right (by simp)
  obtain ⟨nodes, held, _⟩ := closed node inside
  rw [held]
  rfl

end

section

variable [DecidableEq α] (children : α → Option (List α))

/-- The worklist loop: `none` when it has not ended within the given steps. -/
def walk : Nat → List α → List α → Option Bool
  | _, _, [] => some true
  | 0, _, _ :: _ => none
  | steps + 1, visited, node :: frontier =>
    if node ∈ visited then walk steps visited frontier
    else match children node with
      | none => some false
      | some nodes => walk steps (node :: visited) (nodes.reverse ++ frontier)

/-- Edges out of the listed nodes that have not been visited. -/
def openEdges (nodes visited : List α) : Nat :=
  (nodes.map fun node => if node ∈ visited then 0 else ((children node).getD []).length).sum

variable {children}

theorem openEdges_anti (nodes visited : List α) (node : α) :
    openEdges children nodes (node :: visited) ≤ openEdges children nodes visited := by
  refine sum_le_sum fun other _ => ?_
  by_cases seen : other ∈ visited
  · simp [seen]
  · rw [if_neg seen]
    split <;> omega

variable {nodes : List α}

theorem openEdges_visit {node : α} {edges : List α} (listed : node ∈ nodes)
    (fresh : node ∉ visited) (held : children node = some edges) :
    openEdges children nodes (node :: visited) + edges.length ≤
      openEdges children nodes visited := by
  induction nodes with
  | nil => cases listed
  | cons head tail ih =>
    simp only [openEdges, map_cons, sum_cons] at ih ⊢
    by_cases first : head = node
    · subst first
      have rest : openEdges children tail (head :: visited) ≤ openEdges children tail visited :=
        openEdges_anti tail visited head
      simp only [openEdges] at rest
      simp only [mem_cons_self, if_true, fresh, if_false, held, Option.getD_some]
      omega
    · have later := ih ((mem_cons.mp listed).resolve_left (Ne.symm first))
      simp only [mem_cons, first, false_or] at later ⊢
      omega

theorem walk_total (listed : ∀ node edges, children node = some edges → node ∈ nodes)
    (steps : Nat) (visited frontier : List α)
    (enough : frontier.length + openEdges children nodes visited ≤ steps) :
    ∃ result, walk children steps visited frontier = some result := by
  induction steps generalizing visited frontier with
  | zero =>
    have empty : frontier = [] := length_eq_zero_iff.mp (by omega)
    exact ⟨true, by rw [empty, walk]⟩
  | succ steps ih =>
    cases frontier with
    | nil => exact ⟨true, by rw [walk]⟩
    | cons node frontier =>
      rw [length_cons] at enough
      rw [walk]
      split
      · exact ih visited frontier (by omega)
      next fresh =>
        split
        · exact ⟨false, rfl⟩
        next edges held =>
          refine ih _ _ ?_
          have closed := openEdges_visit (listed node edges held) fresh held
          rw [length_append, length_reverse]
          omega

theorem walk_true {steps : Nat} {frontier : List α} (closed : Closed children visited frontier)
    (done : walk children steps visited frontier = some true) :
    ∀ start ∈ visited ++ frontier, Complete children start := by
  induction steps generalizing visited frontier with
  | zero =>
    cases frontier with
    | nil => simpa using closed.complete
    | cons node frontier => cases done
  | succ steps ih =>
    cases frontier with
    | nil => simpa using closed.complete
    | cons node frontier =>
      rw [walk] at done
      split at done
      next seen =>
        have kept : visited ++ node :: frontier ⊆ visited ++ frontier := by
          simp [seen]
        exact fun start member =>
          ih (fun other old => closed.edges kept old) done start (kept member)
      next fresh =>
        split at done
        · cases done
        next edges held =>
          have kept : visited ++ node :: frontier ⊆
              node :: visited ++ (edges.reverse ++ frontier) := by
            intro x
            simp only [mem_append, mem_cons]
            tauto
          refine fun start member => ih (fun other listed => ?_) done start (kept member)
          rcases mem_cons.mp listed with rfl | old
          · exact ⟨edges, held, fun child edge => .inr (by simp [edge])⟩
          · exact closed.edges kept old

theorem walk_false {root : α} {steps : Nat} {frontier : List α}
    (reached : ∀ node ∈ frontier, Reaches children root node)
    (done : walk children steps visited frontier = some false) : ¬ Complete children root := by
  induction steps generalizing visited frontier with
  | zero => cases frontier <;> cases done
  | succ steps ih =>
    cases frontier with
    | nil => cases done
    | cons node frontier =>
      have node_reached := reached node (by simp)
      have rest_reached : ∀ other ∈ frontier, Reaches children root other :=
        fun other member => reached other (by simp [member])
      rw [walk] at done
      split at done
      · exact ih rest_reached done
      · split at done
        next absent =>
          intro complete
          have held := complete node node_reached
          simp [absent] at held
        next edges held =>
          refine ih ?_ done
          intro other member
          rcases mem_append.mp member with child | later
          · exact node_reached.tail ⟨edges, held, mem_reverse.mp child⟩
          · exact rest_reached other later

/-- Enough steps for a walk from one root over a store with the listed nodes. -/
def budget (children : α → Option (List α)) (nodes : List α) : Nat :=
  1 + openEdges children nodes []

/-- The walk from a root ends and decides whether it is complete. -/
theorem walk_root (listed : ∀ node edges, children node = some edges → node ∈ nodes) (root : α)
    (more : Nat) : ∃ result, walk children (budget children nodes + more) [] [root] = some result ∧
      (result = true ↔ Complete children root) := by
  obtain ⟨result, done⟩ := walk_total listed _ [] [root] (Nat.le_add_right (budget ..) more)
  refine ⟨result, done, ?_⟩
  cases result with
  | true => exact iff_of_true rfl (walk_true nofun done root (by simp))
  | false =>
    have start : ∀ node ∈ [root], Reaches children root node := by
      intro node member
      rw [mem_singleton.mp member]
      exact Relation.ReflTransGen.refl
    exact iff_of_false nofun (walk_false start done)

end

end MidnightIndexer.Lib.Dag
