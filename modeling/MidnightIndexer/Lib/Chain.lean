import Mathlib.Data.List.Nodup
import Mathlib.Logic.Relation

/-!
# Lists linked by parent keys

An element has a key and names the key of its parent. A list is linked from a
start key if its first element names the start and every later one names the
element before it. Where the parent links are acyclic, a linked list repeats no
key and does not come back to its start.
-/

namespace MidnightIndexer.Lib.Chain

open List

universe u v

variable {α : Type u} {κ : Type v} (key parent : α → κ)

def Linked (start : κ) : List α → Prop
  | [] => True
  | x :: rest => parent x = start ∧ Linked (key x) rest

/-- The key that the next element of the list has to name. -/
def tip (start : κ) (xs : List α) : κ := (xs.getLast?.map key).getD start

def Link (xs : List α) (child above : κ) : Prop := ∃ x ∈ xs, key x = child ∧ parent x = above

def Acyclic (xs : List α) : Prop := ∀ k, ¬ Relation.TransGen (Link key parent xs) k k

variable {key parent} {start : κ} {xs ys : List α}

@[simp] theorem tip_nil : tip key start [] = start := rfl

@[simp] theorem tip_concat (x : α) : tip key start (xs ++ [x]) = key x := by
  unfold tip
  rw [getLast?_concat]
  rfl

theorem tip_cons (x : α) : tip key start (x :: xs) = tip key (key x) xs := by
  unfold tip
  rw [getLast?_cons]
  cases xs.getLast? <;> rfl

theorem last_or_cons {κ' : Type*} (f : α → κ') (x : α) (below : Option κ') :
    ((x :: xs).getLast?.map f).or below = (xs.getLast?.map f).or (some (f x)) := by
  rw [getLast?_cons]
  cases xs.getLast? <;> rfl

theorem linked_append : Linked key parent start (xs ++ ys) ↔
      Linked key parent start xs ∧ Linked key parent (tip key start xs) ys := by
  induction xs generalizing start with
  | nil => simp [Linked]
  | cons x rest ih => rw [cons_append, Linked, Linked, ih, tip_cons, and_assoc]

theorem Link.mono {child above : κ} (link : Link key parent xs child above) (inside : xs ⊆ ys) :
    Link key parent ys child above := by
  obtain ⟨x, member, links⟩ := link
  exact ⟨x, inside member, links⟩

/-- Keys that grow away from the parent have no cycle. -/
theorem acyclic_of_rank (rank : κ → Nat) (grows : ∀ x ∈ xs, rank (parent x) < rank (key x)) :
    Acyclic key parent xs := by
  have falls : ∀ k above, Relation.TransGen (Link key parent xs) k above → rank above < rank k := by
    intro k above path
    induction path with
    | single link =>
      obtain ⟨x, member, rfl, rfl⟩ := link
      exact grows x member
    | tail _ link ih =>
      obtain ⟨x, member, rfl, rfl⟩ := link
      exact Nat.lt_trans (grows x member) ih
  intro k cycle
  exact Nat.lt_irrefl _ (falls k k cycle)

/-- Every element of a linked list leads back to the start. -/
theorem Linked.path (linked : Linked key parent start xs) {x : α} (member : x ∈ xs) :
    Relation.TransGen (Link key parent xs) (key x) start := by
  induction xs generalizing start with
  | nil => cases member
  | cons first rest ih =>
    have step : Link key parent (first :: rest) (key first) start :=
      ⟨first, mem_cons_self, rfl, linked.1⟩
    cases member with
    | head => exact Relation.TransGen.single step
    | tail _ later =>
      have inside := Relation.TransGen.mono
        (fun _ _ link => link.mono (subset_cons_self first rest)) _ _ (ih linked.2 later)
      exact inside.tail step

theorem Linked.nodup {all : List α} (linked : Linked key parent start xs)
    (acyclic : Acyclic key parent all) (inside : xs ⊆ all) : (start :: xs.map key).Nodup := by
  induction xs generalizing start with
  | nil => exact nodup_singleton start
  | cons first rest ih =>
    have tail := ih linked.2 fun _ member => inside (mem_cons_of_mem first member)
    rw [map_cons, nodup_cons]
    refine ⟨fun listed => ?_, tail⟩
    rw [← map_cons] at listed
    obtain ⟨x, member, same⟩ := mem_map.mp listed
    have cycle := Relation.TransGen.mono (fun _ _ link => link.mono inside) _ _ (linked.path member)
    rw [same] at cycle
    exact acyclic start cycle

end MidnightIndexer.Lib.Chain
