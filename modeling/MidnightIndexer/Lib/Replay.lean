import Mathlib.Data.List.Dedup
import Mathlib.Data.List.Perm.Basic

/-!
# Writes that may be reordered and repeated

A list of writes takes a state to a state. If the writes commute and repeating one changes
nothing, up to a relation that they respect, the outcome depends on which writes there are
and not on their order or number.
-/

namespace MidnightIndexer.Lib.Replay

open List

universe u v

variable {σ : Type u} {α : Type v}

/-- What is asked of the writes `p`. -/
structure Laws (step : σ → α → σ) (related : σ → σ → Prop) (p : α → Prop) : Prop where
  equivalence : Equivalence related
  congr : ∀ {s t} a, related s t → related (step s a) (step t a)
  commute : ∀ s {a b}, p a → p b → related (step (step s a) b) (step (step s b) a)
  idem : ∀ s a, related (step (step s a) a) (step s a)

variable {step : σ → α → σ} {related : σ → σ → Prop} {p : α → Prop} (laws : Laws step related p)

include laws

theorem Laws.foldl_congr (writes : List α) {s t : σ} (start : related s t) :
    related (writes.foldl step s) (writes.foldl step t) := by
  induction writes generalizing s t with
  | nil => exact start
  | cons a rest ih => exact ih (laws.congr a start)

variable {writes : List α}

theorem Laws.foldl_perm {writes' : List α} (same : writes.Perm writes') (all : ∀ a ∈ writes, p a)
    (s : σ) : related (writes.foldl step s) (writes'.foldl step s) := by
  induction same generalizing s with
  | nil => exact laws.equivalence.refl s
  | cons a _ ih => exact ih (fun b member => all b (mem_cons_of_mem a member)) (step s a)
  | swap a b rest =>
    exact laws.foldl_congr rest (laws.commute s (all b mem_cons_self)
      (all a (mem_cons_of_mem b mem_cons_self)))
  | trans first _ ih ih' =>
    exact laws.equivalence.trans (ih all s)
      (ih' (fun a member => all a (first.mem_iff.mpr member)) s)

theorem Laws.foldl_cons_of_mem {a : α} {rest : List α} (again : a ∈ rest) (all : ∀ b ∈ rest, p b)
    (s : σ) : related ((a :: rest).foldl step s) (rest.foldl step s) := by
  obtain ⟨front, back, rfl⟩ := append_of_mem again
  have moved : (front ++ a :: back).Perm (a :: (front ++ back)) := perm_middle
  have first := laws.foldl_perm moved all (step s a)
  have twice := laws.foldl_congr (front ++ back) (laws.idem s a)
  have back_again := laws.equivalence.symm (laws.foldl_perm moved all s)
  exact laws.equivalence.trans first (laws.equivalence.trans twice back_again)

theorem Laws.foldl_dedup [DecidableEq α] (all : ∀ a ∈ writes, p a) (s : σ) :
    related (writes.foldl step s) (writes.dedup.foldl step s) := by
  induction writes generalizing s with
  | nil => exact laws.equivalence.refl s
  | cons a rest ih =>
    have later : ∀ b ∈ rest, p b := fun b member => all b (mem_cons_of_mem a member)
    by_cases again : a ∈ rest
    · rw [dedup_cons_of_mem again]
      exact laws.equivalence.trans (laws.foldl_cons_of_mem again later s) (ih later s)
    · rw [dedup_cons_of_notMem again]
      exact ih later (step s a)

theorem Laws.foldl_same_members [DecidableEq α] {writes' : List α} (all : ∀ a ∈ writes, p a)
    (same : ∀ a, a ∈ writes ↔ a ∈ writes') (s : σ) :
    related (writes.foldl step s) (writes'.foldl step s) := by
  have all' : ∀ a ∈ writes', p a := fun a member => all a ((same a).mpr member)
  have distinct : writes.dedup.Perm writes'.dedup := by
    rw [perm_ext_iff_of_nodup (nodup_dedup _) (nodup_dedup _)]
    intro a
    rw [mem_dedup, mem_dedup]
    exact same a
  have once := laws.foldl_perm distinct (fun a member => all a (mem_dedup.mp member)) s
  exact laws.equivalence.trans (laws.foldl_dedup all s)
    (laws.equivalence.trans once (laws.equivalence.symm (laws.foldl_dedup all' s)))

end MidnightIndexer.Lib.Replay
