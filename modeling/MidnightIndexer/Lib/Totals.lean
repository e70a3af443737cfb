import Mathlib.Algebra.Order.BigOperators.Group.List
import Mathlib.Algebra.Order.Ring.Nat
import Mathlib.Data.Nat.ModEq

/-!
# Totals over selected rows

A running total that wraps is the exact sum modulo its word. Two selections of which
one contains the other have the same total exactly if what they differ by adds nothing.
-/

namespace MidnightIndexer.Lib.Totals

open List

universe u v w

variable {α : Type u} {β : Type v} {γ : Type w}

theorem foldl_add_mod (word : Nat) (term : α → Nat) (xs : List α) (start : Nat) :
    xs.foldl (fun total x => (total + term x) % word) (start % word) =
      (start + (xs.map term).sum) % word := by
  induction xs generalizing start with
  | nil => simp
  | cons x rest ih => simp [ih, Nat.add_assoc]

/-- A wrapped total of which `k` terms lack a half word is the total if it fits and what
they lack are whole words. -/
theorem wrapped_eq_iff {half total k : Nat} (positive : 0 < half) :
    (total + k * (half * half - half)) % (half * half) = total ↔
      total < half * half ∧ k % half = 0 := by
  have missing : total + k * (half * half - half) + half * k = total + half * half * k := by
    have small : half ≤ half * half := Nat.le_mul_of_pos_left half positive
    have whole : k * (half * half - half) + k * half = k * (half * half) := by
      rw [← Nat.mul_add, Nat.sub_add_cancel small]
    rw [Nat.add_assoc, Nat.mul_comm half k, whole, Nat.mul_comm k]
  constructor
  · intro same
    have word := Nat.mod_lt (total + k * (half * half - half)) (Nat.mul_pos positive positive)
    rw [same] at word
    have shifted : total ≡ total + half * k [MOD half * half] := by
      have step : total + k * (half * half - half) ≡ total [MOD half * half] := by
        rw [Nat.ModEq, same, Nat.mod_eq_of_lt word]
      have sum := step.add_right (half * k)
      rw [missing, Nat.ModEq, Nat.add_mul_mod_self_left] at sum
      exact sum
    have divides : half * half ∣ half * k := (Nat.modEq_zero_iff_dvd.mp
      (Nat.ModEq.add_left_cancel' total shifted.symm))
    exact ⟨word, Nat.mod_eq_zero_of_dvd (Nat.dvd_of_mul_dvd_mul_left positive divides)⟩
  · rintro ⟨word, cancel⟩
    obtain ⟨words, rfl⟩ := Nat.dvd_of_mod_eq_zero cancel
    have shifted := congrArg (· % (half * half)) missing
    rw [← Nat.mul_assoc half half words, Nat.add_mul_mod_self_left, Nat.add_mul_mod_self_left,
      Nat.mod_eq_of_lt word] at shifted
    exact shifted

variable {p : α → Bool} {xs : List α}

/-- A figure of a running state that only the selected rows change. -/
theorem foldl_figure {add : β → α → β} {figure : β → γ} (op : γ → α → γ)
    (step : ∀ state x, p x = true → figure (add state x) = op (figure state) x)
    (kept : ∀ state x, p x = false → figure (add state x) = figure state) (xs : List α)
    (state : β) : figure (xs.foldl add state) = (xs.filter p).foldl op (figure state) := by
  induction xs generalizing state with
  | nil => rfl
  | cons x rest ih =>
    rw [foldl_cons, ih, filter_cons]
    split
    next selected => rw [step state x selected, foldl_cons]
    next other => rw [kept state x (Bool.eq_false_of_not_eq_true other)]

/-- The total of a larger selection, by what the smaller one leaves. -/
theorem sum_filter_split (term : α → Nat) {small large : α → Bool}
    (contained : ∀ x ∈ xs, small x = true → large x = true) :
    ((xs.filter large).map term).sum = ((xs.filter small).map term).sum +
      ((xs.filter fun x => large x && !small x).map term).sum := by
  induction xs with
  | nil => rfl
  | cons x rest ih =>
    have here := contained x mem_cons_self
    have later := ih fun y member => contained y (mem_cons_of_mem x member)
    cases inner : small x with
    | true => simp [here inner, inner, later, Nat.add_assoc]
    | false => cases outer : large x <;> simp [inner, outer, later, Nat.add_left_comm]

theorem sum_filter_eq_iff_of_contained (term : α → Nat) {small large : α → Bool}
    (contained : ∀ x ∈ xs, small x = true → large x = true) :
    ((xs.filter small).map term).sum = ((xs.filter large).map term).sum ↔
      ∀ x ∈ xs, small x ≠ large x → term x = 0 := by
  have split := sum_filter_split term contained
  have nothing : ((xs.filter fun x => large x && !small x).map term).sum = 0 ↔
      ∀ x ∈ xs, small x ≠ large x → term x = 0 := by
    rw [sum_eq_zero_iff]
    constructor
    · intro zero x member differ
      refine zero _ (mem_map_of_mem (mem_filter.mpr ⟨member, ?_⟩))
      have inside := contained x member
      cases inner : small x <;> cases outer : large x <;> simp_all
    · intro zero n member
      obtain ⟨x, found, rfl⟩ := mem_map.mp member
      obtain ⟨known, left⟩ := mem_filter.mp found
      refine zero x known ?_
      cases inner : small x <;> cases outer : large x <;> simp_all
  rw [← nothing]
  omega

theorem sum_filter_eq_iff (term : α → Nat) {q : α → Bool}
    (nested : (∀ x, p x = true → q x = true) ∨ ∀ x, q x = true → p x = true) :
    ((xs.filter p).map term).sum = ((xs.filter q).map term).sum ↔
      ∀ x ∈ xs, p x ≠ q x → term x = 0 := by
  rcases nested with inside | inside
  · exact sum_filter_eq_iff_of_contained term fun x _ => inside x
  · have swapped := @sum_filter_eq_iff_of_contained _ xs term q p fun x _ => inside x
    rw [eq_comm, swapped]
    exact forall₂_congr fun x _ => imp_congr_left ne_comm

theorem filter_map_of_related {related : α → β → Prop} {q : β → Bool} {f : α → γ} {g : β → γ}
    (selected : ∀ x y, related x y → p x = q y) (same : ∀ x y, related x y → f x = g y)
    {ys : List β} (rows : Forall₂ related xs ys) : (xs.filter p).map f = (ys.filter q).map g := by
  induction rows with
  | nil => rfl
  | cons first _ ih =>
    rw [filter_cons, filter_cons, selected _ _ first]
    split
    · rw [map_cons, map_cons, same _ _ first, ih]
    · exact ih

end MidnightIndexer.Lib.Totals
