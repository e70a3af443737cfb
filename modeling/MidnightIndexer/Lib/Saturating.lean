import Mathlib.Algebra.Order.Ring.Nat
import Mathlib.Algebra.BigOperators.Group.List.Basic

/-!
# Saturating arithmetic

Addition and multiplication of unsigned numbers that stop at a bound. A running total is
the exact sum cut off at the bound, whatever the order of its terms, and equals one of its
terms exactly if the others are zero or that term is the bound.
-/

namespace MidnightIndexer.Lib.Saturating

open List

universe u

def add (bound a b : Nat) : Nat := min (a + b) bound

def mul (bound a b : Nat) : Nat := min (a * b) bound

theorem add_le (bound a b : Nat) : add bound a b ≤ bound := Nat.min_le_right ..

theorem mul_le (bound a b : Nat) : mul bound a b ≤ bound := Nat.min_le_right ..

@[simp] theorem mul_zero (bound a : Nat) : mul bound a 0 = 0 := by
  simp [mul]

@[simp] theorem zero_mul (bound b : Nat) : mul bound 0 b = 0 := by
  simp [mul]

variable {bound b : Nat}

theorem bound_mul (positive : 0 < b) : mul bound bound b = bound :=
  Nat.min_eq_right (Nat.le_mul_of_pos_right bound positive)

theorem mul_eq_zero {a : Nat} (room : 0 < bound) : mul bound a b = 0 ↔ a = 0 ∨ b = 0 := by
  rw [mul, ← Nat.mul_eq_zero]
  omega

theorem mul_mono_right (bound a : Nat) {c : Nat} (larger : b ≤ c) :
    mul bound a b ≤ mul bound a c := by
  have products := Nat.mul_le_mul_left a larger
  unfold mul
  omega

theorem mul_of_le {a : Nat} (fits : a * b ≤ bound) : mul bound a b = a * b :=
  Nat.min_eq_left fits

theorem foldl_add {α : Type u} (bound : Nat) (term : α → Nat) (xs : List α) {start : Nat}
    (small : start ≤ bound) : xs.foldl (fun total x => add bound total (term x)) start =
      min (start + (xs.map term).sum) bound := by
  induction xs generalizing start with
  | nil =>
    rw [foldl_nil, map_nil, sum_nil, Nat.add_zero]
    exact (Nat.min_eq_left small).symm
  | cons x rest ih =>
    rw [foldl_cons, ih (add_le bound start (term x)), map_cons, sum_cons, add]
    omega

/-- A sum that is cut off equals one of its terms. -/
theorem cut_eq_term_iff {term rest : Nat} (small : term ≤ bound) :
    min (term + rest) bound = term ↔ rest = 0 ∨ term = bound := by
  omega

theorem sum_eq_zero_iff {α : Type u} (term : α → Nat) (xs : List α) :
    (xs.map term).sum = 0 ↔ ∀ x ∈ xs, term x = 0 := by
  induction xs with
  | nil => simp
  | cons x rest ih => simp [ih]

end MidnightIndexer.Lib.Saturating
