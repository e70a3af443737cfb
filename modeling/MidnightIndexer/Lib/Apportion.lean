import Mathlib.Algebra.BigOperators.Group.List.Basic
import Mathlib.Algebra.Order.Ring.Nat

/-!
# Dividing a total among positions

`n` positions share a total: each has the quotient, and the first ones have one more until
the remainder is used up. A holder may have several positions.
-/

namespace MidnightIndexer.Lib.Apportion

open List

def share (total n position : Nat) : Nat := total / n + if position < total % n then 1 else 0

theorem share_le_succ (total n position other : Nat) :
    share total n position ≤ share total n other + 1 := by
  unfold share
  split <;> omega

theorem share_anti (total n : Nat) {position later : Nat} (order : position ≤ later) :
    share total n later ≤ share total n position := by
  unfold share
  split <;> split <;> omega

variable {α : Type*}

theorem sum_all (quotient remainder : Nat) (holders : List α) (start : Nat) :
    ((holders.zipIdx start).map fun position =>
        quotient + if position.2 < remainder then 1 else 0).sum =
      holders.length * quotient + min (remainder - start) holders.length := by
  induction holders generalizing start with
  | nil => simp
  | cons first rest ih =>
    rw [zipIdx_cons, map_cons, sum_cons, ih (start + 1), length_cons, Nat.succ_mul]
    split <;> omega

theorem sum_shares (total : Nat) {holders : List α} (nonempty : holders ≠ []) :
    (holders.zipIdx.map fun position => share total holders.length position.2).sum = total := by
  have positive := length_pos_iff.mpr nonempty
  have below := Nat.mod_lt total positive
  have split := Nat.div_add_mod total holders.length
  rw [show (fun position : α × Nat => share total holders.length position.2) = fun position =>
    total / holders.length + if position.2 < total % holders.length then 1 else 0 from rfl,
    sum_all]
  omega

variable [DecidableEq α]

def held (total : Nat) (holders : List α) (holder : α) : List Nat :=
  (holders.zipIdx.filter fun position => position.1 = holder).map fun position =>
    share total holders.length position.2

/-- What a holder has, in closed form. -/
def heldTotal (total : Nat) (holders : List α) (holder : α) : Nat :=
  holders.count holder * (total / holders.length) +
    (holders.take (total % holders.length)).count holder

theorem sum_positions (quotient remainder : Nat) (holder : α) (holders : List α) (start : Nat) :
    (((holders.zipIdx start).filter fun position => position.1 = holder).map fun position =>
        quotient + if position.2 < remainder then 1 else 0).sum =
      holders.count holder * quotient + (holders.take (remainder - start)).count holder := by
  induction holders generalizing start with
  | nil => simp
  | cons first rest ih =>
    have later := ih (start + 1)
    rw [zipIdx_cons, count_cons]
    by_cases own : first = holder
    · by_cases within : start < remainder
      · have step : remainder - start = (remainder - (start + 1)) + 1 := by omega
        simp [own, step, later, within, Nat.succ_mul]
        omega
      · have none_left : remainder - start = 0 := by omega
        have none_later : remainder - (start + 1) = 0 := by omega
        simp [own, none_left, none_later, later, within, Nat.succ_mul]
        omega
    · cases left : remainder - start with
      | zero => simpa [own, show remainder - (start + 1) = 0 by omega] using later
      | succ n => simpa [own, show remainder - (start + 1) = n by omega] using later

theorem sum_held (total : Nat) (holders : List α) (holder : α) :
    (held total holders holder).sum = heldTotal total holders holder :=
  sum_positions _ _ holder holders 0

theorem heldTotal_le {total : Nat} {holders : List α} (nonempty : holders ≠ []) (holder : α) :
    heldTotal total holders holder ≤ total := by
  have positive := length_pos_iff.mpr nonempty
  have positions : holders.count holder * (total / holders.length) ≤
      holders.length * (total / holders.length) :=
    Nat.mul_le_mul_right _ count_le_length
  have remaining : (holders.take (total % holders.length)).count holder ≤ total % holders.length :=
    Nat.le_trans count_le_length (length_take_le _ _)
  have split := Nat.div_add_mod total holders.length
  unfold heldTotal
  omega

end MidnightIndexer.Lib.Apportion
