import Mathlib.Algebra.Order.Floor.Div

/-!
# Pages of what is left

A list is visited in pages of one size. When nothing of it is left, a fixed page is
visited, and the visits go on with another fixed list. The members of the first visits
are known from the lengths alone (`mem_visits_iff`).

The list is what lies behind a cursor in an ordered list; `filter_behind_last` moves the
cursor to the end of a page.
-/

namespace MidnightIndexer.Lib.Rotation

open List

universe u v

variable {α : Type u} {κ : Type v}

/-- The members of the first visits, in order. -/
def visits (size : Nat) (wrap again : List α) : Nat → List α → List α
  | 0, _ => []
  | k + 1, left =>
    if left.isEmpty then wrap ++ visits size wrap again k again
    else left.take size ++ visits size wrap again k (left.drop size)

variable {size : Nat}

/-- The number of pages goes down by one with each page. -/
theorem ceilDiv_sub_add_one {length : Nat} (positive : 0 < size) (left : 0 < length) :
    (length - size) ⌈/⌉ size + 1 = length ⌈/⌉ size := by
  rw [Nat.ceilDiv_eq_add_pred_div, Nat.ceilDiv_eq_add_pred_div, ← Nat.add_div_right _ positive]
  rcases Nat.le_total size length with whole | part
  · congr 1
    omega
  · rw [Nat.sub_eq_zero_of_le part, Nat.div_eq_of_lt_le (k := 1) (by omega) (by omega),
      Nat.div_eq_of_lt_le (k := 1) (by omega) (by omega)]

/-- By induction on the number of visits: the first page is what is left, or the fixed one
if nothing is. -/
theorem mem_visits_iff (positive : 0 < size) (wrap again : List α) (k : Nat) (left : List α)
    (x : α) : x ∈ visits size wrap again k left ↔
      x ∈ left.take (k * size) ∨ left.length ⌈/⌉ size < k ∧
        (x ∈ wrap ∨ x ∈ again.take ((k - left.length ⌈/⌉ size - 1) * size)) := by
  induction k generalizing left with
  | zero => simp [visits]
  | succ k ih =>
    rw [visits]
    split
    next none_left =>
      rw [isEmpty_iff.mp none_left, mem_append, ih again, take_nil,
        length_nil, zero_ceilDiv, Nat.sub_zero, Nat.add_sub_cancel]
      constructor
      · rintro (here | here | ⟨_, here | here⟩)
        · exact .inr ⟨Nat.succ_pos k, .inl here⟩
        · exact .inr ⟨Nat.succ_pos k, .inr here⟩
        · exact .inr ⟨Nat.succ_pos k, .inl here⟩
        · -- A second round sees no more than the first.
          have fewer : (k - again.length ⌈/⌉ size - 1) * size ≤ k * size :=
            Nat.mul_le_mul_right size (by omega)
          exact .inr ⟨Nat.succ_pos k, .inr (take_subset_take_left again fewer here)⟩
      · rintro (here | ⟨_, here | here⟩)
        · cases here
        · exact .inl here
        · exact .inr (.inl here)
    next some_left =>
      have length_pos : 0 < left.length := by
        rw [length_pos_iff]
        exact fun empty => some_left (isEmpty_iff.mpr empty)
      have pages := ceilDiv_sub_add_one positive length_pos
      have earlier : x ∈ left.take ((k + 1) * size) ↔
          x ∈ left.take size ∨ x ∈ (left.drop size).take (k * size) := by
        rw [Nat.succ_mul, Nat.add_comm, take_add, mem_append]
      rw [mem_append, ih (left.drop size), earlier, length_drop, ← pages,
        Nat.add_lt_add_iff_right, Nat.add_sub_add_right, or_assoc]

/-- In one visit more than the pages of `n` members, what is left and the fixed page are
visited, and the rest of the visits is for what follows it. -/
theorem mem_visits_window (positive : 0 < size) (wrap again : List α) {left : List α} {n : Nat}
    (bounded : left.length ≤ n) (x : α) : x ∈ visits size wrap again (n ⌈/⌉ size + 1) left ↔
      x ∈ left ∨ x ∈ wrap ∨ x ∈ again.take ((n ⌈/⌉ size - left.length ⌈/⌉ size) * size) := by
  have fewer : left.length ⌈/⌉ size ≤ n ⌈/⌉ size := (gc_smul_ceilDiv positive).monotone_l bounded
  have enough : n ≤ size * (n ⌈/⌉ size) := le_smul_ceilDiv positive
  have whole : left.take ((n ⌈/⌉ size + 1) * size) = left := by
    rw [take_of_length_le]
    rw [Nat.succ_mul, Nat.mul_comm]
    omega
  have rest : n ⌈/⌉ size + 1 - left.length ⌈/⌉ size - 1 = n ⌈/⌉ size - left.length ⌈/⌉ size := by
    omega
  rw [mem_visits_iff positive, whole, rest]
  have later : left.length ⌈/⌉ size < n ⌈/⌉ size + 1 := by omega
  rw [and_iff_right later]

variable [LinearOrder κ]

theorem filter_behind_last {key : α → κ} {all : List α}
    (ordered : all.Pairwise fun a b => key a < key b) {selects : α → Bool}
    (upwards : ∀ x y, selects x → key x < key y → selects y) {last : α}
    (found : ((all.filter selects).take size).getLast? = some last) :
    (all.filter fun x => key last < key x) = (all.filter selects).drop size := by
  generalize hleft : all.filter selects = left at found
  have left_ordered : (left.take size ++ left.drop size).Pairwise fun a b => key a < key b := by
    rw [take_append_drop, ← hleft]
    exact ordered.filter _
  have last_member := mem_of_getLast? found
  have selected : selects last = true := by
    have member := mem_of_mem_take last_member
    rw [← hleft, mem_filter] at member
    exact member.2
  have narrowed : (all.filter fun x => key last < key x) =
      left.filter fun x => key last < key x := by
    rw [← hleft, filter_filter]
    refine filter_congr fun x _ => ?_
    by_cases above : key last < key x
    · simp [above, upwards last x selected above]
    · simp [above]
  rw [pairwise_append] at left_ordered
  obtain ⟨page_ordered, _, page_first⟩ := left_ordered
  rw [narrowed]
  conv_lhs => rw [← take_append_drop size left]
  rw [filter_append, filter_eq_nil_iff.mpr, nil_append, filter_eq_self]
  · intro x member
    exact decide_eq_true (page_first last last_member x member)
  · intro x member
    obtain ⟨front, page⟩ := getLast?_eq_some_iff.mp found
    rw [page] at member page_ordered
    rw [decide_eq_true_eq, not_lt]
    rcases mem_append.mp member with before | same
    · exact (pairwise_append.mp page_ordered).2.2 x before last (mem_singleton.mpr rfl) |>.le
    · rw [mem_singleton.mp same]

end MidnightIndexer.Lib.Rotation
