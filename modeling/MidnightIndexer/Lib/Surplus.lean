import Mathlib.Algebra.Order.BigOperators.Group.List
import Mathlib.Algebra.Order.Group.Nat
import Mathlib.Algebra.Order.Ring.Int
import Mathlib.Data.List.DropRight
import Mathlib.Data.List.Nodup

/-!
# Counts above the occurrences in a list

A count for each value may exceed the occurrences of the value in a list. The surplus is
named by a second list with an occurrence for each excess one, so that bounds on its length
add up along a run, and the total excess over any distinct values is at most that length
(`Within.total_le`).
-/

namespace MidnightIndexer.Lib.Surplus

open List

universe u

variable {α : Type u} [DecidableEq α]

/-- The counts exceed the occurrences in `held` by at most `n` in total. -/
def Within (count : α → Int) (held : List α) (n : Nat) : Prop :=
  ∃ spare : List α, spare.length ≤ n ∧ ∀ x, count x ≤ (held.count x + spare.count x : Nat)

namespace Within

variable {count other : α → Int} {held : List α} {n m : Nat} (within : Within count held n)

include within in
theorem mono (more : n ≤ m) : Within count held m := by
  obtain ⟨spare, length, bound⟩ := within
  exact ⟨spare, length.trans more, bound⟩

include within in
theorem lower (lower : ∀ x, other x ≤ count x) : Within other held n := by
  obtain ⟨spare, length, bound⟩ := within
  exact ⟨spare, length, fun x => (lower x).trans (bound x)⟩

include within in
/-- Raising a count up to the occurrences is free; what is raised above is surplus. -/
theorem raise (extra : List α)
    (raised : ∀ x, other x ≤ max (count x) (held.count x) + extra.count x) :
    Within other held (n + extra.length) := by
  obtain ⟨spare, length, bound⟩ := within
  refine ⟨spare ++ extra, by rw [length_append]; omega, fun x => ?_⟩
  have counted := bound x
  have above := raised x
  rw [count_append]
  omega

include within in
/-- Values that leave the list become surplus. -/
theorem leave {fewer left : List α} (parts : ∀ x, held.count x ≤ fewer.count x + left.count x) :
    Within count fewer (n + left.length) := by
  obtain ⟨spare, length, bound⟩ := within
  refine ⟨spare ++ left, by rw [length_append]; omega, fun x => ?_⟩
  have counted := bound x
  have kept := parts x
  rw [count_append]
  omega

theorem of_append {left : List α} (within : Within count (held ++ left) n) :
    Within count held (n + left.length) :=
  within.leave fun x => by rw [count_append]

include within in
theorem rtake (k : Nat) : Within count (held.rtake k) (n + (held.length - k)) := by
  have split : ∀ x, held.count x ≤
      (held.rtake k).count x + (held.take (held.length - k)).count x := by
    intro x
    rw [Nat.add_comm, ← List.count_append, List.rtake, List.take_append_drop]
  exact (within.leave split).mono (Nat.add_le_add_left (length_take_le _ _) n)

include within in
theorem sublist {more : List α} (part : held.Sublist more) : Within count more n := by
  obtain ⟨spare, length, bound⟩ := within
  refine ⟨spare, length, fun x => ?_⟩
  have counted := bound x
  have kept := part.count_le x
  omega

include within in
theorem push {y : α} (grown : ∀ x, other x ≤ count x + if y = x then 1 else 0) :
    Within other (held ++ [y]) n := by
  obtain ⟨spare, length, bound⟩ := within
  refine ⟨spare, length, fun x => ?_⟩
  have counted := bound x
  have added := grown x
  rw [count_append, count_singleton]
  by_cases same : y = x
  · simp only [same, if_true, BEq.rfl] at added ⊢
    omega
  · simp only [same, if_false, beq_iff_eq] at added ⊢
    omega

theorem pop {y : α} (within : Within count (y :: held) n)
    (shrunk : ∀ x, other x ≤ count x - if y = x then 1 else 0) : Within other held n := by
  obtain ⟨spare, length, bound⟩ := within
  refine ⟨spare, length, fun x => ?_⟩
  have counted := bound x
  have removed := shrunk x
  rw [count_cons] at counted
  by_cases same : y = x
  · simp only [same, if_true, BEq.rfl] at removed counted
    omega
  · simp only [same, if_false, beq_iff_eq] at removed counted
    omega

end Within

variable {keys : List α}

theorem sum_count_le (distinct : keys.Nodup) (spare : List α) :
    (keys.map spare.count).sum ≤ spare.length := by
  induction spare with
  | nil => simp
  | cons first rest ih =>
    have split : (keys.map (first :: rest).count).sum =
        (keys.map rest.count).sum + keys.count first := by
      clear ih distinct
      induction keys with
      | nil => rfl
      | cons key keys ih =>
        rw [map_cons, map_cons, sum_cons, sum_cons, ih, count_cons, count_cons]
        have same : (first == key) = (key == first) := BEq.comm
        rw [same]
        omega
    have once := nodup_iff_count_le_one.mp distinct first
    rw [split, length_cons]
    omega

theorem Within.total_le {count : α → Int} {held : List α} {n : Nat} (within : Within count held n)
    (distinct : keys.Nodup) : (keys.map fun x => (count x - held.count x).toNat).sum ≤ n := by
  obtain ⟨spare, length, bound⟩ := within
  calc (keys.map fun x => (count x - held.count x).toNat).sum ≤ (keys.map spare.count).sum := by
        refine sum_le_sum fun x _ => ?_
        have counted := bound x
        omega
    _ ≤ spare.length := sum_count_le distinct spare
    _ ≤ n := length

/-- A list with a given number of occurrences of each of some distinct values. -/
theorem exists_count (distinct : keys.Nodup) (want : α → Nat) :
    ∃ spare : List α, spare.length = (keys.map want).sum ∧
      ∀ x, spare.count x = if x ∈ keys then want x else 0 := by
  induction keys with
  | nil => exact ⟨[], rfl, by simp⟩
  | cons key rest ih =>
    obtain ⟨fresh, distinct⟩ := nodup_cons.mp distinct
    obtain ⟨spare, length, counts⟩ := ih distinct
    refine ⟨replicate (want key) key ++ spare, ?_, fun x => ?_⟩
    · rw [length_append, length_replicate, length, map_cons, sum_cons]
    · rw [count_append, count_replicate, counts]
      by_cases same : key = x
      · subst same
        simp [fresh]
      · have different : ¬ x = key := fun h => same h.symm
        simp [same, different]

section

omit [DecidableEq α]

theorem rtake_suffix (xs : List α) (n : Nat) : xs.rtake n <:+ xs :=
  drop_suffix _ xs

theorem length_rtake (xs : List α) (n : Nat) : (xs.rtake n).length = min n xs.length := by
  rw [rtake, length_drop]
  omega

theorem suffix_rtake {suffix xs : List α} (part : suffix <:+ xs) {n : Nat}
    (short : suffix.length ≤ n) : suffix <:+ xs.rtake n := by
  refine suffix_of_suffix_length_le part (rtake_suffix xs n) ?_
  rw [length_rtake]
  exact le_min short part.length_le

/-- A suffix that satisfies `p` lies within the longest one that does. -/
theorem suffix_rtakeWhile {p : α → Bool} {suffix xs : List α} (part : suffix <:+ xs)
    (all : ∀ x ∈ suffix, p x = true) : suffix <:+ xs.rtakeWhile p := by
  induction suffix using reverseRecOn generalizing xs with
  | nil => exact nil_suffix
  | append_singleton front last ih =>
    obtain ⟨before, rfl⟩ := part
    have kept : p last = true := all last (by simp)
    rw [← append_assoc, rtakeWhile_concat_pos p _ last kept]
    obtain ⟨earlier, same⟩ := ih (suffix_append before front) fun x member =>
      all x (mem_append_left _ member)
    exact ⟨earlier, by rw [← append_assoc, same]⟩

theorem rtakeWhile_suffix_filter (p : α → Bool) (xs : List α) :
    xs.rtakeWhile p <:+ xs.filter p := by
  have parts : (xs.rdropWhile p ++ xs.rtakeWhile p).filter p = xs.filter p :=
    congrArg (filter p) rdropWhile_append_rtakeWhile
  have last : (xs.rtakeWhile p).filter p = xs.rtakeWhile p :=
    filter_eq_self.mpr fun _ member => mem_rtakeWhile_imp member
  rw [filter_append, last] at parts
  exact ⟨_, parts⟩

end

end MidnightIndexer.Lib.Surplus
