import Mathlib.Data.List.Range

/-!
# Segments that tile a range

A segment `(first, last)` stands for the indices from `first` on, `last` excluded.
Segments tile a range if each one begins where the one before has ended. Then the
indices they stand for are those of the range, each of them once and in order.
-/

namespace MidnightIndexer.Lib.Tiling

open List

abbrev Segment := Nat × Nat

def Tiles : Nat → List Segment → Nat → Prop
  | first, [], last => first = last
  | first, segment :: rest, last =>
    segment.1 = first ∧ segment.1 ≤ segment.2 ∧ Tiles segment.2 rest last

def indices (segments : List Segment) : List Nat :=
  segments.flatMap fun segment => List.range' segment.1 (segment.2 - segment.1)

variable {first middle last : Nat} {segments more : List Segment}

theorem Tiles.le (tiles : Tiles first segments last) : first ≤ last := by
  induction segments generalizing first with
  | nil => exact Nat.le_of_eq tiles
  | cons segment rest ih =>
    obtain ⟨same, grows, later⟩ := tiles
    have bound := ih later
    omega

theorem Tiles.append (front : Tiles first segments middle) (back : Tiles middle more last) :
    Tiles first (segments ++ more) last := by
  induction segments generalizing first with
  | nil =>
    rw [Tiles] at front
    rw [nil_append, front]
    exact back
  | cons segment rest ih =>
    obtain ⟨same, grows, later⟩ := front
    exact ⟨same, grows, ih later⟩

theorem Tiles.split (tiles : Tiles first (segments ++ more) last) :
    ∃ middle, Tiles first segments middle ∧ Tiles middle more last := by
  induction segments generalizing first with
  | nil => exact ⟨first, rfl, tiles⟩
  | cons segment rest ih =>
    obtain ⟨same, grows, later⟩ := tiles
    obtain ⟨middle, front, back⟩ := ih later
    exact ⟨middle, ⟨same, grows, front⟩, back⟩

/-- Of two segments the later one begins where the earlier one ends or above, with
nothing left out if they are next to each other. -/
theorem Tiles.pair {front between back : List Segment} {early late : Segment}
    (tiles : Tiles first (front ++ early :: (between ++ late :: back)) last) :
    early.1 ≤ early.2 ∧ early.2 ≤ late.1 ∧ (between = [] → early.2 = late.1) := by
  obtain ⟨_, _, _, grows, later⟩ := tiles.split
  obtain ⟨middle, inside, same, _, _⟩ := later.split
  have below := inside.le
  refine ⟨grows, by omega, fun empty => ?_⟩
  subst empty
  rw [Tiles] at inside
  omega

theorem Tiles.singleton (grows : first ≤ last) : Tiles first [(first, last)] last :=
  ⟨rfl, grows, rfl⟩

theorem mem_indices_singleton {segment : Segment} {index : Nat} :
    index ∈ indices [segment] ↔ segment.1 ≤ index ∧ index < segment.2 := by
  rw [indices, flatMap_singleton, mem_range'_1]
  omega

theorem Tiles.indices (tiles : Tiles first segments last) :
    indices segments = range' first (last - first) := by
  induction segments generalizing first with
  | nil =>
    rw [Tiles] at tiles
    rw [tiles, Nat.sub_self]
    rfl
  | cons segment rest ih =>
    obtain ⟨same, grows, later⟩ := tiles
    have bound := later.le
    have split : range' segment.1 (segment.2 - segment.1) ++ range' segment.2 (last - segment.2) =
        range' segment.1 (segment.2 - segment.1 + (last - segment.2)) := by
      rw [← range'_append_1, Nat.add_sub_of_le grows]
    rw [Tiling.indices, flatMap_cons, ← Tiling.indices, ih later, split, ← same]
    congr 1
    omega

end MidnightIndexer.Lib.Tiling
