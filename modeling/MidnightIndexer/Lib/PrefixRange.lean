import Mathlib.Algebra.Order.Ring.Int
import Mathlib.Data.List.Basic

/-!
# Prefixes as ranges of byte strings

Byte columns are compared byte by byte and a proper prefix is the smaller one,
which is the order of lists. The strings with a given prefix form a range of this
order, and its end is the prefix with the last byte counted up. That is possible
unless the byte is 255; the string that follows the prefix immediately is the
prefix with a zero appended, and the range up to it holds nothing else.
-/

namespace MidnightIndexer.Lib.PrefixRange

open List

/-- `lower ≤ bytes < upper`. -/
def InRange (lower upper bytes : List UInt8) : Prop := lower ≤ bytes ∧ bytes < upper

instance (lower upper bytes : List UInt8) : Decidable (InRange lower upper bytes) :=
  inferInstanceAs (Decidable (lower ≤ bytes ∧ bytes < upper))

variable {bytes : List UInt8}

/-- A first byte that both bounds share is the first byte of the range. -/
theorem inRange_cons {first : UInt8} {lower upper : List UInt8} :
    InRange (first :: lower) (first :: upper) bytes ↔
      ∃ rest, bytes = first :: rest ∧ InRange lower upper rest := by
  cases bytes with
  | nil => simp [InRange]
  | cons byte bytes =>
    simp only [InRange, ← List.not_lt, List.cons_lt_cons_iff]
    constructor
    · intro inside
      rcases inside.2 with smaller | same
      · exact absurd (.inl smaller) inside.1
      · obtain ⟨rfl, below⟩ := same
        exact ⟨bytes, rfl, by simpa using inside.1, below⟩
    · intro inside
      obtain ⟨rest, shape, above, below⟩ := inside
      obtain ⟨rfl, rfl⟩ := List.cons.inj shape
      exact ⟨by simpa using above, .inr ⟨rfl, below⟩⟩

/-- The range up to the prefix with its last byte counted up. -/
theorem inRange_succ_iff {front : List UInt8} {last : UInt8} (room : last < 255) :
    InRange (front ++ [last]) (front ++ [last + 1]) bytes ↔ front ++ [last] <+: bytes := by
  induction front generalizing bytes with
  | nil =>
    cases bytes with
    | nil => simp [InRange]
    | cons byte rest =>
      have between : ¬ byte < last ∧ byte < last + 1 ↔ last = byte := by
        rw [UInt8.lt_iff_toNat_lt, UInt8.lt_iff_toNat_lt, ← UInt8.toNat_inj, UInt8.toNat_add]
        rw [UInt8.lt_iff_toNat_lt] at room
        simp only [UInt8.reduceToNat] at room ⊢
        omega
      rw [InRange, ← List.not_lt]
      simpa [cons_lt_cons_iff] using between
  | cons first front ih =>
    rw [cons_append, cons_append, inRange_cons]
    constructor
    · rintro ⟨rest, rfl, inside⟩
      exact cons_prefix_cons.mpr ⟨rfl, ih.mp inside⟩
    · intro starts
      obtain ⟨rest, rfl, later⟩ := cons_prefix_iff.mp starts
      exact ⟨rest, rfl, ih.mpr later⟩

theorem inRange_zero_iff {lower : List UInt8} :
    InRange lower (lower ++ [0]) bytes ↔ bytes = lower := by
  induction lower generalizing bytes with
  | nil =>
    cases bytes with
    | nil => simp [InRange]
    | cons byte rest =>
      rw [InRange, ← List.not_lt]
      simp [cons_lt_cons_iff, UInt8.lt_iff_toNat_lt]
  | cons first lower ih =>
    rw [cons_append, inRange_cons]
    constructor
    · rintro ⟨rest, rfl, inside⟩
      rw [ih.mp inside]
    · rintro rfl
      exact ⟨lower, rfl, ih.mpr rfl⟩

end MidnightIndexer.Lib.PrefixRange
