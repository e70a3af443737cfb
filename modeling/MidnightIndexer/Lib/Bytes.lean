import Mathlib.Algebra.Order.Ring.Int
import Mathlib.Data.List.DropRight

/-!
# Byte strings: little-endian numbers, slices and stripped zeros

A number format of fixed width, reads at an offset, and the loss of trailing
zero bytes. What was stripped is restored by padding to the old length, so the
only question about a stripped string is how long it still is.
-/

namespace MidnightIndexer.Lib.Bytes

open List

/-- The number that the bytes encode, low byte first. -/
def leNat : List UInt8 → Nat
  | [] => 0
  | byte :: rest => byte.toNat + 256 * leNat rest

/-- Split off a little-endian number of the given width. -/
def takeLe (width : Nat) (bytes : List UInt8) : Option (Nat × List UInt8) :=
  if width ≤ bytes.length then some (leNat (bytes.take width), bytes.drop width) else none

/-- The low bytes of a number, low byte first. -/
def leBytes : Nat → Nat → List UInt8
  | 0, _ => []
  | width + 1, n => UInt8.ofNat n :: leBytes width (n / 256)

@[simp] theorem leBytes_length (width n : Nat) : (leBytes width n).length = width := by
  induction width generalizing n with
  | zero => rfl
  | succ width ih => simp [leBytes, ih]

theorem leNat_leBytes (width n : Nat) : leNat (leBytes width n) = n % 256 ^ width := by
  induction width generalizing n with
  | zero => simp [leBytes, leNat, Nat.mod_one]
  | succ width ih =>
    have low : (UInt8.ofNat n).toNat = n % 256 := UInt8.toNat_ofNat'
    rw [leBytes, leNat, ih, low, Nat.pow_succ, Nat.mul_comm (256 ^ width), Nat.mod_mul]

theorem leNat_lt (bytes : List UInt8) : leNat bytes < 256 ^ bytes.length := by
  induction bytes with
  | nil => decide
  | cons byte rest ih =>
    have small : byte.toNat < 256 := byte.toNat_lt
    rw [leNat, length_cons, Nat.pow_succ]
    omega

theorem leBytes_leNat (bytes : List UInt8) : leBytes bytes.length (leNat bytes) = bytes := by
  induction bytes with
  | nil => rfl
  | cons byte rest ih =>
    have small : byte.toNat < 256 := byte.toNat_lt
    have low : UInt8.ofNat (byte.toNat + 256 * leNat rest) = byte := by
      apply UInt8.toNat_inj.mp
      rw [UInt8.toNat_ofNat']
      omega
    have high : (byte.toNat + 256 * leNat rest) / 256 = leNat rest := by omega
    rw [leNat, length_cons, leBytes, low, high, ih]

theorem foldl_reverse_leNat (bytes : List UInt8) :
    bytes.reverse.foldl (fun value byte => value * 256 + byte.toNat) 0 = leNat bytes := by
  rw [foldl_reverse]
  induction bytes with
  | nil => rfl
  | cons byte rest ih =>
    rw [foldr_cons, ih, leNat]
    omega

variable {width : Nat} {bytes : List UInt8}

/-- Splitting off a number reads back what was encoded, and only that. -/
theorem takeLe_eq_some_iff {n : Nat} {rest : List UInt8} : takeLe width bytes = some (n, rest) ↔
      n < 256 ^ width ∧ bytes = leBytes width n ++ rest := by
  unfold takeLe
  constructor
  · intro taken
    split at taken
    next enough =>
      obtain ⟨rfl, rfl⟩ := Prod.mk.inj (Option.some.inj taken)
      have length : (bytes.take width).length = width := length_take_of_le enough
      have bound := leNat_lt (bytes.take width)
      have encoded := leBytes_leNat (bytes.take width)
      rw [length] at bound encoded
      exact ⟨bound, by rw [encoded, take_append_drop]⟩
    next => cases taken
  · rintro ⟨fits, rfl⟩
    have first : (leBytes width n ++ rest).take width = leBytes width n :=
      take_left' (leBytes_length width n)
    have last : (leBytes width n ++ rest).drop width = rest :=
      drop_left' (leBytes_length width n)
    rw [if_pos (by simp), first, last, leNat_leBytes, Nat.mod_eq_of_lt fits]

theorem takeLe_eq_none_iff : takeLe width bytes = none ↔ bytes.length < width := by
  unfold takeLe
  split <;> simp <;> omega

theorem leNat_zeros (zeros : ∀ byte ∈ bytes, byte = 0) : leNat bytes = 0 := by
  induction bytes with
  | nil => rfl
  | cons byte rest ih =>
    rw [leNat, zeros byte (by simp), ih fun other member => zeros other (by simp [member])]
    rfl

theorem leBytes_zero (width : Nat) : ∀ byte ∈ leBytes width 0, byte = 0 := by
  induction width with
  | zero =>
    nofun
  | succ width ih =>
    intro byte member
    rcases mem_cons.mp member with rfl | later
    · rfl
    · exact ih byte later

/-- A number that fits its width has a byte other than zero unless it is zero. -/
theorem leBytes_nonzero_iff {n : Nat} (fits : n < 256 ^ width) :
    (∃ byte ∈ leBytes width n, byte ≠ 0) ↔ n ≠ 0 := by
  constructor
  · rintro ⟨byte, member, nonzero⟩ rfl
    exact nonzero (leBytes_zero width byte member)
  · intro nonzero
    by_contra none_left
    push Not at none_left
    have value := leNat_leBytes width n
    rw [leNat_zeros none_left, Nat.mod_eq_of_lt fits] at value
    exact nonzero value.symm

/-! ## Slices -/

/-- `bytes.get(offset..offset + len)`. -/
def slice (bytes : List UInt8) (offset len : Nat) : Option (List UInt8) :=
  if offset + len ≤ bytes.length then some ((bytes.drop offset).take len) else none

theorem slice_skip {before : List UInt8} (rest : List UInt8) {offset : Nat}
    (past : before.length ≤ offset) (len : Nat) :
    slice (before ++ rest) offset len = slice rest (offset - before.length) len := by
  unfold slice
  rw [drop_append, drop_eq_nil_of_le past, nil_append, length_append]
  exact if_congr (by omega) rfl rfl

theorem slice_first (field rest : List UInt8) :
    slice (field ++ rest) 0 field.length = some field := by
  simp [slice]

theorem slice_cons (byte : UInt8) (rest : List UInt8) (offset len : Nat) :
    slice (byte :: rest) (offset + 1) len = slice rest offset len :=
  @slice_skip [byte] rest (offset + 1) (Nat.le_add_left 1 offset) len

/-! ## Trailing zeros -/

def stripZeros (bytes : List UInt8) : List UInt8 := bytes.rdropWhile (· == 0)

theorem stripZeros_length_le (bytes : List UInt8) : (stripZeros bytes).length ≤ bytes.length :=
  (List.rdropWhile_prefix _ bytes).length_le

theorem stripZeros_concat_zero (front : List UInt8) :
    stripZeros (front ++ [0]) = stripZeros front :=
  rdropWhile_concat_pos _ _ _ rfl

theorem stripZeros_concat_ne (front : List UInt8) {byte : UInt8} (nonzero : byte ≠ 0) :
    stripZeros (front ++ [byte]) = front ++ [byte] :=
  rdropWhile_concat_neg _ _ _ (by simpa using nonzero)

/-- What was stripped is zeros, so padding restores it. -/
theorem stripZeros_pad (bytes : List UInt8) :
    stripZeros bytes ++ replicate (bytes.length - (stripZeros bytes).length) 0 = bytes := by
  induction bytes using reverseRecOn with
  | nil => rfl
  | append_singleton front byte ih =>
    by_cases zero : byte = 0
    · subst zero
      have shorter := stripZeros_length_le front
      have count : (front ++ [(0 : UInt8)]).length - (stripZeros front).length =
          (front.length - (stripZeros front).length) + 1 := by
        rw [length_append, length_singleton]
        omega
      rw [stripZeros_concat_zero, count, replicate_succ', ← append_assoc, ih]
    · rw [stripZeros_concat_ne front zero, Nat.sub_self, replicate_zero, append_nil]

theorem covers_concat_iff (front : List UInt8) (last : UInt8) (tail : List UInt8) :
    front.length + 1 ≤ (stripZeros (front ++ [last] ++ tail)).length ↔
      last ≠ 0 ∨ ∃ byte ∈ tail, byte ≠ 0 := by
  induction tail using reverseRecOn with
  | nil =>
    rw [append_nil]
    by_cases zero : last = 0
    · subst zero
      have shorter := stripZeros_length_le front
      rw [stripZeros_concat_zero]
      constructor
      · intro long
        omega
      · intro impossible
        simp at impossible
    · simp [stripZeros_concat_ne front zero, zero]
  | append_singleton tail byte ih =>
    rw [← append_assoc]
    by_cases zero : byte = 0
    · subst zero
      rw [stripZeros_concat_zero, ih]
      simp
    · rw [stripZeros_concat_ne _ zero]
      constructor
      · intro _
        exact .inr ⟨byte, by simp, zero⟩
      · intro _
        simp only [length_append, length_singleton]
        omega

/-- A stripped string still covers a first part exactly when that part does not
end in zero or something after it is not zero. -/
theorem covers_iff {head : List UInt8} (nonempty : head ≠ []) (tail : List UInt8) :
    head.length ≤ (stripZeros (head ++ tail)).length ↔
      head.getLast? ≠ some 0 ∨ ∃ byte ∈ tail, byte ≠ 0 := by
  have covers := covers_concat_iff head.dropLast (head.getLast nonempty) tail
  rw [dropLast_append_getLast, length_dropLast,
    Nat.sub_add_cancel (length_pos_iff.mpr nonempty)] at covers
  rw [covers, getLast?_eq_some_getLast nonempty]
  simp

end MidnightIndexer.Lib.Bytes
