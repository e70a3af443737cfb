import Mathlib.Algebra.Order.Ring.Nat
import Mathlib.Data.List.Basic

/-!
# Bech32 and Bech32m strings

The string format of BIP-173 and BIP-350: a human-readable part, the separator `1`,
the payload in symbols of five bits and a checksum of six symbols. The two variants
differ in the constant of the checksum only.

Bytes are regrouped into symbols most significant bit first, with zero bits at the end.
Reading symbols back drops the bits that fill no byte, so more than one list of symbols
can stand for the same bytes; only the canonical one is written.
-/

namespace MidnightIndexer.Lib.Bech32

open List

/-! ## Regrouping bits -/

/-- The low bits of a number, most significant first. -/
def toBits : Nat → Nat → List Bool
  | 0, _ => []
  | width + 1, n => toBits width (n / 2) ++ [n % 2 == 1]

def ofBits (bits : List Bool) : Nat :=
  bits.foldl (fun n bit => 2 * n + bit.toNat) 0

@[simp] theorem toBits_length (width n : Nat) : (toBits width n).length = width := by
  induction width generalizing n with
  | zero => rfl
  | succ width ih => simp [toBits, ih]

theorem ofBits_concat (bits : List Bool) (bit : Bool) :
    ofBits (bits ++ [bit]) = 2 * ofBits bits + bit.toNat := by
  simp [ofBits]

theorem ofBits_toBits (width n : Nat) : ofBits (toBits width n) = n % 2 ^ width := by
  induction width generalizing n with
  | zero =>
    rw [Nat.pow_zero, Nat.mod_one]
    rfl
  | succ width ih =>
    rw [toBits, ofBits_concat, ih, Nat.pow_succ, Nat.mul_comm (2 ^ width) 2, Nat.mod_mul]
    rcases Nat.mod_two_eq_zero_or_one n with even | odd
    · simp [even]
    · simp [odd, Nat.add_comm]

variable {width : Nat} {bits : List Bool} {α : Type} {hrp s : List Char}

theorem toBits_ofBits (length : bits.length = width) : toBits width (ofBits bits) = bits := by
  induction width generalizing bits with
  | zero =>
    rw [length_eq_zero_iff.mp length]
    rfl
  | succ width ih =>
    rcases eq_nil_or_concat bits with rfl | ⟨front, bit, rfl⟩
    · cases length
    · rw [concat_eq_append, length_append] at length
      have half : (2 * ofBits front + bit.toNat) / 2 = ofBits front := by
        cases bit <;> simp only [Bool.toNat_true, Bool.toNat_false] <;> omega
      have low : ((2 * ofBits front + bit.toNat) % 2 == 1) = bit := by
        cases bit <;> simp
      rw [concat_eq_append, ofBits_concat, toBits, half, low, ih (Nat.succ.inj length)]

def groups (width : Nat) : Nat → List Bool → List (List Bool)
  | 0, _ => []
  | count + 1, bits => bits.take width :: groups width count (bits.drop width)

variable {bitsOf : α → List Bool}

/-- Bits that are written in groups are read back as these. -/
theorem groups_flatMap (length : ∀ x, (bitsOf x).length = width) (xs : List α) (rest : List Bool) :
    groups width xs.length (xs.flatMap bitsOf ++ rest) = xs.map bitsOf := by
  induction xs with
  | nil => rfl
  | cons x xs ih =>
    rw [flatMap_cons, length_cons, groups, append_assoc,
      take_left' (length x), drop_left' (length x), ih, map_cons]

theorem groups_length (width count : Nat) (bits : List Bool) :
    (groups width count bits).length = count := by
  induction count generalizing bits with
  | zero => rfl
  | succ count ih => simp [groups, ih]

theorem flatMap_groups {make : List Bool → α}
    (inverse : ∀ bits, bits.length = width → bitsOf (make bits) = bits) {count : Nat}
    (filled : width * count ≤ bits.length) :
    ((groups width count bits).map make).flatMap bitsOf = bits.take (width * count) := by
  induction count generalizing bits with
  | zero =>
    rw [Nat.mul_zero, take_zero]
    rfl
  | succ count ih =>
    rw [Nat.mul_succ] at filled
    have first : (bits.take width).length = width := by
      rw [length_take]
      omega
    have rest : width * count ≤ (bits.drop width).length := by
      rw [length_drop]
      omega
    rw [groups, map_cons, flatMap_cons, inverse _ first, ih rest, Nat.mul_succ,
      Nat.add_comm, take_add]

theorem flatMap_length (length : ∀ x, (bitsOf x).length = width) (xs : List α) :
    (xs.flatMap bitsOf).length = width * xs.length := by
  induction xs with
  | nil => rfl
  | cons x xs ih =>
    rw [flatMap_cons, length_append, length, ih, length_cons, Nat.mul_succ, Nat.add_comm]

/-! ## Symbols of five bits -/

abbrev Symbol := Fin 32

def symbolBits (symbol : Symbol) : List Bool := toBits 5 symbol.val

def byteBits (byte : UInt8) : List Bool := toBits 8 byte.toNat

def makeSymbol (bits : List Bool) : Symbol := Fin.ofNat 32 (ofBits bits)

def makeByte (bits : List Bool) : UInt8 := UInt8.ofNat (ofBits bits)

theorem symbolBits_length (symbol : Symbol) : (symbolBits symbol).length = 5 :=
  toBits_length 5 symbol.val

theorem byteBits_length (byte : UInt8) : (byteBits byte).length = 8 :=
  toBits_length 8 byte.toNat

theorem ofBits_toBits_of_lt {n : Nat} (small : n < 2 ^ width) : ofBits (toBits width n) = n :=
  (ofBits_toBits width n).trans (Nat.mod_eq_of_lt small)

theorem ofBits_lt (length : bits.length = width) : ofBits bits < 2 ^ width := by
  rw [← toBits_ofBits length, ofBits_toBits]
  exact Nat.mod_lt _ (Nat.two_pow_pos width)

theorem makeSymbol_symbolBits (symbol : Symbol) : makeSymbol (symbolBits symbol) = symbol := by
  apply Fin.ext
  rw [makeSymbol, symbolBits, ofBits_toBits_of_lt symbol.isLt]
  exact Nat.mod_eq_of_lt symbol.isLt

theorem makeByte_byteBits (byte : UInt8) : makeByte (byteBits byte) = byte := by
  rw [makeByte, byteBits, ofBits_toBits_of_lt byte.toNat_lt]
  exact UInt8.ofNat_toNat

theorem symbolBits_makeSymbol (length : bits.length = 5) : symbolBits (makeSymbol bits) = bits := by
  have kept : (makeSymbol bits).val = ofBits bits := Nat.mod_eq_of_lt (ofBits_lt length)
  rw [symbolBits, kept, toBits_ofBits length]

theorem byteBits_makeByte (length : bits.length = 8) : byteBits (makeByte bits) = bits := by
  have kept : (makeByte bits).toNat = ofBits bits := Nat.mod_eq_of_lt (ofBits_lt length)
  rw [byteBits, kept, toBits_ofBits length]

/-- The symbols of a byte string, the last one filled with zero bits. -/
def toSymbols (bytes : List UInt8) : List Symbol :=
  let bits := bytes.flatMap byteBits
  let count := (bits.length + 4) / 5
  (groups 5 count (bits ++ List.replicate (5 * count - bits.length) false)).map makeSymbol

/-- The bytes the symbols fill; what is left of them is dropped. -/
def toBytes (symbols : List Symbol) : List UInt8 :=
  let bits := symbols.flatMap symbolBits
  (groups 8 (bits.length / 8) bits).map makeByte

/-- The bits that fill no byte. -/
def padding (symbols : List Symbol) : List Bool :=
  let bits := symbols.flatMap symbolBits
  bits.drop (8 * (bits.length / 8))

/-- The padding is shorter than a symbol and zero. -/
def Canonical (symbols : List Symbol) : Prop :=
  (padding symbols).length < 5 ∧ ∀ bit ∈ padding symbols, bit = false

instance (symbols : List Symbol) : Decidable (Canonical symbols) :=
  inferInstanceAs (Decidable (_ ∧ _))

variable (bytes : List UInt8)

theorem toSymbols_length : (toSymbols bytes).length = (8 * bytes.length + 4) / 5 := by
  rw [toSymbols, length_map, groups_length, flatMap_length byteBits_length]

theorem flatMap_toSymbols : (toSymbols bytes).flatMap symbolBits = bytes.flatMap byteBits ++
      replicate (5 * ((8 * bytes.length + 4) / 5) - 8 * bytes.length) false := by
  have bits := flatMap_length byteBits_length bytes
  rw [toSymbols, bits, flatMap_groups (fun _ => symbolBits_makeSymbol), take_of_length_le]
  · rw [length_append, length_replicate, bits]
    omega
  · rw [length_append, length_replicate, bits]
    omega

variable {symbols : List Symbol}

theorem toBytes_of_bits {bytes : List UInt8} {rest : List Bool} (short : rest.length < 8)
    (bits : symbols.flatMap symbolBits = bytes.flatMap byteBits ++ rest) :
    toBytes symbols = bytes ∧ padding symbols = rest := by
  have length := flatMap_length byteBits_length bytes
  have count : (bytes.flatMap byteBits ++ rest).length / 8 = bytes.length := by
    rw [length_append, length]
    omega
  constructor
  · have read := groups_flatMap byteBits_length bytes rest
    rw [toBytes, bits, count, read, map_map]
    exact map_id'' makeByte_byteBits bytes
  · rw [padding, bits, count, drop_left' length]

/-- What is written is read back, and its padding is what was filled in. -/
theorem toBytes_toSymbols : toBytes (toSymbols bytes) = bytes ∧ padding (toSymbols bytes) =
      replicate (5 * ((8 * bytes.length + 4) / 5) - 8 * bytes.length) false := by
  refine toBytes_of_bits ?_ (flatMap_toSymbols bytes)
  rw [length_replicate]
  omega

theorem canonical_toSymbols : Canonical (toSymbols bytes) := by
  rw [Canonical, (toBytes_toSymbols bytes).2, length_replicate]
  constructor
  · omega
  · intro bit member
    exact eq_of_mem_replicate member

/-- Only canonical symbols are written again as they were read. -/
theorem toSymbols_toBytes_iff (symbols : List Symbol) :
    toSymbols (toBytes symbols) = symbols ↔ Canonical symbols := by
  constructor
  · intro same
    rw [← same]
    exact canonical_toSymbols (toBytes symbols)
  · rintro ⟨short, zero⟩
    have bits := flatMap_length symbolBits_length symbols
    have kept : (toBytes symbols).flatMap byteBits =
        (symbols.flatMap symbolBits).take (8 * ((symbols.flatMap symbolBits).length / 8)) := by
      rw [toBytes, flatMap_groups (fun _ => byteBits_makeByte)]
      omega
    have filled := flatMap_length byteBits_length (toBytes symbols)
    rw [kept, length_take] at filled
    rw [padding, length_drop] at short
    have count : (8 * (toBytes symbols).length + 4) / 5 = symbols.length := by omega
    -- The zero bits that are written are the padding that was read.
    have written : replicate (5 * symbols.length - 8 * (toBytes symbols).length) false =
        padding symbols := by
      refine (eq_replicate_iff.mpr ⟨?_, zero⟩).symm
      rw [padding, length_drop]
      omega
    have again : (toSymbols (toBytes symbols)).flatMap symbolBits =
        symbols.flatMap symbolBits := by
      rw [flatMap_toSymbols, count, written, kept, padding, take_append_drop]
    have whole := groups_flatMap symbolBits_length (toSymbols (toBytes symbols)) []
    rw [again, toSymbols_length, count, groups_flatMap symbolBits_length] at whole
    have same := congrArg (map makeSymbol) whole
    rw [map_map, map_map] at same
    calc toSymbols (toBytes symbols)
        = (toSymbols (toBytes symbols)).map (makeSymbol ∘ symbolBits) :=
          (map_id'' makeSymbol_symbolBits _).symm
      _ = symbols.map (makeSymbol ∘ symbolBits) := same.symm
      _ = symbols := map_id'' makeSymbol_symbolBits _

/-! ## The checksum -/

inductive Variant where
  | bech32 | bech32m
  deriving DecidableEq, Repr

def Variant.constant : Variant → Nat
  | .bech32 => 1
  | .bech32m => 0x2bc830a3

/-- The coefficients added for each bit that is shifted out. -/
def generator : List (Nat × Nat) :=
  [(25, 0x3b6a57b2), (26, 0x26508e6d), (27, 0x1ea119fa), (28, 0x3d4233dd), (29, 0x2a1462b3)]

def polymodStep (residue value : Nat) : Nat :=
  generator.foldl (fun next term => if residue.testBit term.1 then next ^^^ term.2 else next)
    (((residue &&& 0x1ffffff) <<< 5) ^^^ value)

def polymod (values : List Nat) : Nat := values.foldl polymodStep 1

/-- The values the human-readable part contributes to the checksum. -/
def hrpValues (hrp : List Char) : List Nat :=
  hrp.map (fun c => c.toNat >>> 5) ++ 0 :: hrp.map (fun c => c.toNat &&& 31)

/-- Six symbols, most significant first. -/
def checksum (variant : Variant) (hrp : List Char) (symbols : List Symbol) : List Symbol :=
  let residue := polymod (hrpValues hrp ++ symbols.map Fin.val ++ List.replicate 6 0) ^^^
    variant.constant
  [25, 20, 15, 10, 5, 0].map fun shift => Fin.ofNat 32 (residue >>> shift)

variable (variant : Variant)

theorem checksum_length (hrp : List Char) (symbols : List Symbol) :
    (checksum variant hrp symbols).length = 6 := rfl

theorem checksum_last_bit (hrp : List Char) (symbols : List Symbol) :
    ((checksum variant hrp symbols).getD 5 0).val.testBit 1 =
      ((polymod (hrpValues hrp ++ symbols.map Fin.val ++ replicate 6 0)).testBit 1 ^^
        variant.constant.testBit 1) := by
  have symbol : ((checksum variant hrp symbols).getD 5 0).val =
      (polymod (hrpValues hrp ++ symbols.map Fin.val ++ replicate 6 0) ^^^
        variant.constant) % 2 ^ 5 := rfl
  rw [symbol, Nat.testBit_mod_two_pow, Nat.testBit_xor]
  rfl

/-- No checksum is one of both variants: the constants differ in a bit of the last symbol. -/
theorem checksum_variant {v w : Variant} (same : checksum v hrp symbols = checksum w hrp symbols) :
    v = w := by
  have apart : ∀ v w : Variant, v.constant.testBit 1 = w.constant.testBit 1 → v = w := by
    intro v w
    cases v <;> cases w <;> decide
  have bits : v.constant.testBit 1 = w.constant.testBit 1 := by
    have last := checksum_last_bit v hrp symbols
    rw [same, checksum_last_bit] at last
    exact (Bool.xor_right_inj.mp last).symm
  exact apart v w bits

/-! ## The text -/

def alphabet : List Char :=
  ['q', 'p', 'z', 'r', 'y', '9', 'x', '8', 'g', 'f', '2', 't', 'v', 'd', 'w', '0',
   's', '3', 'j', 'n', '5', '4', 'k', 'h', 'c', 'e', '6', 'm', 'u', 'a', '7', 'l']

def charOf (symbol : Symbol) : Char := alphabet.get ⟨symbol.val, symbol.isLt⟩

def symbolOf (c : Char) : Option Symbol := (List.finRange 32).find? fun symbol => charOf symbol == c

theorem charOf_injective : ∀ a b : Symbol, charOf a = charOf b → a = b := by decide

theorem charOf_ne_separator : ∀ symbol : Symbol, charOf symbol ≠ '1' := by decide

theorem charOf_toLower : ∀ symbol : Symbol, (charOf symbol).toLower = charOf symbol := by decide

theorem symbolOf_charOf : ∀ symbol : Symbol, symbolOf (charOf symbol) = some symbol := by decide

theorem charOf_of_symbolOf {c : Char} {symbol : Symbol} (found : symbolOf c = some symbol) :
    charOf symbol = c := by
  simpa using find?_some found

/-- A string with the given payload and the checksum of the given variant. -/
def text (variant : Variant) (hrp : List Char) (symbols : List Symbol) : List Char :=
  hrp ++ '1' :: (symbols ++ checksum variant hrp symbols).map charOf

def encode (variant : Variant) (hrp : List Char) (bytes : List UInt8) : List Char :=
  text variant hrp (toSymbols bytes)

theorem text_injective {v w : Variant} {symbols' : List Symbol}
    (same : text v hrp symbols = text w hrp symbols') : v = w ∧ symbols = symbols' := by
  have tails := (cons.inj (append_cancel_left same)).2
  have payload := map_injective_iff.mpr charOf_injective tails
  obtain ⟨rfl, checks⟩ := append_inj' payload rfl
  exact ⟨checksum_variant checks, rfl⟩

theorem encode_length (hrp : List Char) (bytes : List UInt8) :
    (encode variant hrp bytes).length = hrp.length + 1 + (8 * bytes.length + 4) / 5 + 6 := by
  simp only [encode, text, length_append, length_cons, length_map,
    toSymbols_length, checksum_length]
  omega

/-! ## Reading strings -/

def splitLast : List Char → Option (List Char × List Char)
  | [] => none
  | c :: rest =>
    match splitLast rest with
    | some (front, back) => some (c :: front, back)
    | none => if c = '1' then some ([], rest) else none

theorem splitLast_none (absent : '1' ∉ s) : splitLast s = none := by
  induction s with
  | nil => rfl
  | cons c rest ih =>
    rw [mem_cons, not_or] at absent
    rw [splitLast, ih absent.2]
    exact if_neg (Ne.symm absent.1)

theorem splitLast_append (front : List Char) {back : List Char} (absent : '1' ∉ back) :
    splitLast (front ++ '1' :: back) = some (front, back) := by
  induction front with
  | nil =>
    rw [nil_append, splitLast, splitLast_none absent]
    rfl
  | cons c front ih => rw [cons_append, splitLast, ih]

theorem splitLast_some {front back : List Char} (split : splitLast s = some (front, back)) :
    s = front ++ '1' :: back := by
  induction s generalizing front with
  | nil => cases split
  | cons c rest ih =>
    rw [splitLast] at split
    rcases later : splitLast rest with _ | ⟨front', back'⟩
    · rw [later] at split
      obtain ⟨rfl, same⟩ := Option.ite_none_right_eq_some.mp split
      cases same
      rfl
    · rw [later] at split
      cases split
      rw [ih later, cons_append]

theorem mapM_symbolOf (symbols : List Symbol) :
    (symbols.map charOf).mapM symbolOf = some symbols := by
  induction symbols with
  | nil => rfl
  | cons symbol rest ih => simp [symbolOf_charOf, ih]

theorem map_charOf {chars : List Char} (found : chars.mapM symbolOf = some symbols) :
    symbols.map charOf = chars := by
  induction chars generalizing symbols with
  | nil =>
    cases found
    rfl
  | cons c rest ih =>
    rw [mapM_cons, Option.bind_eq_bind, Option.bind_eq_some_iff] at found
    obtain ⟨symbol, first, found⟩ := found
    rw [Option.bind_eq_bind, Option.bind_eq_some_iff] at found
    obtain ⟨later, tail, found⟩ := found
    cases found
    rw [map_cons, charOf_of_symbolOf first, ih tail]

/-- The human-readable part as it is written and the payload, of a string in one case with
the checksum of either variant. -/
def read (s : List Char) : Option (List Char × List Symbol) :=
  if s.map Char.toLower = s ∨ s.map Char.toUpper = s then do
    let (hrp, data) ← splitLast s
    let symbols ← (data.map Char.toLower).mapM symbolOf
    let payload := symbols.take (symbols.length - 6)
    let check := symbols.drop (symbols.length - 6)
    if check = checksum .bech32m (hrp.map Char.toLower) payload ∨
        check = checksum .bech32 (hrp.map Char.toLower) payload then
      some (hrp, payload)
    else none
  else none

theorem map_toLower_charOf (symbols : List Symbol) :
    (symbols.map charOf).map Char.toLower = symbols.map charOf := by
  rw [map_map]
  exact map_congr_left fun symbol _ => charOf_toLower symbol

theorem map_toLower_text (lowercase : hrp.map Char.toLower = hrp) (symbols : List Symbol) :
    (text variant hrp symbols).map Char.toLower = text variant hrp symbols := by
  rw [text, map_append, lowercase, map_cons, map_toLower_charOf]
  rfl

theorem read_text (lowercase : hrp.map Char.toLower = hrp)
    (symbols : List Symbol) : read (text variant hrp symbols) = some (hrp, symbols) := by
  have absent : '1' ∉ (symbols ++ checksum variant hrp symbols).map charOf := by
    intro member
    obtain ⟨symbol, _, same⟩ := mem_map.mp member
    exact charOf_ne_separator symbol same
  have count : (symbols ++ checksum variant hrp symbols).length - 6 = symbols.length := by
    rw [length_append, checksum_length]
    omega
  rw [read, if_pos (.inl (map_toLower_text variant lowercase symbols)), text,
    splitLast_append hrp absent]
  simp only [Option.bind_eq_bind, Option.bind_some, map_toLower_charOf, mapM_symbolOf, count,
    lowercase, take_left', drop_left']
  cases variant <;> simp

theorem text_of_read (found : read s = some (hrp, symbols)) :
    ∃ variant, s.map Char.toLower = text variant (hrp.map Char.toLower) symbols := by
  rw [read, Option.ite_none_right_eq_some] at found
  obtain ⟨_, found⟩ := found
  simp only [Option.bind_eq_bind, Option.bind_eq_some_iff] at found
  obtain ⟨⟨front, data⟩, split, all, mapped, found⟩ := found
  obtain ⟨checks, same⟩ := Option.ite_none_right_eq_some.mp found
  cases same
  have spelled : ∀ variant, all.drop (all.length - 6) =
      checksum variant (front.map Char.toLower) (all.take (all.length - 6)) →
      s.map Char.toLower = text variant (front.map Char.toLower) (all.take (all.length - 6)) := by
    intro variant check
    rw [text, ← check, take_append_drop, map_charOf mapped, splitLast_some split,
      map_append, map_cons]
    rfl
  rcases checks with check | check
  · exact ⟨.bech32m, spelled .bech32m check⟩
  · exact ⟨.bech32, spelled .bech32 check⟩

end MidnightIndexer.Lib.Bech32
