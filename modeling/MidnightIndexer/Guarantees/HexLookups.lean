import MidnightIndexer.Source.SpoQueries

/-!
# Hexadecimal ids with and without their mark

A text of hexadecimal digits, bare or behind `0x` or `0X`, and what the two normalisations
and the queries make of it. The second strip falls back to the whole input, so it undoes the
first: behind `0x` nothing is stripped at all. The list compares the names, tickers and
homepages with the search as it was given, whatever stands before the digits.
-/

namespace MidnightIndexer.Guarantees.HexLookups

open Lib List
open Source.IndexerApi
open Source.SpoIndexer (StakeStorage Text)

structure HexText where
  chars : Text
  nonempty : chars ≠ []
  even : chars.length % 2 = 0
  short : chars.length ≤ 256
  digits : ∀ c ∈ chars, isAsciiHexdigit c = true

/-- What may stand before them. -/
inductive Mark where
  | bare | lower | upper
  deriving DecidableEq, Repr

def Mark.text : Mark → Text
  | .bare => []
  | .lower => ['0', 'x']
  | .upper => ['0', 'X']

def marked (mark : Mark) (h : HexText) : Text := mark.text ++ h.chars

def lowerDigits (h : HexText) : Text := toAsciiLowercase h.chars

variable {Saturation κ : Type} [LinearOrder κ]

/-- The marked digits are normalised to the lower-case ones and answered like the bare ones. -/
structure ReadAsBare (ilike : Text → Text → Bool) (collate : Text → κ) (backend : Sql.Backend)
    (db : StakeStorage Saturation) (mark : Mark) (h : HexText) : Prop where
  api : normalizeHex (marked mark h) = lowerDigits h
  apiTwice : normalizeHex (normalizeHex (marked mark h)) = normalizeHex (marked mark h)
  storage : Storage.normalizeHex (marked mark h) = some (lowerDigits h)
  storageTwice : (Storage.normalizeHex (marked mark h)).bind Storage.normalizeHex =
    Storage.normalizeHex (marked mark h)
  identity : spoIdentityByPoolId db (marked mark h) = spoIdentityByPoolId db h.chars
  metadata : poolMetadata db (marked mark h) = poolMetadata db h.chars
  spo : spoByPoolId db (marked mark h) = spoByPoolId db h.chars
  composite : spoCompositeByPoolId backend db (marked mark h) =
    spoCompositeByPoolId backend db h.chars
  performance : ∀ limit offset, spoPerformanceBySpoSk backend db (marked mark h) limit offset =
    spoPerformanceBySpoSk backend db h.chars limit offset
  selected : ∀ row ∈ spoListRows db,
    selectsRow ilike (some (marked mark h)) row = selectsRow ilike (some h.chars) row
  list : ∀ limit offset,
    getSpoList ilike backend collate db limit offset (some (marked mark h)) =
      getSpoList ilike backend collate db limit offset (some h.chars)

/-! ## The strips -/

variable {c : Char}

theorem digit_ne_mark (digit : isAsciiHexdigit c = true) : c ≠ 'x' ∧ c ≠ 'X' := by
  constructor
  · rintro rfl
    exact absurd digit (by decide)
  · rintro rfl
    exact absurd digit (by decide)

theorem stripPrefix_digits {mark : Char} (letter : mark = 'x' ∨ mark = 'X') {chars : Text}
    (digits : ∀ c ∈ chars, isAsciiHexdigit c = true) : stripPrefix ['0', mark] chars = none := by
  unfold stripPrefix
  rw [if_neg]
  intro starts
  obtain ⟨rest, rfl⟩ := isPrefixOf_iff_prefix.mp starts
  have other := digit_ne_mark (digits mark (by simp))
  rcases letter with rfl | rfl
  · exact other.1 rfl
  · exact other.2 rfl

theorem strippedHex_digits {chars : Text} (digits : ∀ c ∈ chars, isAsciiHexdigit c = true) :
    strippedHex chars = chars := by
  rw [strippedHex, stripPrefix_digits (.inl rfl) digits, Option.getD_none,
    stripPrefix_digits (.inr rfl) digits, Option.getD_none]

theorem stripPrefix_append (start rest : Text) : stripPrefix start (start ++ rest) = some rest := by
  rw [stripPrefix, if_pos (List.isPrefixOf_iff_prefix.mpr (prefix_append start rest)), drop_left]

/-- Behind `0X` the digits are left, behind `0x` everything. -/
theorem strippedHex_marked (mark : Mark) (h : HexText) : strippedHex (marked mark h) =
    if mark = .lower then marked mark h else h.chars := by
  cases mark with
  | bare => exact strippedHex_digits h.digits
  | lower =>
    have first : stripPrefix ['0', 'x'] (marked .lower h) = some h.chars := stripPrefix_append _ _
    rw [strippedHex, first, Option.getD_some, stripPrefix_digits (.inr rfl) h.digits,
      Option.getD_none, if_pos rfl]
  | upper =>
    have first : stripPrefix ['0', 'x'] (marked .upper h) = none := rfl
    have second : stripPrefix ['0', 'X'] (marked .upper h) = some h.chars := stripPrefix_append _ _
    rw [strippedHex, first, Option.getD_none, second, Option.getD_some, if_neg (by decide)]

/-! ## The digits -/

theorem digit_mem (digit : isAsciiHexdigit c = true) : c ∈ "0123456789abcdefABCDEF".toList := by
  simp only [isAsciiHexdigit, Bool.or_eq_true, Bool.and_eq_true, decide_eq_true_eq, Char.le_def,
    UInt32.le_iff_toNat_le] at digit
  have bounds : (48 ≤ c.toNat ∧ c.toNat ≤ 57 ∨ 97 ≤ c.toNat ∧ c.toNat ≤ 102) ∨
      65 ≤ c.toNat ∧ c.toNat ≤ 70 := digit
  have listed : ∀ n, n < 103 → ((48 ≤ n ∧ n ≤ 57 ∨ 97 ≤ n ∧ n ≤ 102) ∨ 65 ≤ n ∧ n ≤ 70) →
      Char.ofNat n ∈ "0123456789abcdefABCDEF".toList := by
    decide
  rw [← Char.ofNat_toNat c]
  exact listed c.toNat (by omega) bounds

theorem toLower_digit (digit : isAsciiHexdigit c = true) :
    isAsciiHexdigit c.toLower = true ∧ c.toLower.toLower = c.toLower := by
  have each : "0123456789abcdefABCDEF".toList.all (fun c =>
      isAsciiHexdigit c.toLower && c.toLower.toLower == c.toLower) = true := by
    decide +kernel
  simpa using all_eq_true.mp each c (digit_mem digit)

def HexText.lower (h : HexText) : HexText where
  chars := lowerDigits h
  nonempty := by simpa [lowerDigits, toAsciiLowercase] using h.nonempty
  even := by simpa [lowerDigits, toAsciiLowercase] using h.even
  short := by simpa [lowerDigits, toAsciiLowercase] using h.short
  digits := by
    intro c member
    obtain ⟨d, known, rfl⟩ := List.mem_map.mp member
    exact (toLower_digit (h.digits d known)).1

theorem lowerDigits_lower (h : HexText) : lowerDigits h.lower = lowerDigits h := by
  have same : ∀ c ∈ h.chars, c.toLower.toLower = c.toLower :=
    fun c member => (toLower_digit (h.digits c member)).2
  change (h.chars.map Char.toLower).map Char.toLower = h.chars.map Char.toLower
  rw [map_map]
  exact map_congr_left same

/-! ## The normalisations -/

theorem normalizeHex_marked {mark : Mark} (stripped : mark ≠ .lower) (h : HexText) :
    normalizeHex (marked mark h) = lowerDigits h := by
  rw [normalizeHex, strippedHex_marked, if_neg stripped]
  rfl

theorem storage_normalizeHex_marked {mark : Mark} (stripped : mark ≠ .lower) (h : HexText) :
    Storage.normalizeHex (marked mark h) = some (lowerDigits h) := by
  have given : (marked mark h).isEmpty = false := by
    rw [marked, isEmpty_eq_false_iff]
    exact append_ne_nil_of_right_ne_nil _ h.nonempty
  have fits : ¬(h.chars.length % 2 ≠ 0 ∨ 256 < h.chars.length) := by
    have even := h.even
    have short := h.short
    omega
  have digits : h.chars.all isAsciiHexdigit = true := all_eq_true.mpr h.digits
  rw [Storage.normalizeHex, given, if_neg Bool.false_ne_true, strippedHex_marked, if_neg stripped,
    if_neg fits, digits, Bool.not_true, if_neg Bool.false_ne_true]
  rfl

/-- Behind `0x` the API keeps the mark. -/
theorem normalizeHex_lower_ne (h : HexText) : normalizeHex (marked .lower h) ≠ lowerDigits h := by
  rw [normalizeHex, strippedHex_marked, if_pos rfl]
  intro same
  have lengths := congrArg length same
  simp only [marked, Mark.text, lowerDigits, toAsciiLowercase, length_map,
    length_append, length_cons, length_nil] at lengths
  omega

/-! ## The queries -/

/-- For every database and every id of hexadecimal digits: an id behind a mark is normalised
and answered as the bare one exactly if the mark is not `0x` and the list finds no pool by its
name, ticker or homepage with the one search only. -/
theorem read_as_bare_iff (ilike : Text → Text → Bool) (collate : Text → κ)
    (backend : Sql.Backend) (db : StakeStorage Saturation) (mark : Mark) (h : HexText) :
    ReadAsBare ilike collate backend db mark h ↔
      mark ≠ .lower ∧ ∀ row ∈ spoListRows db, matchesKeys ilike (lowerDigits h) row = false →
        matchesMetadata ilike (marked mark h) row = matchesMetadata ilike h.chars row := by
  have bare : Mark.bare ≠ .lower := by decide
  have bare_hex : searchHex h.chars = lowerDigits h := by
    rw [searchHex, ← show marked .bare h = h.chars from rfl, storage_normalizeHex_marked bare]
    rfl
  constructor
  · intro reads
    have stripped : mark ≠ .lower := by
      rintro rfl
      exact normalizeHex_lower_ne h reads.api
    refine ⟨stripped, fun row member unmatched => ?_⟩
    have same := reads.selected row member
    have marked_hex : searchHex (marked mark h) = lowerDigits h := by
      rw [searchHex, storage_normalizeHex_marked stripped]
      rfl
    simpa only [selectsRow, Option.all_some, marked_hex, bare_hex, unmatched, Bool.or_false]
      using same
  · rintro ⟨stripped, texts⟩
    have api := normalizeHex_marked stripped h
    have storage := storage_normalizeHex_marked stripped h
    have same : normalizeHex (marked mark h) = normalizeHex h.chars :=
      api.trans (normalizeHex_marked bare h).symm
    have marked_hex : searchHex (marked mark h) = lowerDigits h := by
      rw [searchHex, storage]
      rfl
    have selected : ∀ row ∈ spoListRows db,
        selectsRow ilike (some (marked mark h)) row = selectsRow ilike (some h.chars) row := by
      intro row member
      simp only [selectsRow, Option.all_some, marked_hex, bare_hex]
      cases keys : matchesKeys ilike (lowerDigits h) row with
      | true => rw [Bool.or_true, Bool.or_true]
      | false => rw [texts row member keys]
    exact {
      api := api
      apiTwice := by
        rw [api]
        exact (normalizeHex_marked bare h.lower).trans (lowerDigits_lower h)
      storage := storage
      storageTwice := by
        rw [storage]
        exact (storage_normalizeHex_marked bare h.lower).trans (congrArg some (lowerDigits_lower h))
      identity := by rw [spoIdentityByPoolId, same, spoIdentityByPoolId]
      metadata := by rw [poolMetadata, same, poolMetadata]
      spo := by rw [spoByPoolId, same, spoByPoolId]
      composite := by rw [spoCompositeByPoolId, same, spoCompositeByPoolId]
      performance := fun limit offset => by
        rw [spoPerformanceBySpoSk, same, spoPerformanceBySpoSk]
      selected := selected
      list := fun limit offset => by
        rw [getSpoList, getSpoList, List.filter_congr selected] }

/-! ## One pool -/

/-- `LIKE` without regard to case, for a pattern whose only wildcards are its two ends. -/
def containsText (pattern text : Text) : Bool :=
  let part := toAsciiLowercase (pattern.drop 1).dropLast
  (toAsciiLowercase text).tails.any part.isPrefixOf

def storedPool : StakeStorage Unit where
  epochs := []
  poolMetadata := [⟨⟨"ab".toList, "ab".toList, [], [], [], []⟩, none⟩]
  identities := [⟨"c1".toList, "c1".toList, "ab".toList, "d1".toList, "e1".toList⟩]
  memberships := []
  performance := []
  history := []
  snapshots := [⟨⟨none, none, none, none, none, none⟩, "ab".toList, 0⟩]
  stakeHistory := []
  cursor := none
  poolIdsUnique := List.nodup_singleton _

/-- Behind `0x` both normalisations keep the mark, and neither the identity of the pool nor
its row of the list is found. -/
theorem lower_mark_kept :
    normalizeHex "0xab".toList = "0xab".toList ∧
      Storage.normalizeHex "0xab".toList = none ∧
      (spoIdentityByPoolId storedPool "ab".toList).isSome = true ∧
      spoIdentityByPoolId storedPool "0xab".toList = none ∧
      (getSpoList containsText .postgres List.length storedPool 20 0 (some "ab".toList)).map
        List.length = .ok 1 ∧
      getSpoList containsText .postgres List.length storedPool 20 0 (some "0xab".toList) =
        .ok [] := by
  decide +kernel

end MidnightIndexer.Guarantees.HexLookups
