import Mathlib.Algebra.Order.BigOperators.Group.List
import Mathlib.Algebra.Order.Group.Nat
import Mathlib.Algebra.Order.Ring.Int
import Mathlib.Data.List.Pairwise
import Mathlib.Data.List.Sort

/-!
# Query fragments: bound integers, `ORDER BY` and `LIMIT`

Both database engines see the same statements. An unsigned value is bound
through a wrapping cast to the signed column type, and the engines differ on a
negative `LIMIT` only: Postgres refuses the statement, SQLite reads it as no
limit at all.

A result page is the first rows of the ordered result. When keys are unique a
non-empty page is described by its last row alone (`mem_page_iff`): it holds
exactly the selected rows up to that row's key.
-/

namespace MidnightIndexer.Lib

open List

/-- The non-zero words that are bound as limits. -/
structure NonZeroUsize where
  val : Nat
  pos : 0 < val
  word : val < 2 ^ 64
  deriving DecidableEq

/-- The word `n`, or 1 where `n` is not one. -/
def NonZeroUsize.ofNat (n : Nat) : NonZeroUsize :=
  if word : 0 < n ∧ n < 2 ^ 64 then ⟨n, word.1, word.2⟩
  else ⟨1, Nat.one_pos, Nat.one_lt_two_pow (Nat.succ_ne_zero 63)⟩

structure NonZeroU32 where
  val : Nat
  pos : 0 < val
  word : val < 2 ^ 32
  deriving DecidableEq

def NonZeroU32.ofNat (n : Nat) : NonZeroU32 :=
  if word : 0 < n ∧ n < 2 ^ 32 then ⟨n, word.1, word.2⟩
  else ⟨1, Nat.one_pos, Nat.one_lt_two_pow (Nat.succ_ne_zero 31)⟩

namespace Sql

/-- Two's complement: the signed value of the low bits. -/
def toSigned (bits n : Nat) : Int :=
  if n % 2 ^ bits < 2 ^ (bits - 1) then ((n % 2 ^ bits : Nat) : Int)
  else ((n % 2 ^ bits : Nat) : Int) - 2 ^ bits

/-- `as i64` on an unsigned value. -/
def asI64 (n : Nat) : Int := toSigned 64 n

/-- `as i32` on an unsigned value. -/
def asI32 (n : Nat) : Int := toSigned 32 n

variable {n : Nat} {bound : Int}

theorem asI64_of_lt (small : n < 2 ^ 63) : asI64 n = n := by
  have reduced : n % 2 ^ 64 = n := Nat.mod_eq_of_lt (by omega)
  rw [asI64, toSigned, reduced, if_pos small]

theorem asI32_of_lt (small : n < 2 ^ 31) : asI32 n = n := by
  have reduced : n % 2 ^ 32 = n := Nat.mod_eq_of_lt (by omega)
  rw [asI32, toSigned, reduced, if_pos small]

/-- A cast value differs by whole words. -/
theorem asI32_dvd (n : Nat) : (2 ^ 32 : Int) ∣ asI32 n - n := by
  unfold asI32 toSigned
  split <;> omega

theorem sum_asI32_dvd (values : List Nat) :
    (2 ^ 32 : Int) ∣ (values.map asI32).sum - values.sum := by
  induction values with
  | nil => simp
  | cons value rest ih =>
    have first := asI32_dvd value
    rw [map_cons, sum_cons, sum_cons]
    omega

theorem sum_asI32_of_lt {values : List Nat} (small : ∀ value ∈ values, value < 2 ^ 31) :
    (values.map asI32).sum = values.sum := by
  induction values with
  | nil => rfl
  | cons value rest ih =>
    rw [map_cons, sum_cons, sum_cons, asI32_of_lt (small value mem_cons_self),
      ih fun later member => small later (mem_cons_of_mem value member), Int.natCast_add]

/-- A sum of cast values is a small number exactly if the sum of the values is. -/
theorem sum_asI32_eq_iff {values : List Nat} (word : values.sum < 2 ^ 32) (small : n < 2 ^ 31) :
    (values.map asI32).sum = (n : Int) ↔ values.sum = n := by
  constructor
  · intro same
    have words := sum_asI32_dvd values
    omega
  · intro same
    rw [sum_asI32_of_lt, same]
    intro value member
    have part := le_sum_of_mem member
    omega

theorem asI64_neg (large : 2 ^ 63 ≤ n) (word : n < 2 ^ 64) : asI64 n < 0 := by
  have reduced : n % 2 ^ 64 = n := Nat.mod_eq_of_lt word
  rw [asI64, toSigned, reduced, if_neg (not_lt.mpr large)]
  omega

theorem asI64_ne_zero (n : NonZeroUsize) : asI64 n.val ≠ 0 := by
  have positive := n.pos
  rcases Nat.lt_or_ge n.val (2 ^ 63) with small | large
  · rw [asI64_of_lt small]
    omega
  · exact ne_of_lt (asI64_neg large n.word)

theorem asI64_lt (n : Nat) : asI64 n < 2 ^ 63 := by
  unfold asI64 toSigned
  split <;> omega

/-- On one side of the sign the cast keeps the order. -/
theorem asI64_le_iff {m : Nat} (first : m < 2 ^ 64) (second : n < 2 ^ 64)
    (side : m < 2 ^ 63 ↔ n < 2 ^ 63) : asI64 m ≤ asI64 n ↔ m ≤ n := by
  unfold asI64 toSigned
  split <;> split <;> omega

/-- Across the sign it reverses it. -/
theorem asI64_le_iff_across {m : Nat} (first : m < 2 ^ 64) (second : n < 2 ^ 64)
    (side : ¬(m < 2 ^ 63 ↔ n < 2 ^ 63)) : asI64 m ≤ asI64 n ↔ ¬ m ≤ n := by
  unfold asI64 toSigned
  split <;> split <;> omega

inductive Backend where
  | postgres | sqlite
  deriving DecidableEq, Repr

inductive Error where
  | negativeLimit | uniqueViolation | rowNotFound | encode
  | protocol (message : String)
  deriving DecidableEq, Repr

universe u v

variable {ρ : Type u} {κ : Type v}

/-- `LIMIT` with a bound signed value. -/
def limit (backend : Backend) (bound : Int) (rows : List ρ) : Except Error (List ρ) :=
  if 0 ≤ bound then .ok (rows.take bound.toNat)
  else match backend with
    | .postgres => .error .negativeLimit
    | .sqlite => .ok rows

/-- `OFFSET` with a bound signed value; a negative one is refused by Postgres and none
for SQLite. -/
def offset (backend : Backend) (bound : Int) (rows : List ρ) : Except Error (List ρ) :=
  if 0 ≤ bound then .ok (rows.drop bound.toNat)
  else match backend with
    | .postgres => .error .negativeLimit
    | .sqlite => .ok rows

/-- `LIMIT .. OFFSET ..`. -/
def page (backend : Backend) (limitBound offsetBound : Int) (rows : List ρ) :
    Except Error (List ρ) := do
  let rest ← offset backend offsetBound rows
  limit backend limitBound rest

/-- `LEFT JOIN`: the rows that match, or one of `NULL`s. -/
def leftJoin (rows : List ρ) (joins : ρ → Bool) : List (Option ρ) :=
  if (rows.filter joins).isEmpty then [none] else (rows.filter joins).map some

/-- What a query may fail with that decodes its rows. -/
inductive ReadError where
  | refused (error : Error)
  | decode
  deriving DecidableEq, Repr

theorem offset_zero (backend : Backend) (rows : List ρ) : offset backend (asI64 0) rows = .ok rows :=
  rfl

variable {backend : Backend} {rows : List ρ} {row : ρ}

/-- A successful `LIMIT` keeps a prefix, of at least one row unless the bound
is zero or there is no row. -/
theorem limit_success {page : List ρ} (success : limit backend bound rows = .ok page) :
    ∃ n, page = rows.take n ∧ (bound ≠ 0 → 0 < n ∨ rows = []) := by
  unfold limit at success
  split at success
  · cases success
    exact ⟨bound.toNat, rfl, fun nonzero => .inl (by omega)⟩
  · cases backend with
    | postgres => cases success
    | sqlite =>
      cases success
      refine ⟨rows.length, by simp, fun _ => ?_⟩
      cases rows with
      | nil => exact .inr rfl
      | cons _ _ => exact .inl (by simp)

theorem limit_take (backend : Backend) (n : Nat) (rows : List ρ) :
    limit backend (n : Int) rows = .ok (rows.take n) := by
  unfold limit
  rw [if_pos (Int.natCast_nonneg n), Int.toNat_natCast]

theorem limit_all (backend : Backend) {bound : Nat} (word : bound < 2 ^ 63)
    (enough : rows.length ≤ bound) : limit backend (asI64 bound) rows = .ok rows := by
  rw [asI64_of_lt word, limit_take, take_of_length_le enough]

theorem offset_success {rest : List ρ} (success : offset backend bound rows = .ok rest) :
    ∃ n, rest = rows.drop n := by
  unfold offset at success
  split at success
  · cases success
    exact ⟨bound.toNat, rfl⟩
  · cases backend with
    | postgres => cases success
    | sqlite =>
      cases success
      exact ⟨0, rfl⟩

theorem mem_of_page {limitBound offsetBound : Int} {result : List ρ}
    (success : page backend limitBound offsetBound rows = .ok result) (member : row ∈ result) :
    row ∈ rows := by
  unfold page at success
  cases skipped : offset backend offsetBound rows with
  | error e =>
    rw [skipped] at success
    cases success
  | ok rest =>
    rw [skipped] at success
    obtain ⟨n, rfl⟩ := offset_success skipped
    obtain ⟨m, rfl, _⟩ := limit_success success
    exact mem_of_mem_drop (mem_of_mem_take member)

/-- The page that starts at the first row and has room for all. -/
theorem page_all (backend : Backend) (enough : rows.length ≤ bound) :
    page backend bound 0 rows = .ok rows := by
  have nonneg : 0 ≤ bound := (Int.natCast_nonneg _).trans enough
  change limit backend bound rows = .ok rows
  unfold limit
  rw [if_pos nonneg, take_of_length_le (Int.le_toNat nonneg |>.mpr enough)]

theorem leftJoin_length (rows : List ρ) (joins : ρ → Bool) :
    (leftJoin rows joins).length = max 1 (rows.filter joins).length := by
  unfold leftJoin
  split
  next none_joins =>
    rw [isEmpty_iff.mp none_joins]
    rfl
  next some_join =>
    have positive : 0 < (rows.filter joins).length :=
      length_pos_iff.mpr fun empty => some_join (isEmpty_iff.mpr empty)
    rw [length_map, max_eq_right positive]

/-- The row of `NULL`s is there if nothing joins. -/
theorem none_mem_leftJoin {joins : ρ → Bool} :
    none ∈ leftJoin rows joins ↔ rows.filter joins = [] := by
  unfold leftJoin
  split
  next none_joins => simpa using isEmpty_iff.mp none_joins
  next some_join =>
    have nonempty : rows.filter joins ≠ [] := fun empty => some_join (isEmpty_iff.mpr empty)
    simp only [mem_map, reduceCtorEq, and_false, exists_false, nonempty]

theorem some_mem_leftJoin {joins : ρ → Bool} :
    some row ∈ leftJoin rows joins ↔ row ∈ rows ∧ joins row = true := by
  unfold leftJoin
  split
  next none_joins =>
    have unmatched : row ∉ rows.filter joins := by
      rw [isEmpty_iff.mp none_joins]
      exact not_mem_nil
    simpa using unmatched
  next => simp

/-- The bounds that an engine accepts. -/
def Accepts (backend : Backend) (bound : NonZeroUsize) : Prop :=
  backend = .sqlite ∨ bound.val < 2 ^ 63

theorem limit_accepts {bound : NonZeroUsize} {page : List ρ}
    (success : limit backend (asI64 bound.val) rows = .ok page) : Accepts backend bound := by
  rcases Nat.lt_or_ge bound.val (2 ^ 63) with small | large
  · exact .inr small
  · have negative := asI64_neg large bound.word
    unfold limit at success
    rw [if_neg (not_le.mpr negative)] at success
    cases backend with
    | postgres => cases success
    | sqlite => exact .inl rfl

/-- An accepted bound keeps that many rows of any table that can exist. -/
theorem limit_newest {bound : NonZeroUsize} (accepts : Accepts backend bound)
    (few : rows.length ≤ 2 ^ 63) :
    limit backend (asI64 bound.val) rows = .ok (rows.take bound.val) := by
  rcases Nat.lt_or_ge bound.val (2 ^ 63) with small | large
  · rw [asI64_of_lt small, limit_take]
  · have negative := asI64_neg large bound.word
    unfold limit
    rw [if_neg (not_le.mpr negative), take_of_length_le (few.trans large)]
    rcases accepts with rfl | small
    · rfl
    · omega

section

variable [LinearOrder κ]

/-- `ORDER BY key`. -/
def orderBy (key : ρ → κ) (rows : List ρ) : List ρ :=
  rows.insertionSort (fun a b => key a ≤ key b)

/-- `ORDER BY key DESC`. -/
def orderByDesc (key : ρ → κ) (rows : List ρ) : List ρ :=
  orderBy (fun row => OrderDual.toDual (key row)) rows

variable {key : ρ → κ}

@[simp] theorem mem_orderBy {x : ρ} : x ∈ orderBy key rows ↔ x ∈ rows := mem_insertionSort _

theorem mem_orderByDesc {x : ρ} : x ∈ orderByDesc key rows ↔ x ∈ rows := mem_orderBy

theorem orderBy_perm (key : ρ → κ) (rows : List ρ) : (orderBy key rows).Perm rows :=
  perm_insertionSort _ rows

@[simp] theorem orderBy_eq_nil : orderBy key rows = [] ↔ rows = [] := by
  rw [← length_eq_zero_iff, (orderBy_perm key rows).length_eq, length_eq_zero_iff]

theorem orderBy_ordered (key : ρ → κ) (rows : List ρ) :
    (orderBy key rows).Pairwise (fun a b => key a ≤ key b) := by
  have total : Std.Total (fun a b : ρ => key a ≤ key b) := ⟨fun a b => le_total (key a) (key b)⟩
  have trans : IsTrans ρ (fun a b => key a ≤ key b) := ⟨fun _ _ _ => le_trans⟩
  exact pairwise_insertionSort (fun a b : ρ => key a ≤ key b) rows

theorem orderBy_strict (key : ρ → κ) (rows : List ρ) (unique : (rows.map key).Nodup) :
    (orderBy key rows).Pairwise (fun a b => key a < key b) := by
  have ordered := orderBy_ordered key rows
  have distinct : ((orderBy key rows).map key).Nodup :=
    ((orderBy_perm key rows).map key).nodup_iff.mpr unique
  exact (ordered.and (pairwise_map.mp distinct)).imp fun h => lt_of_le_of_ne h.1 h.2

/-- Under unique keys a strict order determines the result. -/
theorem orderBy_eq_of_perm {result : List ρ} (same : result.Perm rows)
    (strict : result.Pairwise (fun a b => key a < key b)) : orderBy key rows = result := by
  have unique : (rows.map key).Nodup := by
    rw [← (same.map key).nodup_iff, Nodup, pairwise_map]
    exact strict.imp ne_of_lt
  refine ((orderBy_perm key rows).trans same.symm).eq_of_pairwise ?_
    (orderBy_strict key rows unique) strict
  intro a b _ _ less greater
  exact absurd (less.trans greater) (lt_irrefl _)

/-- Rows with distinct keys are ordered alike, in whatever order they are found. -/
theorem orderBy_perm_eq {rows' : List ρ} (same : rows.Perm rows') (unique : (rows.map key).Nodup) :
    orderBy key rows = orderBy key rows' := by
  refine orderBy_eq_of_perm ((orderBy_perm key rows').trans same.symm) ?_
  exact orderBy_strict key rows' ((same.map key).nodup_iff.mp unique)

theorem orderByDesc_perm_eq {rows' : List ρ} (same : rows.Perm rows')
    (unique : (rows.map key).Nodup) : orderByDesc key rows = orderByDesc key rows' :=
  orderBy_perm_eq same unique

theorem orderBy_of_ordered (ordered : rows.Pairwise (fun a b => key a ≤ key b)) :
    orderBy key rows = rows :=
  ordered.insertionSort_eq

theorem orderedInsert_filter (ordered : rows.Pairwise (fun a b => key a ≤ key b)) (p : ρ → Bool)
    (kept : p row = true) : (rows.orderedInsert (fun a b => key a ≤ key b) row).filter p =
      (rows.filter p).orderedInsert (fun a b => key a ≤ key b) row := by
  induction rows with
  | nil => simp [kept]
  | cons first rest ih =>
    obtain ⟨above, ordered⟩ := pairwise_cons.mp ordered
    by_cases less : key row ≤ key first
    · rw [orderedInsert_cons, if_pos less, filter_cons_of_pos kept]
      cases remaining : (first :: rest).filter p with
      | nil => rfl
      | cons next later =>
        have member : next ∈ first :: rest :=
          (mem_filter.mp (remaining ▸ mem_cons_self)).1
        have further : key row ≤ key next := by
          rcases mem_cons.mp member with rfl | inside
          · exact less
          · exact less.trans (above next inside)
        rw [orderedInsert_cons, if_pos further]
    · rw [orderedInsert_cons, if_neg less]
      by_cases chosen : p first = true
      · rw [filter_cons_of_pos chosen, filter_cons_of_pos chosen,
          orderedInsert_cons, if_neg less, ih ordered]
      · rw [filter_cons_of_neg chosen, filter_cons_of_neg chosen, ih ordered]

/-- Rows can be left out before they are ordered or after. -/
theorem orderBy_filter (key : ρ → κ) (rows : List ρ) (p : ρ → Bool) :
    orderBy key (rows.filter p) = (orderBy key rows).filter p := by
  induction rows with
  | nil => rfl
  | cons row rest ih =>
    have ordered := orderBy_ordered key rest
    change _ = ((orderBy key rest).orderedInsert _ row).filter p
    by_cases kept : p row = true
    · rw [filter_cons_of_pos kept, orderedInsert_filter ordered p kept, ← ih]
      rfl
    · rw [filter_cons_of_neg kept, ih]
      rw [orderedInsert_eq_take_drop, filter_append, filter_cons_of_neg kept,
        ← filter_append, takeWhile_append_dropWhile]

theorem orderByDesc_head (unique : (rows.map key).Nodup) {top : ρ} (member : top ∈ rows)
    (highest : ∀ x ∈ rows, key x ≤ key top) : ∃ rest, orderByDesc key rows = top :: rest := by
  have strict := orderBy_strict (fun row => OrderDual.toDual (key row)) rows unique
  cases sorted : orderByDesc key rows with
  | nil => exact absurd (mem_orderByDesc.mpr member) (sorted ▸ not_mem_nil)
  | cons first rest =>
    rw [orderByDesc] at sorted
    rw [sorted, pairwise_cons] at strict
    have listed : top ∈ first :: rest := sorted ▸ mem_orderBy.mpr member
    rcases mem_cons.mp listed with rfl | later
    · exact ⟨rest, rfl⟩
    · have inside : first ∈ rows := mem_orderBy.mp (sorted ▸ mem_cons_self)
      exact absurd (strict.1 top later) (not_lt_of_ge (highest first inside))

variable (increasing : rows.Pairwise fun low high => key low < key high)

include increasing in
/-- Rows in increasing order: the last comes first in descending order. -/
theorem orderByDesc_head_of_increasing : (orderByDesc key rows).head? = rows.getLast? := by
  rcases eq_nil_or_concat rows with rfl | ⟨front, top, rfl⟩
  · rfl
  · rw [concat_eq_append] at increasing ⊢
    have unique : ((front ++ [top]).map key).Nodup :=
      pairwise_map.mpr (increasing.imp fun below => ne_of_lt below)
    have highest : ∀ row ∈ front ++ [top], key row ≤ key top := by
      intro row member
      rcases mem_append.mp member with old | new
      · exact le_of_lt ((pairwise_append.mp increasing).2.2 row old top (by simp))
      · rw [mem_singleton.mp new]
    obtain ⟨rest, sorted⟩ := orderByDesc_head unique (by simp) highest
    rw [sorted, head?_cons, getLast?_concat]

include increasing in
theorem orderBy_of_increasing : orderBy key rows = rows :=
  (increasing.imp le_of_lt).insertionSort_eq

include increasing in
theorem orderByDesc_of_increasing : orderByDesc key rows = rows.reverse := by
  refine orderBy_eq_of_perm (κ := κᵒᵈ) (reverse_perm rows) ?_
  rw [pairwise_reverse]
  exact increasing

theorem orderBy_head {first : ρ} (found : (orderBy key rows).head? = some first) :
    first ∈ rows ∧ ∀ x ∈ rows, key first ≤ key x := by
  have ordered := orderBy_ordered key rows
  obtain ⟨rest, sorted⟩ := head?_eq_some_iff.mp found
  rw [sorted, pairwise_cons] at ordered
  refine ⟨mem_orderBy.mp (sorted ▸ mem_cons_self), fun x member => ?_⟩
  have listed : x ∈ first :: rest := sorted ▸ mem_orderBy.mpr member
  rcases mem_cons.mp listed with rfl | later
  · exact le_refl _
  · exact ordered.1 x later

theorem orderByDesc_first {first : ρ} (found : (orderByDesc key rows).head? = some first) :
    first ∈ rows ∧ ∀ x ∈ rows, key x ≤ key first :=
  orderBy_head (κ := κᵒᵈ) found

/-- Ascending and descending order show the same keys only where all keys are equal. -/
theorem keys_eq_of_orders_agree
    (agree : (orderByDesc key rows).map key = (orderBy key rows).map key) :
    ∀ a ∈ rows, ∀ b ∈ rows, key a = key b := by
  have rising : ((orderBy key rows).map key).Pairwise (· ≤ ·) :=
    pairwise_map.mpr (orderBy_ordered key rows)
  have falling : ((orderBy key rows).map key).Pairwise (fun a b => b ≤ a) := by
    rw [← agree]
    exact pairwise_map.mpr (orderBy_ordered (fun row => OrderDual.toDual (key row)) rows)
  have constant : ((orderBy key rows).map key).Pairwise (· = ·) :=
    (rising.and falling).imp fun both => le_antisymm both.1 both.2
  intro a first b second
  exact constant.forall_of_forall (fun _ _ => rfl)
    (mem_map_of_mem (mem_orderBy.mpr first)) (mem_map_of_mem (mem_orderBy.mpr second))

/-- Rows of one key are found in the same order both ways. -/
theorem orderBy_of_keys_eq (same : ∀ a ∈ rows, ∀ b ∈ rows, key a = key b) :
    orderBy key rows = rows ∧ orderByDesc key rows = rows := by
  have equal : rows.Pairwise fun a b => key a = key b :=
    pairwise_of_forall_mem_list fun a first b second => same a first b second
  constructor
  · exact orderBy_of_ordered (equal.imp le_of_eq)
  · exact orderBy_of_ordered (κ := κᵒᵈ)
      (equal.imp fun keys => le_of_eq (congrArg OrderDual.toDual keys))

/-- A non-empty page holds exactly the selected rows up to its last key. -/
theorem mem_page_iff (unique : (rows.map key).Nodup) {last : ρ}
    (final : ((orderBy key rows).take n).getLast? = some last) (x : ρ) :
    x ∈ (orderBy key rows).take n ↔ x ∈ rows ∧ key x ≤ key last := by
  have strict := orderBy_strict key rows unique
  have split := take_append_drop n (orderBy key rows)
  rw [← split, pairwise_append] at strict
  obtain ⟨inside, _, across⟩ := strict
  obtain ⟨front, shape⟩ := getLast?_eq_some_iff.mp final
  have bound : ∀ y ∈ (orderBy key rows).take n, key y ≤ key last := by
    rw [shape, pairwise_append] at inside
    intro y member
    rw [shape, mem_append, mem_singleton] at member
    rcases member with early | rfl
    · exact le_of_lt (inside.2.2 y early last (by simp))
    · exact le_refl _
  constructor
  · intro member
    exact ⟨mem_orderBy.mp (mem_of_mem_take member), bound x member⟩
  · rintro ⟨member, low⟩
    have sorted : x ∈ orderBy key rows := mem_orderBy.mpr member
    rw [← split, mem_append] at sorted
    rcases sorted with early | late
    · exact early
    · have lastIn : last ∈ (orderBy key rows).take n := by rw [shape]; simp
      exact absurd low (not_le_of_gt (across last lastIn x late))

theorem page_nodup {γ : Type*} {page : List ρ} {column : ρ → γ} (unique : (rows.map column).Nodup)
    (success : limit backend bound (orderBy key rows) = .ok page) : (page.map column).Nodup := by
  obtain ⟨n, rfl, _⟩ := limit_success success
  have ordered : ((orderBy key rows).map column).Nodup :=
    ((orderBy_perm key rows).map column).nodup_iff.mpr unique
  exact ordered.sublist ((take_sublist n _).map column)

/-- What a successful `ORDER BY .. LIMIT` over unique keys returns: nothing,
which a non-zero bound only does for lack of rows, or every row up to the last
one returned. -/
theorem page_success {page : List ρ} (unique : (rows.map key).Nodup)
    (success : limit backend bound (orderBy key rows) = .ok page) :
    (page = [] ∧ (bound ≠ 0 → rows = [])) ∨ ∃ last, page.getLast? = some last ∧ last ∈ rows ∧
      ∀ x, x ∈ page ↔ x ∈ rows ∧ key x ≤ key last := by
  obtain ⟨n, rfl, positive⟩ := limit_success success
  cases final : ((orderBy key rows).take n).getLast? with
  | none =>
    have nothing := getLast?_eq_none_iff.mp final
    refine .inl ⟨nothing, fun nonzero => ?_⟩
    rw [take_eq_nil_iff] at nothing
    rcases positive nonzero with some_rows | none_there
    · exact orderBy_eq_nil.mp (nothing.resolve_left (by omega))
    · exact orderBy_eq_nil.mp none_there
  | some last =>
    have returned := mem_of_getLast? final
    exact .inr ⟨last, rfl, ((mem_page_iff unique final last).mp returned).1,
      mem_page_iff unique final⟩

/-- The same for `ORDER BY .. DESC LIMIT`: every row down to the last one
returned. -/
theorem page_success_desc {page : List ρ} (unique : (rows.map key).Nodup)
    (success : limit backend bound (orderByDesc key rows) = .ok page) :
    (page = [] ∧ (bound ≠ 0 → rows = [])) ∨ ∃ last, page.getLast? = some last ∧ last ∈ rows ∧
      ∀ x, x ∈ page ↔ x ∈ rows ∧ key last ≤ key x :=
  page_success (κ := κᵒᵈ) unique success

end

end Sql

end MidnightIndexer.Lib
