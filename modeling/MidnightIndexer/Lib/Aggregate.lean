import Mathlib.Data.List.Dedup
import Mathlib.Data.List.ProdSigma
import Mathlib.Data.List.Range

/-!
# Query fragments: `GROUP BY`, `MIN` and `generate_series`

A grouped result has one entry for each key that occurs. Grouping a cross join by its first
column gives every value of that column with all of the second one, if there are any.
-/

namespace MidnightIndexer.Lib.Aggregate

open List

universe u v w

variable {ρ : Type u} {κ : Type v} {ν : Type w} [DecidableEq κ]

/-- `GROUP BY key`: the keys with their rows. -/
def groupBy (key : ρ → κ) (rows : List ρ) : List (κ × List ρ) :=
  (rows.map key).dedup.map fun k => (k, rows.filter fun row => key row = k)

/-- `SELECT key, MIN(value) .. GROUP BY key`. -/
def leastBy [Min ν] (rows : List (κ × ν)) : List (κ × ν) :=
  (groupBy Prod.fst rows).filterMap fun group =>
    (group.2.map Prod.snd).min?.map fun least => (group.1, least)

/-- `generate_series`. -/
def series (first last : Int) : List Int :=
  (List.range (last + 1 - first).toNat).map fun (n : Nat) => first + n

/-! ## Groups -/

theorem mem_leastBy [Min ν] {rows : List (κ × ν)} {k : κ} :
    (∃ value, (k, value) ∈ leastBy rows) ↔ ∃ value, (k, value) ∈ rows := by
  constructor
  · rintro ⟨value, member⟩
    obtain ⟨group, grouped, least⟩ := mem_filterMap.mp member
    obtain ⟨_, _, same⟩ := Option.map_eq_some_iff.mp least
    obtain ⟨found, present, rfl⟩ := mem_map.mp grouped
    obtain ⟨row, listed, rfl⟩ := mem_map.mp (mem_dedup.mp present)
    cases same
    exact ⟨row.2, listed⟩
  · rintro ⟨value, member⟩
    let group := rows.filter fun row => row.1 = k
    have nonempty : group.map Prod.snd ≠ [] :=
      ne_nil_of_mem (mem_map_of_mem (mem_filter.mpr ⟨member, decide_eq_true rfl⟩))
    obtain ⟨least, found⟩ := Option.isSome_iff_exists.mp (isSome_min?_iff.mpr nonempty)
    refine ⟨least, mem_filterMap.mpr ⟨(k, group), ?_, by rw [found]; rfl⟩⟩
    exact mem_map.mpr ⟨k, mem_dedup.mpr (mem_map.mpr ⟨_, member, rfl⟩), rfl⟩

/-- The rows of a cross join with one value of its first column. -/
theorem filter_product {xs : List κ} (unique : xs.Nodup) {x : κ} (member : x ∈ xs) (ys : List ν) :
    ((xs ×ˢ ys).filter fun row => row.1 = x) = ys.map (Prod.mk x) := by
  induction xs with
  | nil => cases member
  | cons head rest ih =>
    obtain ⟨fresh, unique⟩ := nodup_cons.mp unique
    rw [product_cons, filter_append, filter_map]
    by_cases here : head = x
    · have others : ((rest ×ˢ ys).filter fun row => row.1 = x) = [] := by
        rw [filter_eq_nil_iff]
        rintro ⟨key, y⟩ listed same
        exact fresh (here ▸ of_decide_eq_true same ▸ (mem_product.mp listed).1)
      simp [others, here, Function.comp_def]
    · have later := ih unique ((mem_cons.mp member).resolve_left (Ne.symm here))
      simpa [here, Function.comp_def] using later

theorem groupBy_product {xs : List κ} {ys : List ν} (unique : xs.Nodup) (nonempty : ys ≠ []) :
    (groupBy Prod.fst (xs ×ˢ ys)).Perm (xs.map fun x => (x, ys.map (Prod.mk x))) := by
  obtain ⟨y, listed⟩ := exists_mem_of_ne_nil ys nonempty
  have keys : ((xs ×ˢ ys).map Prod.fst).dedup.Perm xs := by
    rw [perm_ext_iff_of_nodup (nodup_dedup _) unique]
    intro x
    rw [mem_dedup, mem_map]
    constructor
    · rintro ⟨row, member, rfl⟩
      exact (mem_product.mp (show (row.1, row.2) ∈ xs ×ˢ ys from member)).1
    · exact fun member => ⟨(x, y), mem_product.mpr ⟨member, listed⟩, rfl⟩
  have groups : groupBy Prod.fst (xs ×ˢ ys) =
      ((xs ×ˢ ys).map Prod.fst).dedup.map fun x => (x, ys.map (Prod.mk x)) := by
    refine map_congr_left fun x member => ?_
    rw [filter_product unique (keys.mem_iff.mp member)]
  rw [groups]
  exact keys.map _

/-! ## Series -/

theorem mem_series {first last n : Int} : n ∈ series first last ↔ first ≤ n ∧ n ≤ last := by
  rw [series, mem_map]
  constructor
  · rintro ⟨offset, listed, rfl⟩
    have bound := mem_range.mp listed
    omega
  · rintro ⟨above, below⟩
    exact ⟨(n - first).toNat, mem_range.mpr (by omega), by omega⟩

theorem series_increasing (first last : Int) :
    (series first last).Pairwise fun low high => low < high :=
  pairwise_map.mpr (pairwise_lt_range.imp fun less => by omega)

theorem series_isChain (first last : Int) :
    (series first last).IsChain fun earlier later => later = earlier + 1 := by
  rw [series, isChain_map, isChain_range]
  intro n _
  rw [Nat.succ_eq_add_one, Int.natCast_add, Int.add_assoc]
  rfl

end MidnightIndexer.Lib.Aggregate
