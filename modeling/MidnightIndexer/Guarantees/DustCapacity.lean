import MidnightIndexer.Source.DustStatus

/-!
# The capacity of a registration over time

The totals that `dustGenerations` reports for any active generations, at any time of the
latest block. The current capacity is bounded by the maximum, does not fall as time goes on,
and is the exact sum over the generations cut off at the largest `u128` as long as no product
saturates. The products may all fit while their sum does not.
-/

namespace MidnightIndexer.Guarantees.DustCapacity

open Lib Source.DustStatus Saturating

def CreationFits (row : GenerationInfo) : Prop := 0 ≤ row.ctime ∧ row.ctime * 1000 < 2 ^ 64

/-- The whole seconds since the creation, or 0 before it. -/
def secondsSinceCreation (now : UInt64) (row : GenerationInfo) : Nat :=
  (((now.toNat : Int) - row.ctime * 1000) / 1000).toNat

/-- What one generation has produced without saturation. -/
def exactCapacity (parameters : DustParameters) (now : UInt64) (row : GenerationInfo) : Nat :=
  min (row.value * parameters.generationDecayRate.toNat * secondsSinceCreation now row)
    (row.value * parameters.nightDustRatio.toNat)

/-- None of the products of a generation is cut off. -/
structure ProductsFit (parameters : DustParameters) (now : UInt64) (row : GenerationInfo) :
    Prop where
  rate : row.value * parameters.generationDecayRate.toNat ≤ u128Max
  generated : row.value * parameters.generationDecayRate.toNat * secondsSinceCreation now row ≤
    u128Max
  ratio : row.value * parameters.nightDustRatio.toNat ≤ u128Max

/-! ## One generation -/

section

variable {parameters : DustParameters} {now later : UInt64} {row : GenerationInfo}

theorem created_toNat (fits : CreationFits row) : (row.created.toNat : Int) = row.ctime * 1000 := by
  obtain ⟨positive, small⟩ := fits
  have seconds : (UInt64.ofInt row.ctime).toNat = row.ctime.toNat := by
    rw [UInt64.ofInt, UInt64.toNat_ofNat']
    omega
  rw [GenerationInfo.created, toMs, UInt64.toNat_mul, seconds]
  change ((row.ctime.toNat * 1000 % 2 ^ 64 : Nat) : Int) = _
  omega

theorem elapsedSecondsSince_created (fits : CreationFits row) :
    elapsedSecondsSince now row.created = secondsSinceCreation now row := by
  have created := created_toNat fits
  unfold elapsedSecondsSince secondsSinceCreation
  omega

theorem elapsedSecondsSince_mono (advance : now ≤ later) (earlier : UInt64) :
    elapsedSecondsSince now earlier ≤ elapsedSecondsSince later earlier := by
  rw [UInt64.le_iff_toNat_le] at advance
  unfold elapsedSecondsSince
  omega

theorem capacityAt_le_max (parameters : DustParameters) (now : UInt64) (row : GenerationInfo) :
    capacityAt parameters now row ≤ mul u128Max row.value parameters.nightDustRatio.toNat :=
  Nat.min_le_right _ _

theorem capacityAt_mono (parameters : DustParameters) (row : GenerationInfo)
    (advance : now ≤ later) : capacityAt parameters now row ≤ capacityAt parameters later row := by
  have generated := mul_mono_right u128Max
    (mul u128Max row.value parameters.generationDecayRate.toNat)
    (elapsedSecondsSince_mono advance row.created)
  unfold capacityAt
  omega

theorem capacityAt_exact (fits : CreationFits row) (products : ProductsFit parameters now row) :
    capacityAt parameters now row = exactCapacity parameters now row := by
  rw [capacityAt, elapsedSecondsSince_created fits, mul_of_le products.rate,
    mul_of_le products.generated, mul_of_le products.ratio]
  rfl

end

/-! ## All generations of a registration -/

section

variable (parameters : DustParameters) (rows : List GenerationInfo)

theorem currentCapacity_eq (now : UInt64) :
    (totalFigures parameters (some now) rows).currentCapacity =
      min (rows.map (capacityAt parameters now)).sum u128Max := by
  rw [totalFigures_eq]

theorem currentCapacity_le_maxCapacity (now : UInt64) :
    (totalFigures parameters (some now) rows).currentCapacity ≤
      (totalFigures parameters (some now) rows).maxCapacity := by
  rw [totalFigures_eq]
  have sums : (rows.map (capacityAt parameters now)).sum ≤ (rows.map fun row =>
      mul u128Max row.value parameters.nightDustRatio.toNat).sum :=
    List.sum_le_sum fun row _ => capacityAt_le_max parameters now row
  dsimp only
  omega

theorem currentCapacity_mono {now later : UInt64} (advance : now ≤ later) :
    (totalFigures parameters (some now) rows).currentCapacity ≤
      (totalFigures parameters (some later) rows).currentCapacity := by
  have sums : (rows.map (capacityAt parameters now)).sum ≤
      (rows.map (capacityAt parameters later)).sum :=
    List.sum_le_sum fun row _ => capacityAt_mono parameters row advance
  rw [currentCapacity_eq, currentCapacity_eq]
  omega

/-- Products that fit leave the exact sum, cut off at the largest number. -/
theorem currentCapacity_exact {now : UInt64} (created : ∀ row ∈ rows, CreationFits row)
    (products : ∀ row ∈ rows, ProductsFit parameters now row) :
    (totalFigures parameters (some now) rows).currentCapacity =
      min (rows.map (exactCapacity parameters now)).sum u128Max := by
  have terms : rows.map (capacityAt parameters now) = rows.map (exactCapacity parameters now) := by
    apply List.map_congr_left
    intro row member
    exact capacityAt_exact (created row member) (products row member)
  rw [currentCapacity_eq, terms]

end

/-- For creation times that fit in 64 bits: the current capacity never exceeds the maximum, does
not decrease as the time grows, and as long as no product saturates it is the sum of the exact
capacities cut off at the largest `u128`. -/
theorem capacity_over_time (parameters : DustParameters) (rows : List GenerationInfo)
    (created : ∀ row ∈ rows, CreationFits row) (now : UInt64) :
    (totalFigures parameters (some now) rows).currentCapacity ≤
        (totalFigures parameters (some now) rows).maxCapacity ∧
      (∀ later, now ≤ later → (totalFigures parameters (some now) rows).currentCapacity ≤
        (totalFigures parameters (some later) rows).currentCapacity) ∧
      ((∀ row ∈ rows, ProductsFit parameters now row) →
        (totalFigures parameters (some now) rows).currentCapacity =
          min (rows.map (exactCapacity parameters now)).sum (2 ^ 128 - 1)) :=
  ⟨currentCapacity_le_maxCapacity parameters rows now,
    fun _ advance => currentCapacity_mono parameters rows advance,
    currentCapacity_exact parameters rows created⟩

def halfRange : GenerationInfo where
  owner := []
  value := 2 ^ 127
  ctime := 1
  dtime := none
  word := by decide

def unitParameters : DustParameters := ⟨1, 1⟩

/-- One generation at its creation and one second later. -/
theorem capacity_over_time_sample :
    (totalFigures unitParameters (some 1000) [halfRange]).currentCapacity = 0 ∧
      (totalFigures unitParameters (some 2999) [halfRange]).currentCapacity = 2 ^ 127 ∧
      ((totalFigures unitParameters (some 2999) [halfRange]).currentCapacity =
        min ([halfRange].map (exactCapacity unitParameters 2999)).sum (2 ^ 128 - 1)) := by
  have created : ∀ row ∈ [halfRange], CreationFits row := by
    intro row member
    rw [List.mem_singleton.mp member]
    exact ⟨by decide, by decide⟩
  refine ⟨by decide, by decide, (capacity_over_time unitParameters [halfRange] created 2999).2.2 ?_⟩
  intro row member
  rw [List.mem_singleton.mp member]
  exact ⟨by decide, by decide, by decide⟩

/-- No product saturates for two such generations, but their sum does. -/
theorem capacity_sum_saturates :
    (∀ row ∈ [halfRange, halfRange], CreationFits row ∧ ProductsFit unitParameters 2999 row) ∧
      (totalFigures unitParameters (some 2999) [halfRange, halfRange]).currentCapacity =
        2 ^ 128 - 1 ∧
      ([halfRange, halfRange].map (exactCapacity unitParameters 2999)).sum = 2 ^ 128 := by
  refine ⟨?_, by decide, by decide⟩
  intro row member
  have same : row = halfRange := by simpa using member
  rw [same]
  exact ⟨⟨by decide, by decide⟩, ⟨by decide, by decide, by decide⟩⟩

end MidnightIndexer.Guarantees.DustCapacity
