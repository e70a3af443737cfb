import MidnightIndexer.Lib.Apportion
import MidnightIndexer.Source.ProcessEpoch

/-!
# The slots of a committee

`committee_to_membership` shares the slots of an epoch out among the positions of the
committee, for every committee whose positions are `u32`.
-/

namespace MidnightIndexer.Guarantees.SlotShares

open Lib List Source.SpoIndexer

/-- The quotient and the additional slot of a position do not overflow together. -/
theorem slots_toNat (slots : UInt32) {size : Nat} (small : size < 2 ^ 32) (position : Nat) :
    (slots / UInt32.ofNat size +
        if (slots % UInt32.ofNat size).toNat > position then 1 else 0).toNat =
      Apportion.share slots.toNat size position := by
  have divisor : (UInt32.ofNat size).toNat = size := by
    rw [UInt32.toNat_ofNat', Nat.mod_eq_of_lt small]
  have word := slots.toNat_lt
  have quotient := Nat.div_le_self slots.toNat size
  have split := Nat.div_add_mod slots.toNat size
  rw [UInt32.toNat_mod, divisor, Apportion.share]
  by_cases below : position < slots.toNat % size
  · have room : slots.toNat / size + 1 < 2 ^ 32 := by
      rcases Nat.eq_zero_or_pos size with none_left | positive
      · rw [none_left, Nat.div_zero]
        omega
      · have part : slots.toNat / size ≤ size * (slots.toNat / size) :=
          Nat.le_mul_of_pos_left _ positive
        omega
    rw [if_pos below, if_pos below, UInt32.toNat_add, UInt32.toNat_div, divisor, UInt32.toNat_one,
      Nat.mod_eq_of_lt room]
  · rw [if_neg below, if_neg below, UInt32.toNat_add, UInt32.toNat_div, divisor,
      UInt32.toNat_zero, Nat.mod_eq_of_lt (by omega)]

def expectedSlots (membership : List ValidatorMembership) : List Nat :=
  membership.map fun member => member.expectedSlots.toNat

section

variable {client : SpoClient} {committee : List Validator}

/-- A committee has memberships exactly if its positions are `u32`. -/
theorem committeeToMembership_ok_iff :
    (∃ membership, committeeToMembership client committee = .ok membership) ↔
      committee.length < 2 ^ 32 := by
  constructor
  · rintro ⟨membership, made⟩
    exact (committeeToMembership_success made).1
  · intro small
    unfold committeeToMembership
    split
    · exact ⟨[], rfl⟩
    next nonempty =>
      have size : UInt32.ofNat committee.length ≠ 0 := by
        intro zero
        have length := congrArg UInt32.toNat zero
        rw [UInt32.toNat_ofNat', Nat.mod_eq_of_lt small] at length
        exact nonempty (isEmpty_iff.mpr (length_eq_zero_iff.mp length))
      have sized : committeeSize committee = .ok (UInt32.ofNat committee.length) := if_neg size
      rw [sized]
      cases made : committee.zipIdx.mapM fun member =>
          if 2 ^ 32 ≤ member.2 then Except.error SpoError.panic
          else .ok (membershipOf client (UInt32.ofNat committee.length) member) with
      | ok membership => exact ⟨membership, made⟩
      | error e =>
        -- An error would stem from an index that is not a `u32`.
        obtain ⟨member, listed, failed⟩ := mapM_failure made
        have index := snd_lt_of_mem_zipIdx listed
        rw [if_neg (by omega)] at failed
        cases failed

theorem expectedSlots_eq {membership : List ValidatorMembership}
    (made : committeeToMembership client committee = .ok membership) :
    expectedSlots membership = (range committee.length).map
      (Apportion.share client.slotsPerEpoch.toNat committee.length) := by
  obtain ⟨small, rows⟩ := committeeToMembership_success made
  rw [expectedSlots, rows, map_map, range_eq_range', ← zipIdx_map_snd, map_map]
  apply map_congr_left
  intro member _
  exact slots_toNat client.slotsPerEpoch small member.2

end

/-- Memberships are made for every committee with fewer than 2^32 positions and for no other.
Their slots sum to those of the epoch unless there is no position, differ by at most one and
never increase along the committee. -/
theorem slots_shared_out (client : SpoClient) (committee : List Validator) :
    ((∃ membership, committeeToMembership client committee = .ok membership) ↔
        committee.length < 2 ^ 32) ∧
      ∀ membership, committeeToMembership client committee = .ok membership →
        membership.length = committee.length ∧
        (committee ≠ [] → (expectedSlots membership).sum = client.slotsPerEpoch.toNat) ∧
        (∀ slots ∈ expectedSlots membership, ∀ other ∈ expectedSlots membership,
          slots ≤ other + 1) ∧
        (expectedSlots membership).Pairwise fun earlier later => later ≤ earlier := by
  refine ⟨committeeToMembership_ok_iff, ?_⟩
  intro membership made
  have shares := expectedSlots_eq made
  refine ⟨?_, ?_, ?_, ?_⟩
  · have lengths := congrArg List.length shares
    simpa [expectedSlots] using lengths
  · intro nonempty
    rw [shares, List.range_eq_range', ← List.zipIdx_map_snd, List.map_map]
    exact Apportion.sum_shares client.slotsPerEpoch.toNat nonempty
  · rw [shares]
    intro slots member other listed
    obtain ⟨position, _, rfl⟩ := List.mem_map.mp member
    obtain ⟨second, _, rfl⟩ := List.mem_map.mp listed
    exact Apportion.share_le_succ _ _ position second
  · rw [shares, List.pairwise_map]
    exact List.pairwise_lt_range.imp fun order => Apportion.share_anti _ _ (le_of_lt order)

def threeValidators : List Validator := [⟨5, 0, ['a']⟩, ⟨5, 1, ['b']⟩, ⟨5, 2, ['c']⟩]

/-- Eleven slots for three positions, and two slots. -/
theorem slots_shared_out_sample :
    (committeeToMembership (SpoClient.new 11) threeValidators).toOption.map expectedSlots =
        some [4, 4, 3] ∧
      (committeeToMembership (SpoClient.new 2) threeValidators).toOption.map expectedSlots =
        some [1, 1, 0] ∧
      ∃ membership, committeeToMembership (SpoClient.new 11) threeValidators = .ok membership ∧
        (expectedSlots membership).sum = 11 := by
  refine ⟨by decide, by decide, ?_⟩
  obtain ⟨returns, properties⟩ := slots_shared_out (SpoClient.new 11) threeValidators
  obtain ⟨membership, made⟩ := returns.mpr (by decide)
  exact ⟨membership, made, (properties membership made).2.1 (by decide)⟩

end MidnightIndexer.Guarantees.SlotShares
