import Mathlib.Algebra.Order.Ring.Abs
import Mathlib.Tactic.Ring
import MidnightIndexer.Source.ProcessEpoch

/-!
# The times of the epoch to process

The offset from the current epoch is computed for the latest epoch and attached to the one
after it, whose times are therefore early by one epoch. The loop rests only where the
offset is zero, so a latest epoch beyond the current one is followed by yet another.
-/

namespace MidnightIndexer.Guarantees.EpochTimes

open Lib Source.SpoIndexer

theorem asI64_toInt (n : UInt32) : (asI64 n).toInt = n.toNat := by
  have small := n.toNat_lt
  rw [asI64, Int64.toInt, UInt64.toBitVec_toInt64, BitVec.toInt_eq_toNat_bmod,
    UInt64.toNat_toBitVec, UInt32.toNat_toUInt64]
  exact Int.bmod_eq_of_le (by omega) (by omega)

theorem timeOffset_toInt (current latest duration : UInt32) :
    ((asI64 current - asI64 latest) * asI64 duration).toInt =
      (((current.toNat : Int) - latest.toNat) * duration.toNat).bmod (2 ^ 64) := by
  rw [Int64.toInt_mul, Int64.toInt_sub, asI64_toInt, asI64_toInt, asI64_toInt, Int.bmod_mul_bmod]

/-- Epoch numbers and durations are too small for the product to wrap to zero. -/
theorem timeOffset_eq_zero_iff {current latest duration : UInt32} (positive : 0 < duration) :
    (asI64 current - asI64 latest) * asI64 duration = 0 ↔ latest = current := by
  have currentSmall := current.toNat_lt
  have latestSmall := latest.toNat_lt
  have durationSmall := duration.toNat_lt
  have durationPositive : 0 < duration.toNat := UInt32.lt_iff_toNat_lt.mp positive
  rw [← Int64.toInt_inj, timeOffset_toInt, Int64.toInt_zero]
  constructor
  · intro zero
    have divides := Int.dvd_of_bmod_eq_zero zero
    have gap : |(current.toNat : Int) - latest.toNat| < 2 ^ 32 := by
      rw [abs_lt]
      omega
    have bounded : |((current.toNat : Int) - latest.toNat) * duration.toNat| < 2 ^ 64 := by
      rw [abs_mul, abs_of_nonneg (Int.natCast_nonneg duration.toNat)]
      calc |(current.toNat : Int) - latest.toNat| * duration.toNat
          < 2 ^ 32 * 2 ^ 32 := mul_lt_mul'' gap (by omega) (abs_nonneg _) (by omega)
        _ = 2 ^ 64 := rfl
    have product := Int.eq_zero_of_abs_lt_dvd divides bounded
    have same : (current.toNat : Int) - latest.toNat = 0 := by
      rcases Int.mul_eq_zero.mp product with same | none
      · exact same
      · omega
    exact UInt32.toNat_inj.mp (by omega)
  · rintro rfl
    rw [sub_self, zero_mul]
    rfl

theorem sub_timeOffset_toInt (time : Int64) (current latest duration : UInt32) :
    (time - (asI64 current - asI64 latest) * asI64 duration).toInt =
      (time.toInt - ((current.toNat : Int) - latest.toNat) * duration.toNat).bmod (2 ^ 64) := by
  rw [Int64.toInt_sub, timeOffset_toInt, Int.sub_bmod_bmod]

/-- The epoch after `latest`, with its place in time counted from the current epoch, or
none if there is none up to the current epoch. -/
def EpochLaw (duration : UInt32) (current : Epoch) (latest : UInt32)
    (result : Except SpoError (Option Epoch)) : Prop :=
  (result = .ok none ↔ current.epochNo ≤ latest) ∧
    (latest < current.epochNo → ∃ epoch, result = .ok (some epoch) ∧
      epoch.epochNo.toNat = latest.toNat + 1 ∧
      epoch.startsAt.toInt = current.startsAt.toInt -
        ((current.epochNo.toNat : Int) - (latest.toNat + 1)) * duration.toNat ∧
      epoch.endsAt.toInt = epoch.startsAt.toInt + duration.toNat)

theorem epochAfter_eq_none_iff {client : SpoClient} (positive : 0 < client.epochDuration)
    (current : Epoch) (latest : UInt32) :
    epochAfter client current latest = none ↔ latest = current.epochNo := by
  unfold epochAfter
  dsimp only
  rw [← timeOffset_eq_zero_iff positive]
  split
  next zero => exact iff_of_true rfl zero
  next offset => exact iff_of_false nofun offset

/-- The start it gets is not the one that the law asks for. -/
theorem epochAfter_startsAt_ne {client : SpoClient} (positive : 0 < client.epochDuration)
    {current epoch : Epoch} {latest : UInt32}
    (found : epochAfter client current latest = some epoch) :
    epoch.startsAt.toInt ≠ current.startsAt.toInt -
      ((current.epochNo.toNat : Int) - (latest.toNat + 1)) * client.epochDuration.toNat := by
  have small := client.epochDuration.toNat_lt
  have durationPositive : 0 < client.epochDuration.toNat := UInt32.lt_iff_toNat_lt.mp positive
  unfold epochAfter at found
  dsimp only at found
  split at found
  · cases found
  · cases found
    dsimp only
    rw [sub_timeOffset_toInt]
    intro same
    -- Both sides agree up to a multiple of the word size, and differ by the duration.
    have words := Int.bmod_add_bdiv (current.startsAt.toInt -
      ((current.epochNo.toNat : Int) - latest.toNat) * client.epochDuration.toNat) (2 ^ 64)
    rw [same] at words
    have expanded : ((current.epochNo.toNat : Int) - latest.toNat) * client.epochDuration.toNat =
        ((current.epochNo.toNat : Int) - (latest.toNat + 1)) * client.epochDuration.toNat +
          client.epochDuration.toNat := by ring
    rw [expanded] at words
    omega

/-- The law holds exactly where the latest epoch is the current one. -/
theorem epoch_to_process_iff (client : SpoClient) (positive : 0 < client.epochDuration)
    (storage : SpoStorage) (latest : Epoch) (stored : storage.getLatestEpoch = some latest)
    (answers : Answers) (status : ChainInfo) (answered : answers.status = some status) :
    EpochLaw client.epochDuration (client.getCurrentEpoch status) latest.epochNo
        (getEpochToProcess client storage answers) ↔
      latest.epochNo = status.epoch := by
  have result : getEpochToProcess client storage answers =
      .ok (epochAfter client (client.getCurrentEpoch status) latest.epochNo) := by
    rw [getEpochToProcess, answered, latestEpochNum, stored]
    rfl
  have rests := epochAfter_eq_none_iff positive (client.getCurrentEpoch status) latest.epochNo
  have current : (client.getCurrentEpoch status).epochNo = status.epoch := rfl
  rw [result]
  constructor
  · intro ⟨none_iff, next⟩
    rcases UInt32.lt_or_le latest.epochNo status.epoch with behind | reached
    · obtain ⟨epoch, found, _, starts, _⟩ := next behind
      exact absurd starts (epochAfter_startsAt_ne positive (Except.ok.inj found))
    · exact rests.mp (Except.ok.inj (none_iff.mpr reached))
  · intro same
    refine ⟨iff_of_true (congrArg Except.ok (rests.mpr same)) ?_, fun behind => ?_⟩
    · rw [current, same]
      exact UInt32.le_refl _
    · rw [current, same] at behind
      exact absurd behind (UInt32.lt_irrefl _)

/-! ## Epochs of one slot -/

def slotClient : SpoClient := SpoClient.new 1

/-- The epoch 5, from 30 to 36 seconds. -/
def fifthEpoch : ChainInfo := ⟨5, 36000⟩

def statusAnswers (status : ChainInfo) : Answers where
  status := some status
  statusForFirst := some status
  blockOneTimestamp := some 1
  committee epochNo := .response ⟨epochNo.toUInt64, []⟩
  registrations _ := some []
  poolMetadata _ := none
  now := 0
  databaseUp := true

def storedUpTo (epochNo : UInt32) : SpoStorage :=
  { SpoStorage.empty with epochs := [⟨epochNo, 0, 6000⟩] }

theorem epoch_to_process_sample :
    EpochLaw slotClient.epochDuration (slotClient.getCurrentEpoch fifthEpoch) 5
      (getEpochToProcess slotClient (storedUpTo 5) (statusAnswers fifthEpoch)) :=
  (epoch_to_process_iff slotClient (by decide) (storedUpTo 5) ⟨5, 0, 6000⟩ rfl
    (statusAnswers fifthEpoch) fifthEpoch rfl).mpr rfl

/-- After epoch 3 comes epoch 4 with the start of epoch 3, and after epoch 6, which the
node has not reached, comes epoch 7. -/
theorem epoch_times_early :
    getEpochToProcess slotClient (storedUpTo 3) (statusAnswers fifthEpoch) =
        .ok (some ⟨4, 18000, 24000⟩) ∧
      ¬EpochLaw slotClient.epochDuration (slotClient.getCurrentEpoch fifthEpoch) 3
        (getEpochToProcess slotClient (storedUpTo 3) (statusAnswers fifthEpoch)) ∧
      getEpochToProcess slotClient (storedUpTo 6) (statusAnswers fifthEpoch) =
        .ok (some ⟨7, 36000, 42000⟩) ∧
      ¬EpochLaw slotClient.epochDuration (slotClient.getCurrentEpoch fifthEpoch) 6
        (getEpochToProcess slotClient (storedUpTo 6) (statusAnswers fifthEpoch)) := by
  have third : getEpochToProcess slotClient (storedUpTo 3) (statusAnswers fifthEpoch) =
      .ok (some ⟨4, 18000, 24000⟩) := by decide +kernel
  have sixth : getEpochToProcess slotClient (storedUpTo 6) (statusAnswers fifthEpoch) =
      .ok (some ⟨7, 36000, 42000⟩) := by decide +kernel
  refine ⟨third, ?_, sixth, ?_⟩
  · rw [third]
    intro law
    obtain ⟨epoch, found, _, starts, _⟩ := law.2 (by decide)
    cases found
    exact absurd starts (by decide)
  · rw [sixth]
    intro law
    have rests := law.1.mpr (by decide)
    cases rests

end MidnightIndexer.Guarantees.EpochTimes
