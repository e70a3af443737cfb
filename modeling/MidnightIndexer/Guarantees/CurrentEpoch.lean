import MidnightIndexer.Source.CurrentEpoch

/-!
# The current epoch over time

For a latest epoch and a time of whole seconds, from the start of the epoch on: the number
and the elapsed seconds are the quotient and the remainder of the time since the start by
the duration. So they never go back, and they do not depend on which of two epochs of equal
duration that follow each other is the latest one stored.
-/

namespace MidnightIndexer.Guarantees.CurrentEpoch

open Lib Source.CurrentEpoch Last

/-- The answer does not go back. -/
def NotBefore (earlier later : EpochInfo) : Prop :=
  earlier.epochNo < later.epochNo ∨
    earlier.epochNo = later.epochNo ∧ earlier.elapsedSeconds ≤ later.elapsedSeconds

/-- The epoch that a time falls into, counted from a stored epoch. -/
def infoAt (epochNo starts duration now : Int) : EpochInfo where
  epochNo := epochNo + (now - starts) / duration
  durationSeconds := duration
  elapsedSeconds := (now - starts) % duration

/-! ## The extrapolation -/

section

variable {epochNo starts ends now : Int}

theorem synth_within (begun : starts ≤ now) (running : now < ends) :
    (mk epochNo starts ends (ends - starts) now).synth =
      infoAt epochNo starts (ends - starts) now := by
  have none_passed : (mk epochNo starts ends (ends - starts) now).n = 0 :=
    if_pos running
  have quotient : (now - starts) / (ends - starts) = 0 :=
    Int.ediv_eq_zero_of_lt (by omega) (by omega)
  have remainder : (now - starts) % (ends - starts) = now - starts :=
    Int.emod_eq_of_lt (by omega) (by omega)
  rw [synth, none_passed, infoAt, quotient, remainder, if_neg (by simp; omega), if_pos rfl]
  simp only [clamp, EpochInfo.mk.injEq, true_and]
  omega

variable {duration : Int}

theorem ediv_sub_self {time : Int} (positive : 0 < duration) :
    (time - duration) / duration = time / duration - 1 := by
  rw [Int.sub_ediv_of_dvd time (Int.dvd_refl duration), Int.ediv_self (by omega)]

/-- From its end on, whole durations have passed since then. -/
theorem synth_beyond (positive : starts < ends) (ended : ends ≤ now) :
    (mk epochNo starts ends (ends - starts) now).synth =
      infoAt epochNo starts (ends - starts) now := by
  have shifted : (now - ends) / (ends - starts) = (now - starts) / (ends - starts) - 1 := by
    rw [← ediv_sub_self (by omega)]
    congr 1
    omega
  have passed : (mk epochNo starts ends (ends - starts) now).n =
      (now - starts) / (ends - starts) := by
    rw [n, if_neg (by simp; omega), if_neg (by simp; omega),
      Int.tdiv_eq_ediv_of_nonneg (by simp; omega)]
    simp only
    omega
  have some_passed : (now - starts) / (ends - starts) ≠ 0 := by
    have least := Int.ediv_nonneg (show 0 ≤ now - ends by omega) (show 0 ≤ ends - starts by omega)
    omega
  have split := Int.mul_ediv_add_emod (now - starts) (ends - starts)
  have low := Int.emod_nonneg (now - starts) (show ends - starts ≠ 0 by omega)
  have high := Int.emod_lt_of_pos (now - starts) (show 0 < ends - starts by omega)
  rw [synth, passed, infoAt, if_neg (by simp; omega), if_neg some_passed]
  simp only [clamp, EpochInfo.mk.injEq, true_and]
  have since : now - (ends + ((now - starts) / (ends - starts) - 1) * (ends - starts)) =
      (now - starts) % (ends - starts) := by
    rw [Int.sub_mul, Int.one_mul, Int.mul_comm]
    omega
  rw [since]
  omega

theorem synth_eq (positive : starts < ends) (begun : starts ≤ now) :
    (mk epochNo starts ends (ends - starts) now).synth =
      infoAt epochNo starts (ends - starts) now := by
  rcases Int.lt_or_le now ends with running | ended
  · exact synth_within begun running
  · exact synth_beyond positive ended

theorem infoAt_mono {later : Int} (positive : 0 < duration) (advance : now ≤ later) :
    NotBefore (infoAt epochNo starts duration now) (infoAt epochNo starts duration later) := by
  have quotients : (now - starts) / duration ≤ (later - starts) / duration :=
    Int.ediv_le_ediv positive (by omega)
  rcases Int.lt_or_eq_of_le quotients with less | same
  · apply Or.inl
    simp only [infoAt]
    omega
  · have first := Int.mul_ediv_add_emod (now - starts) duration
    have second := Int.mul_ediv_add_emod (later - starts) duration
    rw [same] at first
    apply Or.inr
    simp only [infoAt]
    omega

theorem infoAt_following (positive : 0 < duration) :
    infoAt (epochNo + 1) (starts + duration) duration now =
      infoAt epochNo starts duration now := by
  have shifted : now - (starts + duration) = now - starts - duration := by omega
  have quotient := @ediv_sub_self duration (now - starts) positive
  simp only [infoAt, shifted, quotient, Int.sub_emod_right, EpochInfo.mk.injEq, and_true]
  omega

end

/-! ## The query -/

theorem getCurrentEpochInfo_eq (backend : Sql.Backend) {table : EpochTable}
    {epochNo starts ends now : Int}
    (latest : table.latest = some ⟨epochNo, starts * microseconds, ends * microseconds⟩)
    (positive : starts < ends) (begun : starts ≤ now) :
    getCurrentEpochInfo backend table (now * microseconds) =
      some (infoAt epochNo starts (ends - starts) now) := by
  rw [getCurrentEpochInfo, latest, Option.map_some, last_whole, synth_eq positive begun]

theorem below_following {table : EpochTable} {latest : EpochRow} (found : table.latest = some latest)
    {row : EpochRow} (follows : row.epochNo = latest.epochNo + 1) :
    ∀ old ∈ table.rows, old.epochNo < row.epochNo := by
  intro old member
  have most := (Sql.orderByDesc_first found).2 old member
  omega

/-- The current epoch counts whole durations since the start of the latest stored epoch; the
answer never goes back, and storing the following epoch once it has begun does not change it. -/
theorem current_epoch_extrapolated (backend : Sql.Backend) (table : EpochTable)
    (epochNo starts ends now : Int)
    (latest : table.latest = some ⟨epochNo, starts * microseconds, ends * microseconds⟩)
    (positive : starts < ends) (begun : starts ≤ now) :
    getCurrentEpochInfo backend table (now * microseconds) =
        some ⟨epochNo + (now - starts) / (ends - starts), ends - starts,
          (now - starts) % (ends - starts)⟩ ∧
      (∀ later, now ≤ later → ∃ info laterInfo,
        getCurrentEpochInfo backend table (now * microseconds) = some info ∧
        getCurrentEpochInfo backend table (later * microseconds) = some laterInfo ∧
        NotBefore info laterInfo) ∧
      (ends ≤ now → ∃ after,
        table.saveEpoch ⟨epochNo + 1, ends * microseconds,
          (ends + (ends - starts)) * microseconds⟩ = some after ∧
        getCurrentEpochInfo backend after (now * microseconds) =
          getCurrentEpochInfo backend table (now * microseconds)) := by
  have answer := getCurrentEpochInfo_eq backend latest positive begun
  refine ⟨answer, ?_, ?_⟩
  · intro later advance
    exact ⟨_, _, answer, getCurrentEpochInfo_eq backend latest positive (by omega),
      infoAt_mono (by omega) advance⟩
  · intro ended
    let next : EpochRow :=
      ⟨epochNo + 1, ends * microseconds, (ends + (ends - starts)) * microseconds⟩
    have higher : ∀ old ∈ table.rows, old.epochNo < next.epochNo := below_following latest rfl
    obtain ⟨after, stored⟩ := saveEpoch_higher higher
    refine ⟨after, stored, ?_⟩
    rw [getCurrentEpochInfo_eq backend (latest_saveEpoch stored higher) (by omega) ended, answer]
    have sameDuration : ends + (ends - starts) - ends = ends - starts := by omega
    have following := @infoAt_following epochNo starts now (ends - starts) (by omega)
    have start : starts + (ends - starts) = ends := by omega
    rw [start] at following
    rw [sameDuration, following]

/-- An epoch of a minute, 150 seconds after its start: the following epoch is stored late. -/
def minuteTable : EpochTable := ⟨[⟨7, 0, 60 * microseconds⟩], by decide⟩

theorem current_epoch_extrapolated_sample :
    getCurrentEpochInfo .postgres minuteTable (150 * microseconds) = some ⟨9, 60, 30⟩ ∧
      ∃ after, minuteTable.saveEpoch ⟨8, 60 * microseconds, 120 * microseconds⟩ = some after ∧
        getCurrentEpochInfo .postgres after (150 * microseconds) =
          getCurrentEpochInfo .postgres minuteTable (150 * microseconds) := by
  have properties := current_epoch_extrapolated .postgres minuteTable 7 0 60 150 (by decide)
    (by decide) (by decide)
  exact ⟨properties.1, properties.2.2 (by decide)⟩

end MidnightIndexer.Guarantees.CurrentEpoch
