import MidnightIndexer.Guarantees.EpochTimes
import MidnightIndexer.Lib.Run

/-!
# The range of the stored epochs

Epochs follow one another without gaps from an origin. From an empty database the first
epoch stored is the one after `get_first_epoch_num`, which is the epoch of block 1 only if
the block's timestamp is the first moment of an epoch. Later the epoch after the latest is
stored whenever the node reports another epoch than the latest, an older one included, so
the range may run ahead of what the node has reported.
-/

namespace MidnightIndexer.Guarantees.EpochRange

open Lib Source.SpoIndexer EpochTimes

/-- When epochs begin: epoch `n` at `origin + n * epochDuration`; and when block 1 was
made. -/
structure Chain (client : SpoClient) where
  origin : Int
  blockOne : UInt64

section

variable {client : SpoClient} (chain : Chain client) (cardanoIdOf : Text → Option Text)

def Chain.duration (_ : Chain client) : Int := client.epochDuration.toNat

def Chain.firstEpoch : Int := (chain.blockOne.toNat - chain.origin) / chain.duration

/-- The node tells the end of the epoch it reports. -/
def Chain.Reports (status : ChainInfo) : Prop :=
  status.nextEpochTimestamp.toInt = chain.origin + (status.epoch.toNat + 1) * chain.duration

/-- Whatever epoch the node reports, it is consistent with the chain. -/
structure Chain.Answered (answers : Answers) : Prop where
  status : ∀ status ∈ answers.status, chain.Reports status
  statusForFirst : ∀ status ∈ answers.statusForFirst, chain.Reports status
  blockOne : ∀ timestamp ∈ answers.blockOneTimestamp, timestamp = chain.blockOne

/-! ## Polls -/

/-- The tables with all current epochs the node has reported. -/
structure Polled where
  storage : SpoStorage
  reported : List UInt32

def reportsOf (storage : SpoStorage) (answers : Answers) : List UInt32 :=
  match answers.status with
  | none => []
  | some status => status.epoch :: if storage.getLatestEpoch.isNone then
      (answers.statusForFirst.map ChainInfo.epoch).toList else []

variable (client) in
def poll (s : Polled) (answers : Answers) : Polled :=
  ⟨pollStep client cardanoIdOf s.storage answers, s.reported ++ reportsOf s.storage answers⟩

def Polled.initial : Polled := ⟨SpoStorage.empty, []⟩

def Stored (storage : SpoStorage) (n : UInt32) : Prop := n ∈ storage.epochs.map Epoch.epochNo

/-- The stored epochs are a range that begins with the epoch of block 1 and does not reach
beyond the largest reported one. -/
structure InRange (s : Polled) : Prop where
  range : s.storage.epochs = [] ∨ ∃ first last : UInt32, (first.toNat : Int) = chain.firstEpoch ∧
    first ≤ last ∧ ∀ n, Stored s.storage n ↔ first ≤ n ∧ n ≤ last
  reached : ∀ n, Stored s.storage n → ∃ r ∈ s.reported, n ≤ r

/-- The epoch that would be stored first is that of block 1. With a status from before
block 1 the difference of the times wraps. -/
def FirstIsBlockOne (status : ChainInfo) : Prop :=
  let gap := status.nextEpochTimestamp.toInt - chain.blockOne.toNat
  if 0 ≤ gap then chain.origin ≤ chain.blockOne.toNat ∧
    chain.duration ∣ chain.blockOne.toNat - chain.origin
  else (status.epoch.toNat + 1 - gap % 2 ^ 64 / chain.duration) % 2 ^ 32 = chain.firstEpoch

variable (client) in
def Stores (storage : SpoStorage) (answers : Answers) : Prop :=
  (pollStep client cardanoIdOf storage answers).epochs ≠ storage.epochs

/-- After the latest epoch another may be stored if the node has reported one beyond it.
In an empty database block 1 must have been made at the first moment of an epoch, and that
epoch must have been reported. -/
def MayStore (answers : Answers) (reported : List UInt32) : Option Epoch → Prop
  | some latest => ∃ r ∈ reported, latest.epochNo < r
  | none => (∀ status ∈ answers.statusForFirst, FirstIsBlockOne chain status) ∧
      ∃ r ∈ reported, chain.firstEpoch ≤ r.toNat

/-- A call that stores an epoch may do so. -/
def StaysInRange (s : Polled) (answers : Answers) : Prop :=
  Stores client cardanoIdOf s.storage answers →
    MayStore chain answers (s.reported ++ reportsOf s.storage answers) s.storage.getLatestEpoch

instance (status : ChainInfo) : Decidable (FirstIsBlockOne chain status) :=
  inferInstanceAs (Decidable (ite _ _ _))

instance (answers : Answers) (reported : List UInt32) :
    ∀ latest, Decidable (MayStore chain answers reported latest)
  | some latest => inferInstanceAs (Decidable (∃ r ∈ reported, latest.epochNo < r))
  | none => inferInstanceAs (Decidable (_ ∧ _))

instance (s : Polled) (answers : Answers) : Decidable (StaysInRange chain cardanoIdOf s answers) :=
  inferInstanceAs (Decidable ((pollStep client cardanoIdOf s.storage answers).epochs ≠
    s.storage.epochs → _))

end

/-! ## The first epoch -/

section

variable {client : SpoClient} {chain : Chain client}

theorem toUInt64_toNat (time : Int64) : (time.toUInt64.toNat : Int) = time.toInt % 2 ^ 64 := by
  have word := time.toUInt64.toNat_lt
  have signed : time.toInt = Int.bmod time.toUInt64.toNat (2 ^ 64) :=
    BitVec.toInt_eq_toNat_bmod time.toBitVec
  rw [signed]
  have reduced := Int.bmod_emod (x := (time.toUInt64.toNat : Int)) (m := 2 ^ 64)
  rw [show ((2 ^ 64 : Nat) : Int) = 2 ^ 64 from rfl] at reduced
  rw [reduced]
  exact (Int.emod_eq_of_lt (Int.natCast_nonneg _) (by exact_mod_cast word)).symm

variable {status : ChainInfo}

theorem getFirstEpochNum_next {first : UInt32}
    (success : client.getFirstEpochNum status chain.blockOne = .ok first) :
    0 < client.epochDuration ∧ ((first + 1).toNat : Int) = (status.epoch.toNat + 1 -
      (status.nextEpochTimestamp.toInt - chain.blockOne.toNat) % 2 ^ 64 / chain.duration) %
        2 ^ 32 := by
  unfold SpoClient.getFirstEpochNum at success
  dsimp only at success
  split at success
  · cases success
  next nonzero =>
    cases success
    refine ⟨UInt32.pos_iff_ne_zero.mpr nonzero, ?_⟩
    have ends := toUInt64_toNat status.nextEpochTimestamp
    have timeWord := chain.blockOne.toNat_lt
    have gap : ((status.nextEpochTimestamp.toUInt64 - chain.blockOne).toNat : Int) =
        (status.nextEpochTimestamp.toInt - chain.blockOne.toNat) % 2 ^ 64 := by
      rw [UInt64.toNat_sub]
      omega
    have number : (((status.nextEpochTimestamp.toUInt64 - chain.blockOne) /
        client.epochDuration.toUInt64).toUInt32.toNat : Int) =
          (status.nextEpochTimestamp.toInt - chain.blockOne.toNat) % 2 ^ 64 / chain.duration %
            2 ^ 32 := by
      rw [UInt64.toNat_toUInt32, UInt64.toNat_div, UInt32.toNat_toUInt64, Int.natCast_emod,
        Int.natCast_ediv, gap]
      rfl
    have small := status.epoch.toNat_lt
    dsimp only [SpoClient.getCurrentEpoch]
    rw [UInt32.toNat_add, UInt32.toNat_sub, UInt32.toNat_one]
    generalize (status.nextEpochTimestamp.toInt - chain.blockOne.toNat) % 2 ^ 64 /
      chain.duration = quotient at number ⊢
    generalize ((status.nextEpochTimestamp.toUInt64 - chain.blockOne) /
      client.epochDuration.toUInt64).toUInt32.toNat = numEpochs at number ⊢
    omega

theorem duration_pos (chain : Chain client) (positive : 0 < client.epochDuration) :
    0 < chain.duration :=
  Int.natCast_pos.mpr (UInt32.lt_iff_toNat_lt.mp positive)

/-- From a status after block 1 the first number is that of the block rounded up. -/
theorem rounded_up (positive : 0 < chain.duration) (reports : chain.Reports status)
    (after : 0 ≤ status.nextEpochTimestamp.toInt - chain.blockOne.toNat) : status.epoch.toNat + 1 -
        (status.nextEpochTimestamp.toInt - chain.blockOne.toNat) % 2 ^ 64 / chain.duration =
      -((chain.origin - chain.blockOne.toNat) / chain.duration) := by
  have upper := status.nextEpochTimestamp.toInt_lt
  rw [Int.emod_eq_of_lt after (by omega)]
  have ends : status.nextEpochTimestamp.toInt - chain.blockOne.toNat =
      (chain.origin - chain.blockOne.toNat) + (status.epoch.toNat + 1) * chain.duration := by
    rw [reports]
    ring
  rw [ends, Int.add_mul_ediv_right _ _ (ne_of_gt positive)]
  omega

/-- The first number is that of the epoch of block 1 exactly under the condition, up to
the width of epoch numbers. -/
theorem first_next_iff (reports : chain.Reports status) {first : UInt32}
    (success : client.getFirstEpochNum status chain.blockOne = .ok first) :
    ((first + 1).toNat : Int) = chain.firstEpoch ↔
      FirstIsBlockOne chain status ∧ chain.firstEpoch < 2 ^ 32 := by
  obtain ⟨positive, next⟩ := getFirstEpochNum_next success
  have durationPositive := duration_pos chain positive
  rw [next, FirstIsBlockOne]
  split
  next after =>
    rw [rounded_up durationPositive reports after, ← neg_sub, Int.neg_ediv, Chain.firstEpoch]
    have nonneg : 0 ≤ ((chain.blockOne.toNat : Int) - chain.origin) / chain.duration ↔
        chain.origin ≤ chain.blockOne.toNat := by
      rw [Int.ediv_nonneg_iff_of_pos durationPositive, Int.sub_nonneg]
    split
    next divides => omega
    next between =>
      -- Rounded up, the number is one too high, wrapped or not.
      rw [Int.sign_eq_one_of_pos durationPositive]
      omega
  next before => omega

end

/-! ## One call -/

section

variable {client : SpoClient} {chain : Chain client} {cardanoIdOf : Text → Option Text}
  {epoch : Epoch} {s next : Polled}

theorem stored_append {storage after : SpoStorage}
    (epochs : after.epochs = storage.epochs ++ [epoch]) (n : UInt32) :
    Stored after n ↔ Stored storage n ∨ n = epoch.epochNo := by
  simp [Stored, epochs]

theorem InRange.of_same (inRange : InRange chain s)
    (epochs : next.storage.epochs = s.storage.epochs) (more : s.reported ⊆ next.reported) :
    InRange chain next := by
  have same : ∀ n, Stored next.storage n ↔ Stored s.storage n := by
    intro n
    rw [Stored, epochs, Stored]
  refine ⟨?_, ?_⟩
  · simpa only [epochs, same] using inRange.range
  · intro n stored
    obtain ⟨r, reported, within⟩ := inRange.reached n ((same n).mp stored)
    exact ⟨r, more reported, within⟩

/-- The first epoch is in range if it is that of block 1 and has been reported. -/
theorem inRange_first_iff (empty : s.storage.epochs = [])
    (epochs : next.storage.epochs = s.storage.epochs ++ [epoch]) :
    InRange chain next ↔ (epoch.epochNo.toNat : Int) = chain.firstEpoch ∧
      ∃ r ∈ next.reported, epoch.epochNo ≤ r := by
  have stored : ∀ n, Stored next.storage n ↔ n = epoch.epochNo := by
    intro n
    simp [Stored, epochs, empty]
  constructor
  · intro inRange
    refine ⟨?_, inRange.reached epoch.epochNo ((stored _).mpr rfl)⟩
    rcases inRange.range with none_stored | ⟨first, last, isFirst, ordered, range⟩
    · simp [epochs, empty] at none_stored
    · have begins := (stored first).mp ((range first).mpr ⟨UInt32.le_refl _, ordered⟩)
      rw [← begins]
      exact isFirst
  · intro ⟨isFirst, r, reported, within⟩
    refine ⟨.inr ⟨epoch.epochNo, epoch.epochNo, isFirst, UInt32.le_refl _, fun n => ?_⟩, ?_⟩
    · rw [stored]
      exact ⟨fun same => same ▸ ⟨UInt32.le_refl _, UInt32.le_refl _⟩,
        fun between => UInt32.le_antisymm between.2 between.1⟩
    · intro n isStored
      rw [(stored n).mp isStored]
      exact ⟨r, reported, within⟩

/-- A later epoch is in range if one beyond the latest has been reported. -/
theorem inRange_next_iff {latest : Epoch} (inRange : InRange chain s)
    (highest : s.storage.getLatestEpoch = some latest) (number : epoch.epochNo = latest.epochNo + 1)
    (fresh : ∀ old ∈ s.storage.epochs, old.epochNo ≠ epoch.epochNo)
    (epochs : next.storage.epochs = s.storage.epochs ++ [epoch])
    (more : s.reported ⊆ next.reported) :
    InRange chain next ↔ ∃ r ∈ next.reported, latest.epochNo < r := by
  obtain ⟨member, above⟩ := getLatestEpoch_eq_some highest
  have latestStored : Stored s.storage latest.epochNo := List.mem_map_of_mem member
  have stored := stored_append epochs
  obtain ⟨first, last, isFirst, ordered, range⟩ := inRange.range.resolve_left
    (List.ne_nil_of_mem member)
  have isLast : last = latest.epochNo := by
    apply UInt32.le_antisymm
    · obtain ⟨top, listed, same⟩ := List.mem_map.mp ((range last).mpr ⟨ordered, UInt32.le_refl _⟩)
      exact same ▸ above top listed
    · exact ((range _).mp latestStored).2
  subst isLast
  have unstored : ¬Stored s.storage epoch.epochNo := by
    intro isStored
    obtain ⟨old, listed, same⟩ := List.mem_map.mp isStored
    exact fresh old listed same
  have small := latest.epochNo.toNat_lt
  have value : epoch.epochNo.toNat = (latest.epochNo.toNat + 1) % 2 ^ 32 := by
    rw [number, UInt32.toNat_add, UInt32.toNat_one]
  constructor
  · intro after
    obtain ⟨r, reported, within⟩ := after.reached _ ((stored _).mpr (.inr rfl))
    refine ⟨r, reported, ?_⟩
    rcases after.range with none_stored | ⟨first', last', isFirst', _, range'⟩
    · rw [epochs] at none_stored
      simp at none_stored
    · -- A number that wrapped to zero would lie below the first.
      have begins : first' = first := UInt32.toNat_inj.mp (by omega)
      have lower := ((range' _).mp ((stored _).mpr (.inr rfl))).1
      have outside := mt (range epoch.epochNo).mpr unstored
      rw [begins] at lower
      rw [UInt32.le_iff_toNat_le] at within lower ordered
      rw [UInt32.le_iff_toNat_le, UInt32.le_iff_toNat_le] at outside
      rw [UInt32.lt_iff_toNat_lt]
      omega
  · intro ⟨r, reported, beyond⟩
    have rSmall := r.toNat_lt
    rw [UInt32.lt_iff_toNat_lt] at beyond
    rw [UInt32.le_iff_toNat_le] at ordered
    refine ⟨.inr ⟨first, epoch.epochNo, isFirst, ?_, fun n => ?_⟩, fun n isStored => ?_⟩
    · rw [UInt32.le_iff_toNat_le]
      omega
    · rw [stored, range, ← UInt32.toNat_inj, UInt32.le_iff_toNat_le, UInt32.le_iff_toNat_le,
        UInt32.le_iff_toNat_le]
      omega
    · rcases (stored n).mp isStored with old | rfl
      · obtain ⟨earlier, listed, within⟩ := inRange.reached n old
        exact ⟨earlier, more listed, within⟩
      · refine ⟨r, reported, ?_⟩
        rw [UInt32.le_iff_toNat_le]
        omega

theorem latestEpochNum_of_empty {storage : SpoStorage} {answers : Answers} {latest : UInt32}
    (answered : chain.Answered answers) (empty : storage.getLatestEpoch = none)
    (read : latestEpochNum client storage answers = .ok latest) :
    ∃ status, answers.statusForFirst = some status ∧ chain.Reports status ∧
      client.getFirstEpochNum status chain.blockOne = .ok latest := by
  rw [latestEpochNum, empty] at read
  obtain ⟨status, first, timestamp, time, read⟩ := bind₂_success read
  have first := okOr_success first
  have time := okOr_success time
  rw [answered.blockOne timestamp time] at read
  exact ⟨status, first, answered.statusForFirst status first, read⟩

/-- A call from a state in range ends in range exactly under the condition. -/
theorem poll_inRange_iff (s : Polled) (answers : Answers) (answered : chain.Answered answers)
    (inRange : InRange chain s) :
    InRange chain (poll client cardanoIdOf s answers) ↔ StaysInRange chain cardanoIdOf s answers := by
  have more : s.reported ⊆ (poll client cardanoIdOf s answers).reported :=
    List.subset_append_left _ _
  rcases pollStep_epochs client cardanoIdOf s.storage answers with same |
    ⟨latest, epoch, read, number, fresh, epochs⟩
  · exact iff_of_true (inRange.of_same same more) fun stores => absurd same stores
  · have stores : Stores client cardanoIdOf s.storage answers := by
      rw [Stores, epochs]
      simp
    rw [StaysInRange]
    cases highest : s.storage.getLatestEpoch with
    | some last =>
      have isLatest : latest = last.epochNo := by
        rw [latestEpochNum, highest] at read
        exact (Except.ok.inj read).symm
      rw [inRange_next_iff inRange highest (isLatest ▸ number) fresh epochs more]
      exact ⟨fun beyond _ => beyond, fun beyond => beyond stores⟩
    | none =>
      obtain ⟨status, first, reports, read⟩ := latestEpochNum_of_empty answered highest read
      have isFirst := first_next_iff reports read
      rw [← number] at isFirst
      rw [inRange_first_iff (getLatestEpoch_eq_none_iff.mp highest) epochs, MayStore, first]
      constructor
      · rintro ⟨equal, r, reported, within⟩ _
        refine ⟨?_, r, reported, ?_⟩
        · rintro _ ⟨⟩
          exact (isFirst.mp equal).1
        · rw [UInt32.le_iff_toNat_le] at within
          omega
      · intro condition
        obtain ⟨aligned, r, reported, within⟩ := condition stores
        have rSmall := r.toNat_lt
        have equal := isFirst.mpr ⟨aligned status rfl, by omega⟩
        refine ⟨equal, r, reported, ?_⟩
        rw [UInt32.le_iff_toNat_le]
        omega

/-- Whatever epochs the node reports, the stored ones are at every moment a range from the
epoch of block 1 up to a reported epoch exactly if every call meets the condition. -/
theorem stored_range_iff (client : SpoClient) (chain : Chain client)
    (cardanoIdOf : Text → Option Text) (inputs : List Answers)
    (answered : ∀ answers ∈ inputs, chain.Answered answers) :
    (∀ taken, taken <+: inputs →
        InRange chain (run (poll client cardanoIdOf) Polled.initial taken)) ↔
      Guarded (poll client cardanoIdOf) (StaysInRange chain cardanoIdOf) Polled.initial inputs := by
  refine run_always_iff (InRange chain) ?_ Polled.initial ?_
  · intro s answers member inRange
    exact poll_inRange_iff s answers (answered answers member) inRange
  · exact ⟨Or.inl rfl, fun n stored => absurd stored List.not_mem_nil⟩

end

/-! ## Block 1 inside an epoch, and a node that goes back -/

/-- One call at an epoch of six seconds, counted from zero. -/
def atEpoch (blockOne : UInt64) (epoch : UInt32) : Answers :=
  { statusAnswers ⟨epoch, (asI64 epoch + 1) * 6000⟩ with blockOneTimestamp := some blockOne }

def slotChain (blockOne : UInt64) : Chain slotClient := ⟨0, blockOne⟩

theorem atEpoch_answered (blockOne : UInt64) (epoch : UInt32) :
    (slotChain blockOne).Answered (atEpoch blockOne epoch) := by
  have small := epoch.toNat_lt
  have reports : (slotChain blockOne).Reports ⟨epoch, (asI64 epoch + 1) * 6000⟩ := by
    have next : (asI64 epoch + 1).toInt = epoch.toNat + 1 := by
      rw [Int64.toInt_add, asI64_toInt, Int64.toInt_one]
      exact Int.bmod_eq_of_le (by omega) (by omega)
    have ends : ((asI64 epoch + 1) * 6000).toInt = (epoch.toNat + 1) * 6000 := by
      have six : (6000 : Int64).toInt = 6000 := rfl
      rw [Int64.toInt_mul, next, six]
      exact Int.bmod_eq_of_le (by omega) (by omega)
    exact ends.trans (Int.zero_add _).symm
  refine ⟨?_, ?_, ?_⟩
  · rintro _ ⟨⟩
    exact reports
  · rintro _ ⟨⟩
    exact reports
  · rintro _ ⟨⟩
    rfl

def polled (blockOne : UInt64) (epochs : List UInt32) : Polled :=
  run (poll slotClient fun _ => none) Polled.initial (epochs.map (atEpoch blockOne))

/-- With block 1 at the start of epoch 2 and a node that goes on, the epochs 2 to 4 are
stored. -/
theorem stored_range_sample :
    (polled 12000 [2, 4, 4]).storage.epochs.map Epoch.epochNo = [2, 3, 4] ∧
      InRange (slotChain 12000) (polled 12000 [2, 4, 4]) := by
  refine ⟨by decide +kernel, ?_⟩
  refine (stored_range_iff slotClient (slotChain 12000) (fun _ => none)
    ([2, 4, 4].map (atEpoch 12000)) ?_).mpr (by decide +kernel) _ List.prefix_rfl
  intro answers member
  obtain ⟨epoch, _, rfl⟩ := List.mem_map.mp member
  exact atEpoch_answered 12000 epoch

/-- With block 1 inside epoch 1 the stored epochs begin with epoch 2. And once epoch 2 is
stored, a node that reports epoch 1 makes it store epoch 3. -/
theorem stored_range_breaks :
    (polled 6001 [5]).storage.epochs.map Epoch.epochNo = [2] ∧
      (slotChain 6001).firstEpoch = 1 ∧ ¬InRange (slotChain 6001) (polled 6001 [5]) ∧
      (polled 12000 [2, 1]).storage.epochs.map Epoch.epochNo = [2, 3] ∧
      (polled 12000 [2, 1]).reported = [2, 2, 1] ∧
      ¬InRange (slotChain 12000) (polled 12000 [2, 1]) := by
  have begins : (polled 6001 [5]).storage.epochs.map Epoch.epochNo = [2] := by decide +kernel
  have runsAhead : (polled 12000 [2, 1]).storage.epochs.map Epoch.epochNo = [2, 3] := by
    decide +kernel
  have reported : (polled 12000 [2, 1]).reported = [2, 2, 1] := by decide +kernel
  refine ⟨begins, by decide +kernel, ?_, runsAhead, reported, ?_⟩
  · intro inRange
    rcases inRange.range with none_stored | ⟨first, last, isFirst, ordered, range⟩
    · simp [none_stored] at begins
    · have stored := (range first).mpr ⟨UInt32.le_refl _, ordered⟩
      rw [Stored, begins, List.mem_singleton] at stored
      rw [stored] at isFirst
      exact absurd isFirst (by decide +kernel)
  · intro inRange
    obtain ⟨r, member, within⟩ := inRange.reached 3 (by rw [Stored, runsAhead]; decide)
    rw [reported] at member
    simp only [List.mem_cons, List.not_mem_nil, or_false] at member
    rcases member with rfl | rfl | rfl
    all_goals exact absurd within (by decide)

end MidnightIndexer.Guarantees.EpochRange
