import Mathlib.Tactic.Linarith
import Mathlib.Tactic.Ring
import MidnightIndexer.Source.SubscriptionQuotas

/-!
# What a session's token bucket admits

The tokens are the potential: an attempt that is admitted costs one, and a second that
passes adds at most a sixtieth of the capacity. So the attempts that are admitted behind an
attempt are bounded by the tokens it leaves and the time since, and those in a window by the
capacity, which its first attempt finds at most, and the time of the window.
-/

namespace MidnightIndexer.Guarantees.TokenBucket

open Lib List Source.Quotas ExactBucket

def after (bucket : ExactBucket) (times : List ℚ) : ExactBucket :=
  run (fun bucket now => (bucket.tryTakeAt now).1) bucket times

def admitted (bucket : ExactBucket) : List ℚ → List ℚ
  | [] => []
  | now :: rest =>
    let (taken, allowed) := bucket.tryTakeAt now
    if allowed then now :: admitted taken rest else admitted taken rest

/-- A bucket that is refilled in a minute and neither overdrawn nor overfull. -/
structure Filled (bucket : ExactBucket) : Prop where
  rate : bucket.refillPerSec = bucket.capacity / 60
  nonneg : 0 ≤ bucket.tokens
  le_capacity : bucket.tokens ≤ bucket.capacity

theorem filled_new (c : ℕ) (start : ℚ) : Filled (new c start) :=
  ⟨rfl, Nat.cast_nonneg c, le_rfl⟩

/-! ## One attempt -/

/-- The tokens that a later attempt finds. -/
def level (bucket : ExactBucket) (now : ℚ) : ℚ :=
  min (bucket.tokens + (now - bucket.lastRefill) * bucket.refillPerSec) bucket.capacity

def drawn (bucket : ExactBucket) (now : ℚ) : ExactBucket :=
  { bucket with
    tokens := level bucket now - if 1 ≤ level bucket now then 1 else 0
    lastRefill := now }

variable {bucket : ExactBucket} {now last : ℚ} {times : List ℚ}

theorem tryTakeAt_eq (later : bucket.lastRefill ≤ now) :
    bucket.tryTakeAt now = (drawn bucket now, decide (1 ≤ level bucket now)) := by
  have found : (bucket.refill now).tokens = level bucket now := by
    rw [refill, max_eq_left (sub_nonneg.mpr later), level]
  unfold tryTakeAt drawn
  dsimp only
  rw [found]
  split
  next enough => simp [refill, enough]
  next few =>
    rw [sub_zero, decide_eq_false few, ← found]
    rfl

theorem Filled.gained_nonneg (filled : Filled bucket) {seconds : ℚ} (passed : 0 ≤ seconds) :
    0 ≤ seconds * bucket.refillPerSec := by
  have capacity := filled.nonneg.trans filled.le_capacity
  exact mul_nonneg passed (filled.rate ▸ by linarith)

theorem Filled.le_level (filled : Filled bucket) (later : bucket.lastRefill ≤ now) :
    bucket.tokens ≤ level bucket now := by
  have gained := filled.gained_nonneg (sub_nonneg.mpr later)
  exact le_min (by linarith) filled.le_capacity

theorem Filled.draw (filled : Filled bucket) (later : bucket.lastRefill ≤ now) :
    Filled (drawn bucket now) := by
  have most : level bucket now ≤ bucket.capacity := min_le_right _ _
  have least := filled.nonneg.trans (filled.le_level later)
  refine ⟨filled.rate, ?_, ?_⟩ <;> dsimp only [drawn] <;> split <;> linarith

theorem countP_admitted (later : bucket.lastRefill ≤ now) (p : ℚ → Bool) (rest : List ℚ) :
    ((admitted bucket (now :: rest)).countP p : ℚ) = (admitted (drawn bucket now) rest).countP p +
        if 1 ≤ level bucket now ∧ p now then 1 else 0 := by
  rw [admitted, tryTakeAt_eq later]
  by_cases enough : 1 ≤ level bucket now
  · simp [enough, countP_cons]
  · simp [enough]

/-! ## Whole sequences -/

theorem Filled.run (filled : Filled bucket)
    (ordered : (bucket.lastRefill :: times).Pairwise (· ≤ ·)) : Filled (after bucket times) := by
  induction times generalizing bucket with
  | nil => exact filled
  | cons now rest ih =>
    have later : bucket.lastRefill ≤ now := rel_of_pairwise_cons ordered mem_cons_self
    rw [after, run_cons, tryTakeAt_eq later]
    exact ih (filled.draw later) ordered.of_cons

theorem mem_of_admitted {time : ℚ} (member : time ∈ admitted bucket times) : time ∈ times := by
  induction times generalizing bucket with
  | nil => exact member
  | cons now rest ih =>
    rw [admitted] at member
    dsimp only at member
    split at member
    · exact mem_cons.mpr ((mem_cons.mp member).imp_right ih)
    · exact mem_cons_of_mem _ (ih member)

theorem Filled.countP_le (filled : Filled bucket)
    (ordered : (bucket.lastRefill :: times).Pairwise (· ≤ ·)) (reached : bucket.lastRefill ≤ last) :
    ((admitted bucket times).countP fun time => time ≤ last : ℚ) ≤
      bucket.tokens + (last - bucket.lastRefill) * bucket.refillPerSec := by
  have gained := filled.gained_nonneg (sub_nonneg.mpr reached)
  have nonneg := filled.nonneg
  induction times generalizing bucket with
  | nil =>
    simp only [admitted, countP_nil, Nat.cast_zero]
    linarith
  | cons now rest ih =>
    have later : bucket.lastRefill ≤ now := rel_of_pairwise_cons ordered mem_cons_self
    by_cases inside : now ≤ last
    · have refilled := filled.draw later
      have bound : _ ≤ (level bucket now - if 1 ≤ level bucket now then 1 else 0) +
          (last - now) * bucket.refillPerSec := ih refilled ordered.of_cons inside
        (refilled.gained_nonneg (sub_nonneg.mpr inside)) refilled.nonneg
      have most : level bucket now ≤ _ := min_le_left _ _
      simp only [countP_admitted later, inside, decide_true, and_true]
      linarith
    · -- no attempt from here on is counted
      have none_counted : (admitted bucket (now :: rest)).countP (fun time => time ≤ last) = 0 := by
        refine countP_eq_zero.mpr fun time member => ?_
        have behind : now ≤ time := by
          rcases mem_cons.mp (mem_of_admitted member) with rfl | behind
          · exact le_rfl
          · exact rel_of_pairwise_cons ordered.of_cons behind
        simpa using (not_le.mp inside).trans_le behind
      rw [none_counted, Nat.cast_zero]
      linarith

theorem Filled.countP_window (filled : Filled bucket)
    (ordered : (bucket.lastRefill :: times).Pairwise (· ≤ ·)) {first : ℚ} (window : first ≤ last) :
    ((admitted bucket times).countP fun time => first ≤ time ∧ time ≤ last : ℚ) ≤
      bucket.capacity + (last - first) * bucket.refillPerSec := by
  induction times generalizing bucket with
  | nil =>
    have gained := filled.gained_nonneg (sub_nonneg.mpr window)
    have capacity := filled.nonneg.trans filled.le_capacity
    simp only [admitted, countP_nil, Nat.cast_zero]
    linarith
  | cons now rest ih =>
    have later : bucket.lastRefill ≤ now := rel_of_pairwise_cons ordered mem_cons_self
    have refilled := filled.draw later
    rw [countP_admitted later]
    by_cases inside : first ≤ now ∧ now ≤ last
    · have bound : _ ≤ (level bucket now - if 1 ≤ level bucket now then 1 else 0) +
          (last - now) * bucket.refillPerSec := refilled.countP_le ordered.of_cons inside.2
      have fewer : ((admitted (drawn bucket now) rest).countP
          fun time => first ≤ time ∧ time ≤ last : ℚ) ≤
          (admitted (drawn bucket now) rest).countP fun time => time ≤ last :=
        Nat.cast_le.mpr (countP_mono_left fun time _ within => by simp_all)
      have most : level bucket now ≤ bucket.capacity := min_le_right _ _
      have passed := filled.gained_nonneg (sub_nonneg.mpr inside.1)
      simp only [inside, and_self, decide_true, and_true]
      linarith
    · simp only [inside, decide_false, Bool.false_eq_true, and_false, if_false, add_zero]
      exact ih refilled ordered.of_cons

/-- With as many tokens as attempts all are admitted. -/
theorem Filled.admits_all (filled : Filled bucket)
    (ordered : (bucket.lastRefill :: times).Pairwise (· ≤ ·))
    (enough : ∀ now ∈ times.head?, (times.length : ℚ) ≤ level bucket now) :
    admitted bucket times = times := by
  induction times generalizing bucket with
  | nil => rfl
  | cons now rest ih =>
    have later : bucket.lastRefill ≤ now := rel_of_pairwise_cons ordered mem_cons_self
    have found := enough now rfl
    rw [length_cons, Nat.cast_succ] at found
    have allowed : 1 ≤ level bucket now := (le_add_of_nonneg_left (Nat.cast_nonneg _)).trans found
    have rest_enough : ∀ next ∈ rest.head?, (rest.length : ℚ) ≤ level (drawn bucket now) next := by
      intro next head
      have behind := rel_of_pairwise_cons ordered.of_cons (mem_of_head? head)
      refine le_trans ?_ ((filled.draw later).le_level behind)
      rw [drawn, if_pos allowed]
      linarith
    rw [admitted, tryTakeAt_eq later]
    simp only [allowed, decide_true, if_true]
    rw [ih (filled.draw later) ordered.of_cons rest_enough]

theorem after_fields (times : List ℚ) (bucket : ExactBucket) :
    (after bucket times).lastRefill = times.getLastD bucket.lastRefill ∧
      (after bucket times).capacity = bucket.capacity := by
  induction times generalizing bucket with
  | nil => exact ⟨rfl, rfl⟩
  | cons now rest ih =>
    have fields : (bucket.tryTakeAt now).1.lastRefill = now ∧
        (bucket.tryTakeAt now).1.capacity = bucket.capacity := by
      unfold tryTakeAt
      dsimp only
      split <;> exact ⟨rfl, rfl⟩
    have later := ih (bucket.tryTakeAt now).1
    rw [fields.1, fields.2] at later
    exact ⟨later.1.trans getLastD_cons.symm, later.2⟩

/-- A minute after it was last refilled the bucket is full again. -/
theorem Filled.capacity_le_level (filled : Filled bucket)
    (passed : bucket.lastRefill + 60 ≤ now) : bucket.capacity ≤ level bucket now := by
  have minute : bucket.capacity ≤ (now - bucket.lastRefill) * bucket.refillPerSec :=
    calc bucket.capacity = 60 * bucket.refillPerSec := by rw [filled.rate]; ring
      _ ≤ (now - bucket.lastRefill) * bucket.refillPerSec := by
        have gained := filled.gained_nonneg (by linarith : 0 ≤ now - bucket.lastRefill - 60)
        linarith
  exact le_min (by linarith [filled.nonneg]) le_rfl

/-- Over any attempts the tokens stay between zero and the capacity, any window of `t` seconds
admits at most `c + c * t / 60` attempts, and after a minute without attempts `c` in a row are
admitted. -/
theorem token_bucket_bounded (c : ℕ) (start : ℚ) (times : List ℚ)
    (ordered : (start :: times).Pairwise (· ≤ ·)) :
    let bucket := ExactBucket.new c start
    (∀ n, 0 ≤ (after bucket (times.take n)).tokens ∧
      (after bucket (times.take n)).tokens ≤ c) ∧
    (∀ first t : ℚ, 0 ≤ t → ((admitted bucket times).countP fun time =>
      first ≤ time ∧ time ≤ first + t : ℚ) ≤ c + c * t / 60) ∧
    (∀ later : List ℚ, later.length = c → (start :: later).Pairwise (· ≤ ·) →
      (∀ time ∈ later, ∀ earlier ∈ times, earlier + 60 ≤ time) →
      admitted (after bucket times) later = later) := by
  intro bucket
  have filled : Filled bucket := filled_new c start
  refine ⟨fun n => ?_, fun first t nonneg => ?_, fun later length increasing idle => ?_⟩
  · have kept := filled.run (ordered.sublist ((List.take_sublist n times).cons_cons start))
    exact ⟨kept.nonneg, kept.le_capacity.trans_eq (after_fields _ bucket).2⟩
  · have bound := filled.countP_window ordered (le_add_of_nonneg_right nonneg : first ≤ first + t)
    refine bound.trans_eq ?_
    change (c : ℚ) + (first + t - first) * (c / 60) = c + c * t / 60
    ring
  · cases times with
    | nil =>
      -- a bucket starts full
      refine filled.admits_all increasing fun now head => ?_
      rw [length]
      exact filled.le_level (List.rel_of_pairwise_cons increasing (List.mem_of_head? head))
    | cons attempt rest =>
      have kept := filled.run ordered
      obtain ⟨reached, capacity⟩ := after_fields (attempt :: rest) bucket
      have minute : ∀ time ∈ later, (after bucket (attempt :: rest)).lastRefill + 60 ≤ time := by
        intro time member
        rw [reached, List.getLastD_cons]
        exact idle time member _ List.getLastD_mem_cons
      refine kept.admits_all (List.pairwise_cons.mpr ⟨?_, increasing.of_cons⟩) fun now head => ?_
      · intro time member
        have passed := minute time member
        linarith
      · rw [length]
        exact capacity.ge.trans (kept.capacity_le_level (minute now (List.mem_of_head? head)))

/-- With two tokens the third of three attempts at once is refused, the one a minute later not. -/
theorem token_bucket_bounded_three :
    let bucket := ExactBucket.new 2 0
    admitted bucket [0, 0, 0, 60] = [0, 0, 60] ∧
    (∀ first t : ℚ, 0 ≤ t → ((admitted bucket [0, 0, 0, 60]).countP fun time =>
      first ≤ time ∧ time ≤ first + t : ℚ) ≤ (2 : ℕ) + (2 : ℕ) * t / 60) ∧
    admitted (after bucket [0, 0, 0]) [60, 61] = [60, 61] := by
  refine ⟨by decide +kernel, ?_, ?_⟩
  · exact (token_bucket_bounded 2 0 [0, 0, 0, 60] (by decide +kernel)).2.1
  · exact (token_bucket_bounded 2 0 [0, 0, 0] (by decide +kernel)).2.2 [60, 61] rfl
      (by decide +kernel) (by decide +kernel)

end MidnightIndexer.Guarantees.TokenBucket
