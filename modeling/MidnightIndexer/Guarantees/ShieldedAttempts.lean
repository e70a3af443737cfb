import Mathlib.Data.List.Dedup
import MidnightIndexer.Source.ShieldedAttempts

/-!
# What attempts to subscribe leave behind

The gauge `wallets_connected` goes up before the first check and comes down only
with a stream, so it counts the live streams exactly as long as no attempt fails.
A bucket is made for any session id that decodes, before the session is looked up,
and is never removed, so the buckets are bounded by the issued sessions as long as
only issued sessions get as far as the bucket.
-/

namespace MidnightIndexer.Guarantees.ShieldedAttempts

open Lib List Source Source.Quotas Source.ShieldedAttempts Source.WalletSessions

variable {Connection : Type} [DecidableEq Connection]

/-! ## The gauge -/

def GaugeExact (s : ApiState Connection) : Prop := s.walletsConnected = s.streams.length

def AttemptAdmitted (config : QuotaConfig) (s : ApiState Connection) :
    ApiInput Connection → Prop
  | .subscribe attempt => Admitted config s attempt
  | .connect .. | .disconnect _ | .expire .. | .dropStream _ => True

variable {s : ApiState Connection} {config : QuotaConfig}

theorem GaugeExact.dropStream (exactly : GaugeExact s) (position : Nat) :
    GaugeExact (dropStream position s) := by
  unfold Source.ShieldedAttempts.dropStream
  split
  next => exact exactly
  next stream there =>
    have inside : position < s.streams.length := (List.getElem?_eq_some_iff.mp there).1
    have length := length_eraseIdx_of_lt inside
    unfold GaugeExact at exactly ⊢
    dsimp only
    omega

/-- A step from an exact gauge leads to one exactly if it is no failed attempt. -/
theorem gaugeExact_step_iff (exactly : GaugeExact s) (input : ApiInput Connection) :
    GaugeExact (apiStep config s input) ↔ AttemptAdmitted config s input := by
  cases input with
  | connect id key startIndex now session =>
    refine iff_of_true ?_ trivial
    rw [apiStep]
    split <;> exact exactly
  | disconnect | expire => exact iff_of_true exactly trivial
  | dropStream position => exact iff_of_true (exactly.dropStream position) trivial
  | subscribe attempt =>
    have outcome := shieldedTransactions_attempted config attempt s
    rw [apiStep, AttemptAdmitted, ← outcome.ok_iff, GaugeExact, outcome.gauge, outcome.streams,
      exactly]
    split <;> simp_all

/-- **The gauge counts the live streams exactly while no attempt fails.** -/
theorem wallets_connected_exact_iff (config : QuotaConfig) (db : WalletDb)
    (issued : List SessionId) (inputs : List (ApiInput Connection)) :
    (∀ taken, taken <+: inputs →
        GaugeExact (run (apiStep config) (ApiState.started db issued) taken)) ↔
      Guarded (apiStep config) (AttemptAdmitted config) (ApiState.started db issued) inputs :=
  run_always_iff GaugeExact (fun _ input _ exactly => gaugeExact_step_iff exactly input) _ rfl

def sampleConfig : QuotaConfig := ⟨2, by decide, 60, by decide⟩

/-- An id that is not hexadecimal leaves the gauge at one without a stream. -/
theorem failed_attempt_stays_counted :
    ¬ GaugeExact (run (apiStep sampleConfig) (ApiState.started WalletDb.empty [])
      [.subscribe ⟨(), ['z', 'z'], 0, false⟩]) := by
  unfold GaugeExact
  decide

/-! ## The buckets -/

/-- An attempt that gets as far as the bucket has a session that `connect` issued. -/
def SessionIssued (config : QuotaConfig) (s : ApiState Connection) :
    ApiInput Connection → Prop
  | .subscribe attempt => ∀ session, decodeSessionId attempt.sessionId = .ok session →
    s.quotas.counters attempt.connection < config.maxConcurrentPerConnection →
    session ∈ s.issued
  | .connect .. | .disconnect _ | .expire .. | .dropStream _ => True

structure BucketsIssued (s : ApiState Connection) : Prop where
  unique : (s.quotas.perSessionBuckets.map Prod.fst).Nodup
  issued : ∀ session ∈ s.quotas.perSessionBuckets.map Prod.fst, session ∈ s.issued

theorem BucketsIssued.bounded {Client : Type} {s : ApiState Client} (holds : BucketsIssued s) :
    s.quotas.perSessionBuckets.length ≤ s.issued.dedup.length := by
  have sub : s.quotas.perSessionBuckets.map Prod.fst ⊆ s.issued.dedup :=
    fun session member => mem_dedup.mpr (holds.issued session member)
  simpa using (subperm_of_subset holds.unique sub).length_le

theorem BucketsIssued.tryAcquire (holds : BucketsIssued s) {connection : Connection}
    {session : SessionId}
    (known : s.quotas.counters connection < config.maxConcurrentPerConnection →
      session ∈ s.issued) {after : ApiState Connection} {now : Nat}
    (issued : after.issued = s.issued) (buckets : after.quotas.perSessionBuckets =
      (s.quotas.tryAcquire config connection (some session) now).1.perSessionBuckets) :
    BucketsIssued after := by
  have sessions := s.quotas.tryAcquire_sessions config connection session now
  rw [← buckets] at sessions
  split at sessions
  next free =>
    constructor
    · rw [sessions]
      exact Table.insertIgnore_nodup holds.unique _
    · rw [sessions, issued]
      intro other member
      obtain ⟨entry, entered, rfl⟩ := mem_map.mp member
      rcases Table.mem_insertIgnore entered with old | ⟨rfl, _⟩
      · exact holds.issued _ (mem_map_of_mem old)
      · exact known free
  next =>
    constructor
    · rw [sessions]
      exact holds.unique
    · rw [sessions, issued]
      exact holds.issued

theorem BucketsIssued.step (s : ApiState Connection) (input : ApiInput Connection)
    (holds : BucketsIssued s) (known : SessionIssued config s input) :
    BucketsIssued (apiStep config s input) := by
  cases input with
  | connect id key startIndex now session =>
    rw [apiStep]
    split
    next => exact ⟨holds.unique, fun other member =>
      mem_append_left _ (holds.issued other member)⟩
    next => exact holds
  | disconnect | expire => exact ⟨holds.unique, holds.issued⟩
  | dropStream position =>
    rw [apiStep, dropStream]
    split
    next => exact holds
    next => exact ⟨holds.unique, holds.issued⟩
  | subscribe attempt =>
    have outcome := shieldedTransactions_attempted config attempt s
    rw [apiStep]
    cases decoded : decodeSessionId attempt.sessionId with
    | error e =>
      have same := outcome.invalid e decoded
      refine ⟨?_, ?_⟩
      · rw [same]
        exact holds.unique
      · rw [same, outcome.issued]
        exact holds.issued
    | ok session =>
      exact holds.tryAcquire (known session decoded) outcome.issued (outcome.buckets session decoded)

/-- **The buckets are bounded by the issued sessions** in every state of a run in
which only issued sessions get as far as the bucket. -/
theorem session_buckets_bounded (config : QuotaConfig) (db : WalletDb) (issued : List SessionId)
    (inputs : List (ApiInput Connection))
    (known : Guarded (apiStep config) (SessionIssued config) (ApiState.started db issued) inputs)
    (taken : List (ApiInput Connection)) (part : taken <+: inputs) :
    (run (apiStep config) (ApiState.started db issued) taken).quotas.perSessionBuckets.length ≤
      (run (apiStep config) (ApiState.started db issued) taken).issued.dedup.length := by
  obtain ⟨rest, rfl⟩ := part
  have initially : BucketsIssued (ApiState.started db issued : ApiState Connection) :=
    ⟨List.nodup_nil, nofun⟩
  exact (run_invariant BucketsIssued.step _ taken initially known.take.1).bounded

def sampleSession : HexEncoded := List.replicate 64 '0'

/-- A wallet connects with session zero and subscribes with it twice. -/
def sampleInputs : List (ApiInput Unit) :=
  [.connect 1 0 none 0 0, .subscribe ⟨(), sampleSession, 0, false⟩,
    .subscribe ⟨(), sampleSession, 1, false⟩]

theorem sampleInputs_issued : Guarded (apiStep sampleConfig) (SessionIssued sampleConfig)
      (ApiState.started WalletDb.empty []) sampleInputs := by
  have zero : decodeSessionId sampleSession = .ok 0 := by decide +kernel
  refine ⟨trivial, ?_, ?_, trivial⟩
  · intro session decoded _
    cases zero.symm.trans decoded
    decide +kernel
  · intro session decoded _
    cases zero.symm.trans decoded
    decide +kernel

theorem session_buckets_bounded_sample :
    (run (apiStep sampleConfig) (ApiState.started WalletDb.empty [])
        sampleInputs).quotas.perSessionBuckets.length ≤
      (run (apiStep sampleConfig) (ApiState.started WalletDb.empty [])
        sampleInputs).issued.dedup.length :=
  session_buckets_bounded sampleConfig WalletDb.empty [] sampleInputs sampleInputs_issued
    sampleInputs List.prefix_rfl

/-- A session that nobody issued gets a bucket. -/
theorem unknown_session_gets_bucket :
    ¬ (run (apiStep sampleConfig) (ApiState.started WalletDb.empty [])
        [.subscribe ⟨(), sampleSession, 0, false⟩]).quotas.perSessionBuckets.length ≤
      (run (apiStep sampleConfig) (ApiState.started WalletDb.empty [])
        [.subscribe ⟨(), sampleSession, 0, false⟩]).issued.dedup.length := by
  decide +kernel

end MidnightIndexer.Guarantees.ShieldedAttempts
