import Mathlib.Algebra.Order.Field.Rat
import MidnightIndexer.Source.WalletIndexer

/-!
# Subscription quotas

indexer-api/src/infra/api/quota.rs:56-200. A connection's counter is an atomic
`usize`, the buckets of all sessions are one map. `try_acquire` is modelled twice:
as one function, for callers that run it to its end, and as the atomic steps it
takes on the shared state, for calls that run side by side. An instant is a number
of nanoseconds; `duration_since` of an earlier instant is zero. The bucket is there once
more over exact rationals, with instants in seconds.
-/

namespace MidnightIndexer.Source.Quotas

open Lib

structure QuotaConfig where
  maxConcurrentPerConnection : UInt64
  concurrent_nonzero : maxConcurrentPerConnection ≠ 0
  maxSessionSubscriptionsPerMinute : UInt32
  rate_nonzero : maxSessionSubscriptionsPerMinute ≠ 0

inductive QuotaError where
  | perConnection (max : UInt64)
  | perSessionRate (max : UInt32)
  deriving DecidableEq

/-! ## Token bucket -/

structure TokenBucket where
  tokens : Float
  capacity : Float
  refillPerSec : Float
  lastRefill : Nat

/-- `Duration::as_secs_f64`. -/
def asSecsF64 (nanos : Nat) : Float :=
  Float.ofNat (nanos / 1000000000) + Float.ofNat (nanos % 1000000000) / 1000000000.0

def TokenBucket.new (config : QuotaConfig) (now : Nat) : TokenBucket :=
  let capacity := Float.ofNat config.maxSessionSubscriptionsPerMinute.toNat
  { tokens := capacity, capacity := capacity, refillPerSec := capacity / 60.0, lastRefill := now }

def TokenBucket.refill (bucket : TokenBucket) (now : Nat) : TokenBucket :=
  let elapsed := asSecsF64 (now - bucket.lastRefill)
  { bucket with
    tokens := min (bucket.tokens + elapsed * bucket.refillPerSec) bucket.capacity
    lastRefill := now }

/-- Whether the refilled bucket still holds a token. -/
def TokenBucket.allows (bucket : TokenBucket) (now : Nat) : Bool :=
  1.0 ≤ (bucket.refill now).tokens

def TokenBucket.tryTakeAt (bucket : TokenBucket) (now : Nat) : TokenBucket × Bool :=
  let refilled := bucket.refill now
  if bucket.allows now then ({ refilled with tokens := refilled.tokens - 1.0 }, true)
  else (refilled, false)

/-- The bucket over exact rationals. -/
structure ExactBucket where
  tokens : ℚ
  capacity : ℚ
  refillPerSec : ℚ
  lastRefill : ℚ

namespace ExactBucket

def new (maxSessionSubscriptionsPerMinute : ℕ) (now : ℚ) : ExactBucket :=
  let capacity : ℚ := maxSessionSubscriptionsPerMinute
  { tokens := capacity, capacity := capacity, refillPerSec := capacity / 60, lastRefill := now }

def refill (bucket : ExactBucket) (now : ℚ) : ExactBucket :=
  let elapsed := max (now - bucket.lastRefill) 0
  { bucket with
    tokens := min (bucket.tokens + elapsed * bucket.refillPerSec) bucket.capacity
    lastRefill := now }

def tryTakeAt (bucket : ExactBucket) (now : ℚ) : ExactBucket × Bool :=
  let refilled := bucket.refill now
  if 1 ≤ refilled.tokens then ({ refilled with tokens := refilled.tokens - 1 }, true)
  else (refilled, false)

end ExactBucket

/-! ## The atomic operations -/

abbrev Buckets := List (SessionId × TokenBucket)

/-- `fetch_update`: one more, unless the limit is reached. -/
def fetchIncrement (config : QuotaConfig) (current : UInt64) : Option UInt64 :=
  if current < config.maxConcurrentPerConnection then some (current + 1) else none

/-- `entry(session).or_insert_with(..)`. -/
def enterBucket (config : QuotaConfig) (session : SessionId) (now : Nat) (buckets : Buckets) :
    Buckets :=
  Table.insertIgnore Prod.fst buckets (session, TokenBucket.new config now)

/-- `bucket.lock().try_take()`. A bucket is never removed, so the handle is the
entry of the map. -/
def takeToken (session : SessionId) (now : Nat) (buckets : Buckets) : Buckets × Bool :=
  match Table.lookup Prod.fst session buckets with
  | some (_, bucket) =>
    let (taken, allowed) := bucket.tryTakeAt now
    (Table.update Prod.fst session (fun entry => (entry.1, taken)) buckets, allowed)
  | none => (buckets, false)

/-- The session's bucket, or the one made for it, holds a token. -/
def tokenLeft (config : QuotaConfig) (buckets : Buckets) (session : SessionId) (now : Nat) : Bool :=
  match Table.lookup Prod.fst session buckets with
  | some (_, bucket) => bucket.allows now
  | none => (TokenBucket.new config now).allows now

/-- `SubscriptionQuotas` with the counters of the connections. -/
structure SubscriptionQuotas (Connection : Type) where
  counters : Connection → UInt64
  perSessionBuckets : Buckets
  active : Int
  rejectedPerConnection : Nat
  rejectedPerSessionRate : Nat

variable {Connection : Type} [DecidableEq Connection]

/-- At the start of the process; a new connection's counter is zero. -/
def SubscriptionQuotas.new : SubscriptionQuotas Connection := ⟨fun _ => 0, [], 0, 0, 0⟩

namespace SubscriptionQuotas

variable (quotas : SubscriptionQuotas Connection)

/-- `fetch_sub(1)`. -/
def fetchDecrement (connection : Connection) : SubscriptionQuotas Connection :=
  { quotas with
    counters := Function.update quotas.counters connection (quotas.counters connection - 1) }

/-- The guard that a successful call returns. -/
def issueGuard : SubscriptionQuotas Connection := { quotas with active := quotas.active + 1 }

def dropGuard (connection : Connection) : SubscriptionQuotas Connection :=
  { quotas.fetchDecrement connection with active := quotas.active - 1 }

/-- `try_acquire` by one caller alone. -/
def tryAcquire (config : QuotaConfig) (connection : Connection) (session : Option SessionId)
    (now : Nat) : SubscriptionQuotas Connection × Except QuotaError Unit :=
  match fetchIncrement config (quotas.counters connection) with
  | none =>
    ({ quotas with rejectedPerConnection := quotas.rejectedPerConnection + 1 },
      .error (.perConnection config.maxConcurrentPerConnection))
  | some next =>
    let counted := { quotas with counters := Function.update quotas.counters connection next }
    match session with
    | none => (counted.issueGuard, .ok ())
    | some session =>
      let (buckets, allowed) :=
        takeToken session now (enterBucket config session now quotas.perSessionBuckets)
      let taken := { counted with perSessionBuckets := buckets }
      if allowed then (taken.issueGuard, .ok ())
      else
        let undone := taken.fetchDecrement connection
        ({ undone with rejectedPerSessionRate := undone.rejectedPerSessionRate + 1 },
          .error (.perSessionRate config.maxSessionSubscriptionsPerMinute))

/-! ### What the function does -/

theorem takeToken_enterBucket (config : QuotaConfig) (session : SessionId) (now : Nat)
    (buckets : Buckets) : (takeToken session now (enterBucket config session now buckets)).2 =
      tokenLeft config buckets session now := by
  unfold takeToken enterBucket tokenLeft
  rw [Table.lookup_insertIgnore, if_pos rfl]
  cases Table.lookup Prod.fst session buckets with
  | none => simp only [Option.none_or, TokenBucket.tryTakeAt]; split <;> simp_all
  | some entry => simp only [Option.some_or, TokenBucket.tryTakeAt]; split <;> simp_all

theorem takeToken_sessions (session : SessionId) (now : Nat) (buckets : Buckets) :
    (takeToken session now buckets).1.map Prod.fst = buckets.map Prod.fst := by
  unfold takeToken
  split
  next =>
    apply Table.update_map_eq
    intro entry
    rfl
  next => rfl

variable (config : QuotaConfig) (connection : Connection) (session : SessionId) (now : Nat)

include config connection session now

theorem tryAcquire_ok_iff : (quotas.tryAcquire config connection (some session) now).2 = .ok () ↔
      quotas.counters connection < config.maxConcurrentPerConnection ∧
        tokenLeft config quotas.perSessionBuckets session now = true := by
  unfold tryAcquire fetchIncrement
  rw [← takeToken_enterBucket]
  by_cases free : quotas.counters connection < config.maxConcurrentPerConnection
  · simp only [if_pos free]
    split <;> simp_all
  · simp [free]

/-- The sessions with a bucket afterwards: one more if the counter was below the
limit and the session had none. -/
theorem tryAcquire_sessions :
    (quotas.tryAcquire config connection (some session) now).1.perSessionBuckets.map Prod.fst =
      if quotas.counters connection < config.maxConcurrentPerConnection then
        (enterBucket config session now quotas.perSessionBuckets).map Prod.fst
      else quotas.perSessionBuckets.map Prod.fst := by
  have same := takeToken_sessions session now
    (enterBucket config session now quotas.perSessionBuckets)
  unfold tryAcquire fetchIncrement
  by_cases free : quotas.counters connection < config.maxConcurrentPerConnection
  · simp only [if_pos free]
    split
    next => exact same
    next => exact same
  · simp [free]

end SubscriptionQuotas

/-! ## Calls side by side -/

/-- Where a call stands: it has incremented the counter and goes for its bucket,
has the handle of the bucket, has been refused the token or may return its guard;
then it has returned, with a guard or an error, and the guard may have been
dropped. -/
inductive Phase where
  | entering (session : SessionId)
  | taking (session : SessionId)
  | refused
  | allowed
  | held
  | rejected (error : QuotaError)
  | dropped
  deriving DecidableEq

structure Call (Connection : Type) where
  connection : Connection
  phase : Phase

/-- The calls of a run in the order of their first steps; a call is named by its
position. -/
structure Machine (Connection : Type) where
  quotas : SubscriptionQuotas Connection
  calls : List (Call Connection)

def Machine.initial : Machine Connection := ⟨SubscriptionQuotas.new, []⟩

/-- One atomic step of a call. -/
inductive QuotaStep (Connection : Type) where
  | start (connection : Connection) (session : Option SessionId)
  | enter (call : Nat) (now : Nat)
  | take (call : Nat) (now : Nat)
  | undo (call : Nat)
  | finish (call : Nat)
  | drop (call : Nat)

namespace Machine

variable (config : QuotaConfig) (s : Machine Connection)

def advance (call : Nat) (phase : Phase) : List (Call Connection) :=
  s.calls.modify call fun row => { row with phase := phase }

/-- The phase of a call whose counter has been incremented. -/
def afterIncrement : Option SessionId → Phase
  | none => .allowed
  | some session => .entering session

def start (connection : Connection) (session : Option SessionId) : Machine Connection :=
  match fetchIncrement config (s.quotas.counters connection) with
  | none =>
    { quotas := { s.quotas with rejectedPerConnection := s.quotas.rejectedPerConnection + 1 }
      calls := s.calls ++
        [⟨connection, .rejected (.perConnection config.maxConcurrentPerConnection)⟩] }
  | some next =>
    { quotas := { s.quotas with counters := Function.update s.quotas.counters connection next }
      calls := s.calls ++ [⟨connection, afterIncrement session⟩] }

def enter (call now : Nat) (session : SessionId) : Machine Connection :=
  { quotas := { s.quotas with
      perSessionBuckets := enterBucket config session now s.quotas.perSessionBuckets }
    calls := s.advance call (.taking session) }

def take (call now : Nat) (session : SessionId) : Machine Connection :=
  let (buckets, allowed) := takeToken session now s.quotas.perSessionBuckets
  { quotas := { s.quotas with perSessionBuckets := buckets }
    calls := s.advance call (if allowed then .allowed else .refused) }

def undo (call : Nat) (connection : Connection) : Machine Connection :=
  let undone := s.quotas.fetchDecrement connection
  { quotas := { undone with rejectedPerSessionRate := undone.rejectedPerSessionRate + 1 }
    calls := s.advance call
      (.rejected (.perSessionRate config.maxSessionSubscriptionsPerMinute)) }

def finish (call : Nat) : Machine Connection :=
  { quotas := s.quotas.issueGuard, calls := s.advance call .held }

def drop (call : Nat) (connection : Connection) : Machine Connection :=
  { quotas := s.quotas.dropGuard connection, calls := s.advance call .dropped }

/-- A step that the call is not about to take changes nothing. -/
def step : QuotaStep Connection → Machine Connection
  | .start connection session => s.start config connection session
  | .enter call now =>
    match s.calls[call]? with
    | some ⟨_, .entering session⟩ => s.enter config call now session
    | _ => s
  | .take call now =>
    match s.calls[call]? with
    | some ⟨_, .taking session⟩ => s.take call now session
    | _ => s
  | .undo call =>
    match s.calls[call]? with
    | some ⟨connection, .refused⟩ => s.undo config call connection
    | _ => s
  | .finish call =>
    match s.calls[call]? with
    | some ⟨_, .allowed⟩ => s.finish call
    | _ => s
  | .drop call =>
    match s.calls[call]? with
    | some ⟨connection, .held⟩ => s.drop call connection
    | _ => s

def caller : QuotaStep Connection → Nat
  | .start _ _ => s.calls.length
  | .enter call _ | .take call _ | .undo call | .finish call | .drop call => call

/-! ### The function is its steps without others between them -/

/-- The steps of one call; those that it does not take change nothing. -/
def acquireSteps (call : Nat) (connection : Connection) (session : Option SessionId) (now : Nat) :
    List (QuotaStep Connection) :=
  [.start connection session, .enter call now, .take call now, .undo call, .finish call]

/-- The phase that a result of `try_acquire` leaves a call in. -/
def returned : Except QuotaError Unit → Phase
  | .ok () => .held
  | .error error => .rejected error

theorem tryAcquire_steps (connection : Connection) (session : Option SessionId) (now : Nat) :
    run (step config) s (acquireSteps s.calls.length connection session now) =
      ⟨(s.quotas.tryAcquire config connection session now).1, s.calls ++ [⟨connection,
          returned (s.quotas.tryAcquire config connection session now).2⟩]⟩ := by
  obtain ⟨quotas, calls⟩ := s
  simp only [acquireSteps, run_cons, run_nil, step, start, SubscriptionQuotas.tryAcquire]
  cases fetchIncrement config (quotas.counters connection) with
  | none => simp [returned]
  | some next =>
    cases session with
    | none => simp [afterIncrement, finish, advance, Table.modify_last, returned]
    | some session =>
      simp only [afterIncrement, List.getElem?_concat_length, enter, advance, Table.modify_last, take]
      generalize takeToken session now _ = outcome
      obtain ⟨buckets, allowed⟩ := outcome
      cases allowed with
      | false => simp [undo, advance, Table.modify_last, returned]
      | true => simp [finish, advance, Table.modify_last, returned]

end Machine

end MidnightIndexer.Source.Quotas
