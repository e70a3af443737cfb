import MidnightIndexer.Source.SubscriptionQuotas
import MidnightIndexer.Source.WalletSessions

/-!
# Opening `shieldedTransactions` subscriptions

indexer-api/src/infra/api/v4/subscription/shielded.rs:135-200: the checks before
the stream is built, in the order of the source, and the end of the stream. The
gauge `wallets_connected` is incremented first and decremented when the stream is
dropped. Of the stream the connection and the wallet are kept; the guard of a
failed attempt is dropped on return.
-/

namespace MidnightIndexer.Source.ShieldedAttempts

open Lib Quotas WalletSessions

structure Stream (Connection : Type) where
  connection : Connection
  walletId : Uuid

/-- What the API process and the database hold. `issued` are the sessions that
`connect` has returned, in any process so far. -/
structure ApiState (Connection : Type) where
  db : WalletDb
  issued : List SessionId
  quotas : SubscriptionQuotas Connection
  walletsConnected : Int
  streams : List (Stream Connection)

/-- A call of the subscription. `storageFails` is the outcome of the query. -/
structure Attempt (Connection : Type) where
  connection : Connection
  sessionId : HexEncoded
  now : Nat
  storageFails : Bool

variable {Connection : Type} [DecidableEq Connection]

/-- The API process has just been started. -/
def ApiState.started (db : WalletDb) (issued : List SessionId) : ApiState Connection :=
  ⟨db, issued, SubscriptionQuotas.new, 0, []⟩

/-- The part under the guard: the session is resolved and the stream built. -/
def openStream (attempt : Attempt Connection) (session : SessionId) (s : ApiState Connection) :
    ApiState Connection × Except ApiError Uuid :=
  let released := { s with quotas := s.quotas.dropGuard attempt.connection }
  if attempt.storageFails then (released, .error (.server "resolve session ID"))
  else match resolveSessionId session s.db with
    | none => (released, .error (.client "unknown or expired session ID"))
    | some walletId =>
      ({ s with streams := s.streams ++ [⟨attempt.connection, walletId⟩] }, .ok walletId)

def shieldedTransactions (config : QuotaConfig) (attempt : Attempt Connection)
    (s : ApiState Connection) : ApiState Connection × Except ApiError Uuid :=
  let counted := { s with walletsConnected := s.walletsConnected + 1 }
  match decodeSessionId attempt.sessionId with
  | .error _ => (counted, .error (.client "invalid session ID"))
  | .ok session =>
    let (quotas, acquired) :=
      s.quotas.tryAcquire config attempt.connection (some session) attempt.now
    match acquired with
    | .error _ =>
      ({ counted with quotas := quotas }, .error (.client "subscription limit exceeded"))
    | .ok () => openStream attempt session { counted with quotas := quotas }

def dropStream (position : Nat) (s : ApiState Connection) : ApiState Connection :=
  match s.streams[position]? with
  | none => s
  | some stream =>
    { s with
      quotas := s.quotas.dropGuard stream.connection
      walletsConnected := s.walletsConnected - 1
      streams := s.streams.eraseIdx position }

inductive ApiInput (Connection : Type) where
  | connect (id : Uuid) (key : ViewingKey) (startIndex : Option Nat) (now : Int)
      (session : SessionId)
  | disconnect (session : SessionId)
  | expire (ids : List Uuid) (minLastActive : Int)
  | subscribe (attempt : Attempt Connection)
  | dropStream (position : Nat)

def apiStep (config : QuotaConfig) (s : ApiState Connection) :
    ApiInput Connection → ApiState Connection
  | .connect id key startIndex now session =>
    match connectWallet id key startIndex now session s.db with
    | .ok after => { s with db := after, issued := s.issued ++ [session] }
    | .error _ => s
  | .disconnect session => { s with db := disconnectWallet session s.db }
  | .expire ids minLastActive => { s with db := clearOutdated ids minLastActive s.db }
  | .subscribe attempt => (shieldedTransactions config attempt s).1
  | .dropStream position => dropStream position s

/-! ## When an attempt succeeds -/

/-- The checks, over the state before the attempt. -/
def Admitted (config : QuotaConfig) (s : ApiState Connection) (attempt : Attempt Connection) :
    Prop :=
  ∃ session, decodeSessionId attempt.sessionId = .ok session ∧
    s.quotas.counters attempt.connection < config.maxConcurrentPerConnection ∧
    tokenLeft config s.quotas.perSessionBuckets session attempt.now = true ∧
    attempt.storageFails = false ∧ ∃ wallet ∈ s.db.wallets, wallet.sessionId = some session

theorem resolveSessionId_isSome {session : SessionId} {db : WalletDb} :
    (resolveSessionId session db).isSome ↔ ∃ wallet ∈ db.wallets, wallet.sessionId = some session := by
  rw [resolveSessionId, Option.isSome_map, Table.lookup, List.find?_isSome]
  simp

/-- What an attempt leaves behind: the gauge has gone up in any case, a stream is
there exactly if all checks passed, and the buckets are those the quota left. -/
structure Attempted (config : QuotaConfig) (attempt : Attempt Connection) (s : ApiState Connection)
    (outcome : ApiState Connection × Except ApiError Uuid) : Prop where
  gauge : outcome.1.walletsConnected = s.walletsConnected + 1
  issued : outcome.1.issued = s.issued
  invalid : ∀ e, decodeSessionId attempt.sessionId = .error e → outcome.1.quotas = s.quotas
  buckets : ∀ session, decodeSessionId attempt.sessionId = .ok session →
    outcome.1.quotas.perSessionBuckets = (s.quotas.tryAcquire config attempt.connection
      (some session) attempt.now).1.perSessionBuckets
  streams : outcome.1.streams.length = s.streams.length + (if outcome.2.isOk then 1 else 0)
  ok_iff : outcome.2.isOk ↔ Admitted config s attempt

theorem openStream_spec (attempt : Attempt Connection) (session : SessionId)
    (s : ApiState Connection) : ∃ guarded streams result, openStream attempt session s =
        ({ s with quotas := guarded, streams := streams }, result) ∧
      guarded.perSessionBuckets = s.quotas.perSessionBuckets ∧
      streams.length = s.streams.length + (if result.isOk then 1 else 0) ∧
      (result.isOk ↔ attempt.storageFails = false ∧
        ∃ wallet ∈ s.db.wallets, wallet.sessionId = some session) := by
  rw [← resolveSessionId_isSome]
  unfold openStream
  cases attempt.storageFails with
  | true => exact ⟨_, _, _, rfl, rfl, rfl, by simp [Except.isOk, Except.toBool]⟩
  | false =>
    cases resolveSessionId session s.db with
    | none => exact ⟨_, _, _, rfl, rfl, rfl, by simp [Except.isOk, Except.toBool]⟩
    | some walletId =>
      exact ⟨_, _, _, rfl, rfl, List.length_append, by simp [Except.isOk, Except.toBool]⟩

theorem shieldedTransactions_attempted (config : QuotaConfig) (attempt : Attempt Connection)
    (s : ApiState Connection) :
    Attempted config attempt s (shieldedTransactions config attempt s) := by
  unfold shieldedTransactions
  cases decoded : decodeSessionId attempt.sessionId with
  | error e =>
    refine ⟨rfl, rfl, fun _ _ => rfl, ?_, rfl, ?_⟩
    · intro session found
      cases decoded.symm.trans found
    · simp [Except.isOk, Except.toBool, Admitted, decoded]
  | ok session =>
    have acquired_iff := s.quotas.tryAcquire_ok_iff config attempt.connection session attempt.now
    have admitted : Admitted config s attempt ↔
        (s.quotas.tryAcquire config attempt.connection (some session) attempt.now).2 = .ok () ∧
          attempt.storageFails = false ∧
          ∃ wallet ∈ s.db.wallets, wallet.sessionId = some session := by
      simp [Admitted, decoded, acquired_iff, and_assoc]
    have not_invalid : ∀ e, decodeSessionId attempt.sessionId ≠ .error e := by simp [decoded]
    rcases outcome : s.quotas.tryAcquire config attempt.connection (some session) attempt.now with
      ⟨quotas, acquired⟩
    have buckets : ∀ other, decodeSessionId attempt.sessionId = .ok other →
        quotas.perSessionBuckets = (s.quotas.tryAcquire config attempt.connection (some other)
          attempt.now).1.perSessionBuckets := by
      intro other found
      cases decoded.symm.trans found
      rw [outcome]
    rw [outcome] at admitted
    simp only [outcome]
    cases acquired with
    | error e =>
      exact ⟨rfl, rfl, fun e found => absurd found (not_invalid e), buckets, rfl,
        by simp [admitted, Except.isOk, Except.toBool]⟩
    | ok value =>
      obtain ⟨guarded, streams, result, opened, kept, length, ok_iff⟩ := openStream_spec attempt
        session { s with walletsConnected := s.walletsConnected + 1, quotas := quotas }
      simp only [opened]
      exact ⟨rfl, rfl, fun e found => absurd found (not_invalid e),
        fun other found => kept.trans (buckets other found), length,
        ok_iff.trans (by simp [admitted])⟩

end MidnightIndexer.Source.ShieldedAttempts
