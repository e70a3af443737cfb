import MidnightIndexer.Source.BridgeEvents

/-!
# The `bridgeEvents` subscription

indexer-api/src/infra/api/v4/subscription/bridge_events.rs:96-172 with the inserts of
chain-indexer/src/infra/storage.rs:1328-1383 and the publishes of
chain-indexer/src/application.rs:630-639. The subscriber is asked for
`BridgeEventIndexed` only after the backfill has come to its end. From then on every
message that passes the filter is followed by one query for at most 100 events.

A message carries the event that was inserted, so the events whose message is still
to be published are kept as their rows. One poll makes one query, yields one event
or takes one message.
-/

namespace MidnightIndexer.Source.IndexerApi

open Lib Lib.Follow

/-- The table `protocol_bridge_events`. -/
structure BridgeDb where
  rows : List BridgeEventRow
  serial : Serial BridgeEventRow.id (2 ^ 63) rows

namespace BridgeDb

def empty : BridgeDb := ⟨[], Serial.nil _ _⟩

/-- The rows of a block get higher ids. -/
def commit (db : BridgeDb) (events : List BridgeEventRow) : BridgeDb :=
  if serial : Serial BridgeEventRow.id (2 ^ 63) (db.rows ++ events) then ⟨db.rows ++ events, serial⟩
  else db

theorem commit_cases (db : BridgeDb) (events : List BridgeEventRow) :
    db.commit events = db ∨ (db.commit events).rows = db.rows ++ events := by
  unfold commit
  split
  · exact .inr rfl
  · exact .inl rfl

end BridgeDb

structure BridgeEventIndexed where
  blockHeight : Nat
  variant : BridgeEventVariant
  recipient : Option (List UInt8)
  deriving DecidableEq

def BridgeEventRow.indexed (row : BridgeEventRow) : BridgeEventIndexed where
  blockHeight := row.blockHeight
  variant := row.variant
  recipient := row.recipient

/-- In the backfill or behind it, with the rest of the page that is being yielded;
or behind a message whose query is still to come. -/
inductive BridgePhase where
  | backfill (page : List BridgeEventRow)
  | live (page : List BridgeEventRow)
  | woken
  deriving DecidableEq

structure BridgeState where
  db : BridgeDb
  unpublished : List BridgeEventRow
  attached : Bool
  queue : List BridgeEventIndexed
  lastId : UInt64
  phase : BridgePhase
  delivered : List BridgeEventRow

inductive BridgeInput where
  | commit (events : List BridgeEventRow)
  | publish
  | attach
  | poll

namespace BridgeState

/-- `from.unwrap_or(0)`. -/
def start (db : BridgeDb) (fromId : Option UInt64) : BridgeState :=
  ⟨db, [], false, [], fromId.getD 0, .backfill [], []⟩

/-- A block that was saved is followed by the messages of its events. -/
def commit (s : BridgeState) (events : List BridgeEventRow) : BridgeState :=
  let db := s.db.commit events
  { s with
    db := db
    unpublished := if db.rows = s.db.rows then s.unpublished else s.unpublished ++ events }

/-- The messages are published in the order of the events. -/
def publish (s : BridgeState) : BridgeState :=
  match s.unpublished with
  | [] => s
  | event :: rest =>
    { s with
      unpublished := rest
      queue := if s.attached then s.queue ++ [event.indexed] else s.queue }

/-- `subscribe`, which comes behind the backfill. -/
def attach (s : BridgeState) : BridgeState :=
  match s.phase with
  | .backfill _ => s
  | _ => { s with attached := true }

def yield (s : BridgeState) (event : BridgeEventRow) (phase : BridgePhase) : BridgeState :=
  { s with
    lastId := max s.lastId (UInt64.ofNat event.id)
    phase := phase
    delivered := s.delivered ++ [event] }

end BridgeState

namespace BridgeEventArgs

variable (args : BridgeEventArgs)

/-- The `try_filter` of the message stream. -/
def concerns (message : BridgeEventIndexed) : Bool :=
  args.recipient.all (fun recipient => message.recipient = some recipient)
  && args.variant.all fun variant => message.variant = variant

def query (s : BridgeState) : List BridgeEventRow :=
  getBridgeEvents s.db.rows (args.filter s.lastId) backfillBatch

def poll (s : BridgeState) : BridgeState :=
  match s.phase with
  | .backfill (event :: rest) => s.yield event (.backfill rest)
  | .backfill [] =>
    { s with phase := if (args.query s).isEmpty then .live [] else .backfill (args.query s) }
  | .live (event :: rest) => s.yield event (.live rest)
  | .live [] =>
    match s.queue with
    | [] => s
    | message :: queue =>
      { s with queue := queue, phase := if args.concerns message then .woken else .live [] }
  | .woken => { s with phase := .live (args.query s) }

def step (s : BridgeState) : BridgeInput → BridgeState
  | .commit events => s.commit events
  | .publish => s.publish
  | .attach => s.attach
  | .poll => args.poll s

/-! ## What a poll does -/

def page : BridgePhase → List BridgeEventRow
  | .backfill page => page
  | .live page => page
  | .woken => []

variable {args}

inductive Move (args : BridgeEventArgs) : BridgeState → BridgeState → Prop
  | deliver {s : BridgeState} {event : BridgeEventRow} {phase : BridgePhase}
      (held : page s.phase = event :: page phase)
      (stays : (∃ rest, s.phase = .backfill rest) ↔ ∃ rest, phase = .backfill rest)
      (awake : phase ≠ .woken) :
      Move args s (s.yield event phase)
  | fill {s : BridgeState} (phase : s.phase = .backfill []) (found : args.query s ≠ []) :
      Move args s { s with phase := .backfill (args.query s) }
  | finish {s : BridgeState} (phase : s.phase = .backfill []) (empty : args.query s = []) :
      Move args s { s with phase := .live [] }
  | wake {s : BridgeState} {message : BridgeEventIndexed} {queue : List BridgeEventIndexed}
      (phase : s.phase = .live []) (queued : s.queue = message :: queue)
      (concerned : args.concerns message = true) :
      Move args s { s with queue := queue, phase := .woken }
  | ignore {s : BridgeState} {message : BridgeEventIndexed} {queue : List BridgeEventIndexed}
      (phase : s.phase = .live []) (queued : s.queue = message :: queue)
      (other : args.concerns message = false) :
      Move args s { s with queue := queue }
  | read {s : BridgeState} (phase : s.phase = .woken) :
      Move args s { s with phase := .live (args.query s) }
  | idle {s : BridgeState} : Move args s s

/-- A poll leaves the table and the messages to publish as they are. -/
theorem Move.frame {s t : BridgeState} (move : Move args s t) :
    t.db = s.db ∧ t.unpublished = s.unpublished := by
  cases move with
  | deliver | fill | finish | wake | ignore | read | idle => exact ⟨rfl, rfl⟩

theorem poll_move (args : BridgeEventArgs) (s : BridgeState) : Move args s (args.poll s) := by
  cases phase : s.phase with
  | backfill rest =>
    cases rest with
    | cons event rest =>
      have polled : args.poll s = s.yield event (.backfill rest) := by simp only [poll, phase]
      rw [polled]
      exact .deliver (by rw [phase]; rfl) (by simp [phase]) (by simp)
    | nil =>
      by_cases empty : args.query s = []
      · have polled : args.poll s = { s with phase := .live [] } := by
          simp [poll, phase, empty]
        rw [polled]
        exact .finish phase empty
      · have polled : args.poll s = { s with phase := .backfill (args.query s) } := by
          simp [poll, phase, empty]
        rw [polled]
        exact .fill phase empty
  | live rest =>
    cases rest with
    | cons event rest =>
      have polled : args.poll s = s.yield event (.live rest) := by simp only [poll, phase]
      rw [polled]
      exact .deliver (by rw [phase]; rfl) (by simp [phase]) (by simp)
    | nil =>
      cases queued : s.queue with
      | nil =>
        have polled : args.poll s = s := by simp only [poll, phase, queued]
        rw [polled]
        exact .idle
      | cons message queue =>
        cases concerned : args.concerns message with
        | true =>
          have polled : args.poll s = { s with queue := queue, phase := .woken } := by
            simp [poll, phase, queued, concerned]
          rw [polled]
          exact .wake phase queued concerned
        | false =>
          have polled : args.poll s = { s with queue := queue } := by
            simp [poll, phase, queued, concerned]
          rw [polled]
          exact .ignore phase queued concerned
  | woken =>
    have polled : args.poll s = { s with phase := .live (args.query s) } := by
      simp only [poll, phase]
    rw [polled]
    exact .read phase

end BridgeEventArgs

end MidnightIndexer.Source.IndexerApi
