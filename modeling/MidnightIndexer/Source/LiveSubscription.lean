import MidnightIndexer.Lib.Run
import MidnightIndexer.Source.ChainTables

/-!
# Subscriptions that follow a table

The loops of `contractEvents`, `contractActions`, `unshieldedTransactions`,
`blocks`, `zswapLedgerEvents` and `dustLedgerEvents`
(indexer-api/src/infra/api/v4/subscription) are one: read a storage stream from
the cursor on to its end, then read another one after each event, the cursor
always being behind the last row that was taken. A storage stream keeps a cursor
of its own, fetches page after page and ends with the first empty page
(indexer-api/src/infra/storage, `flatten_chunks`). A `LiveFeed` says what the six
do not share.

One poll makes one query, handles one row or takes one event. A query that fails
and an event stream that ends stop the subscription where it is, as polling no
further does, and are left out; so are quotas and logging.
-/

namespace MidnightIndexer.Source.IndexerApi

open Lib

/-- A subscription to rows `ρ` with items `ι`, following events `ε`. -/
structure LiveFeed (ε ρ ι : Type) where
  /-- One page of the storage stream. -/
  page : ChainDb → Nat → List ρ
  key : ρ → Nat
  /-- The item of a row, `none` for a row that is passed over. -/
  item : ChainDb → ρ → Except String (Option ι)
  /-- The row of an item. -/
  row : ι → ρ
  /-- What comes before the first stream: its cursor, and whether it is the last. -/
  opening : ChainDb → Nat → Nat × Bool := fun _ cursor => (cursor, false)
  /-- The events the chain indexer may have published by now. -/
  published : ChainDb → ε → Bool
  concerns : ε → Bool := fun _ => true
  lastRound : ε → Bool := fun _ => false

/-- Where the subscription stands: before its first stream; in a stream, with the
stream's own cursor and the rest of its last page; between two streams; or at its
end, with or without an error. -/
inductive LivePhase (ρ : Type) where
  | opening
  | streaming (lastRound : Bool) (cursor : Nat) (buffer : List ρ)
  | waiting
  | failed (message : String)
  | done
  deriving DecidableEq

/-- The database, the events not taken yet, and the subscription with its cursor
and the items it has yielded. -/
structure LiveState (ε ρ ι : Type) where
  db : ChainDb
  queue : List ε
  id : Nat
  phase : LivePhase ρ
  delivered : List ι

inductive LiveInput (ε : Type) where
  | commit (block : ChainBlock)
  | notify (event : ε)
  | poll

namespace LiveFeed

variable {ε ρ ι : Type} (feed : LiveFeed ε ρ ι)

def poll (s : LiveState ε ρ ι) : LiveState ε ρ ι :=
  match s.phase with
  | .opening =>
    let (id, lastRound) := feed.opening s.db s.id
    { s with id := id, phase := .streaming lastRound id [] }
  | .streaming lastRound cursor (row :: rest) =>
    let s := { s with id := feed.key row + 1, phase := .streaming lastRound cursor rest }
    match feed.item s.db row with
    | .ok (some item) => { s with delivered := s.delivered ++ [item] }
    | .ok none => s
    | .error message => { s with phase := .failed message }
  | .streaming lastRound cursor [] =>
    let page := feed.page s.db cursor
    match page.getLast? with
    | some last => { s with phase := .streaming lastRound (feed.key last + 1) page }
    | none => { s with phase := if lastRound then .done else .waiting }
  | .waiting =>
    match s.queue with
    | [] => s
    | event :: queue =>
      if feed.concerns event then
        { s with queue := queue, phase := .streaming (feed.lastRound event) s.id [] }
      else { s with queue := queue }
  | .failed _ => s
  | .done => s

def step (backend : Sql.Backend) (s : LiveState ε ρ ι) : LiveInput ε → LiveState ε ρ ι
  | .commit block => { s with db := s.db.commit backend block }
  | .notify event => if feed.published s.db event then { s with queue := s.queue ++ [event] } else s
  | .poll => feed.poll s

/-- Without an opening the first stream starts at once. -/
def start (db : ChainDb) (id : Nat) : LiveState ε ρ ι := ⟨db, [], id, .streaming false id [], []⟩

/-- The storage stream over a database that does not change, after a number of
queries, and whether it has ended. -/
def storageStream (db : ChainDb) (cursor queries : Nat) : List ρ × Bool :=
  Paging.pages (feed.page db) (fun row => feed.key row + 1) queries cursor

def rowsDelivered (s : LiveState ε ρ ι) : List ρ := s.delivered.map feed.row

/-! ## What a poll does -/

variable {feed}

inductive Move (feed : LiveFeed ε ρ ι) : LiveState ε ρ ι → LiveState ε ρ ι → Prop
  | begin {s : LiveState ε ρ ι} (phase : s.phase = .opening) :
      Move feed s
        { s with
          id := (feed.opening s.db s.id).1
          phase := .streaming (feed.opening s.db s.id).2 (feed.opening s.db s.id).1 [] }
  | deliver {s : LiveState ε ρ ι} {lastRound cursor row rest item}
      (phase : s.phase = .streaming lastRound cursor (row :: rest))
      (made : feed.item s.db row = .ok (some item)) :
      Move feed s
        { s with
          id := feed.key row + 1
          phase := .streaming lastRound cursor rest
          delivered := s.delivered ++ [item] }
  | pass {s : LiveState ε ρ ι} {lastRound cursor row rest}
      (phase : s.phase = .streaming lastRound cursor (row :: rest))
      (made : feed.item s.db row = .ok none) :
      Move feed s
        { s with id := feed.key row + 1, phase := .streaming lastRound cursor rest }
  | fail {s : LiveState ε ρ ι} {lastRound cursor row rest message}
      (phase : s.phase = .streaming lastRound cursor (row :: rest))
      (made : feed.item s.db row = .error message) :
      Move feed s { s with id := feed.key row + 1, phase := .failed message }
  | fetch {s : LiveState ε ρ ι} {lastRound cursor last}
      (phase : s.phase = .streaming lastRound cursor [])
      (final : (feed.page s.db cursor).getLast? = some last) :
      Move feed s
        { s with phase := .streaming lastRound (feed.key last + 1) (feed.page s.db cursor) }
  | exhaust {s : LiveState ε ρ ι} {lastRound cursor}
      (phase : s.phase = .streaming lastRound cursor [])
      (empty : feed.page s.db cursor = []) :
      Move feed s { s with phase := if lastRound then .done else .waiting }
  | take {s : LiveState ε ρ ι} {event queue} (phase : s.phase = .waiting)
      (queued : s.queue = event :: queue) (concerned : feed.concerns event = true) :
      Move feed s
        { s with queue := queue, phase := .streaming (feed.lastRound event) s.id [] }
  | ignore {s : LiveState ε ρ ι} {event queue} (phase : s.phase = .waiting)
      (queued : s.queue = event :: queue) (other : feed.concerns event = false) :
      Move feed s { s with queue := queue }
  | idle {s : LiveState ε ρ ι} : Move feed s s

theorem poll_move (feed : LiveFeed ε ρ ι) (s : LiveState ε ρ ι) : Move feed s (feed.poll s) := by
  cases phase : s.phase with
  | opening =>
    simp only [poll, phase]
    exact .begin phase
  | streaming lastRound cursor buffer =>
    cases buffer with
    | cons row rest =>
      cases made : feed.item s.db row with
      | error message =>
        simp only [poll, phase, made]
        exact .fail phase made
      | ok item =>
        cases item with
        | none =>
          simp only [poll, phase, made]
          exact .pass phase made
        | some item =>
          simp only [poll, phase, made]
          exact .deliver phase made
    | nil =>
      cases final : (feed.page s.db cursor).getLast? with
      | none =>
        simp only [poll, phase, final]
        exact .exhaust phase (List.getLast?_eq_none_iff.mp final)
      | some last =>
        simp only [poll, phase, final]
        exact .fetch phase final
  | waiting =>
    cases queued : s.queue with
    | nil =>
      simp only [poll, phase, queued]
      exact .idle
    | cons event queue =>
      cases concerned : feed.concerns event with
      | true =>
        simp only [poll, phase, queued, concerned, if_true]
        exact .take phase queued concerned
      | false =>
        have ignored : feed.poll s = { s with queue := queue } := by
          simp [poll, phase, queued, concerned]
        rw [ignored]
        exact .ignore phase queued concerned
  | failed | done =>
    simp only [poll, phase]
    exact .idle

theorem Move.db_eq {s t : LiveState ε ρ ι} (move : Move feed s t) : t.db = s.db := by
  cases move <;> rfl

end LiveFeed

end MidnightIndexer.Source.IndexerApi
