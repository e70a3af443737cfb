import MidnightIndexer.Lib.Run
import MidnightIndexer.Source.NullifierQueries

/-!
# The nullifier subscriptions

indexer-api/src/infra/api/v4/subscription/shielded_nullifier_transactions.rs:106-216
and dust_nullifier_transactions.rs:92-217, the same loop over their own query. A
round runs the whole query, from the first block on and with the cursor at 0;
then the latest block is compared with `toBlock`, if there is one, and the next
`BlockIndexed` event starts the next round.

The state is the database, the number of events not taken yet, and the
subscription. One poll makes one query, yields one row or takes one event. The
checks of the arguments come before the first state and are left out.
-/

namespace MidnightIndexer.Source

open Lib List

/-- The heights in `blocks` and the joined nullifier rows, in commit order: blocks
are committed along the chain and ids are serial. -/
structure NullifierDb (κ : Type) where
  heights : List Nat
  rows : List (NullifierRow κ)
  ascending : heights.Pairwise (· < ·)
  serial : rows.Pairwise fun a b => a.id < b.id
  positive : ∀ row ∈ rows, 0 < row.id
  column : ∀ height ∈ heights, height < 2 ^ 63
  placed : ∀ row ∈ rows, ∃ height ∈ heights, row.blockHeight = height

structure NullifierBlock (κ : Type) where
  height : Nat
  rows : List (NullifierRow κ)

namespace NullifierDb

variable {κ : Type}

/-- The block is above all others and its rows get higher ids. -/
structure Extends (db : NullifierDb κ) (block : NullifierBlock κ) : Prop where
  height : ∀ height ∈ db.heights, height < block.height
  column : block.height < 2 ^ 63
  serial : (db.rows ++ block.rows).Pairwise fun a b => a.id < b.id
  positive : ∀ row ∈ block.rows, 0 < row.id
  placed : ∀ row ∈ block.rows, row.blockHeight = block.height

instance Extends.decidable (db : NullifierDb κ) (block : NullifierBlock κ) :
    Decidable (db.Extends block) :=
  decidable_of_iff
    ((∀ height ∈ db.heights, height < block.height) ∧ block.height < 2 ^ 63 ∧
      ((db.rows ++ block.rows).Pairwise fun a b => a.id < b.id) ∧
      (∀ row ∈ block.rows, 0 < row.id) ∧ ∀ row ∈ block.rows, row.blockHeight = block.height)
    ⟨fun h => ⟨h.1, h.2.1, h.2.2.1, h.2.2.2.1, h.2.2.2.2⟩,
      fun h => ⟨h.height, h.column, h.serial, h.positive, h.placed⟩⟩

def empty : NullifierDb κ :=
  ⟨[], [], .nil, .nil, fun _ member => (List.not_mem_nil member).elim,
    fun _ member => (List.not_mem_nil member).elim, fun _ member => (List.not_mem_nil member).elim⟩

variable {db : NullifierDb κ} {block : NullifierBlock κ}

theorem Extends.ascending (extends_db : db.Extends block) :
    (db.heights ++ [block.height]).Pairwise (· < ·) := by
  rw [pairwise_append]
  refine ⟨db.ascending, by simp, fun height member other new => ?_⟩
  rw [mem_singleton.mp new]
  exact extends_db.height height member

theorem Extends.positive_all (extends_db : db.Extends block) :
    ∀ row ∈ db.rows ++ block.rows, 0 < row.id := by
  intro row member
  rcases mem_append.mp member with old | new
  · exact db.positive row old
  · exact extends_db.positive row new

theorem Extends.column_all (extends_db : db.Extends block) :
    ∀ height ∈ db.heights ++ [block.height], height < 2 ^ 63 := by
  intro height member
  rcases mem_append.mp member with old | new
  · exact db.column height old
  · rw [mem_singleton.mp new]
    exact extends_db.column

theorem Extends.placed_all (extends_db : db.Extends block) : ∀ row ∈ db.rows ++ block.rows,
      ∃ height ∈ db.heights ++ [block.height], row.blockHeight = height := by
  intro row member
  rcases mem_append.mp member with old | new
  · obtain ⟨height, inside, same⟩ := db.placed row old
    exact ⟨height, mem_append_left _ inside, same⟩
  · exact ⟨block.height, by simp, extends_db.placed row new⟩

/-- A committed block; no other block is ever committed. -/
def commit (db : NullifierDb κ) (block : NullifierBlock κ) : NullifierDb κ :=
  if extends_db : db.Extends block then
    { heights := db.heights ++ [block.height]
      rows := db.rows ++ block.rows
      ascending := extends_db.ascending
      serial := extends_db.serial
      positive := extends_db.positive_all
      column := extends_db.column_all
      placed := extends_db.placed_all }
  else db

/-- `get_latest_block`. -/
def latestBlock (db : NullifierDb κ) : Option Nat := (Sql.orderByDesc id db.heights).head?

theorem table (db : NullifierDb κ) : NullifierTable db.rows where
  unique := pairwise_map.mpr (db.serial.imp fun less => Nat.ne_of_lt less)
  positive := db.positive
  column := by
    intro row member
    obtain ⟨height, inside, same⟩ := db.placed row member
    have bound := db.column height inside
    omega

end NullifierDb

/-- Where the subscription stands: in a storage stream, with the prefixes still to
be read, the cursor and the unread rest of the last page; before the comparison
with the latest block; between two rounds; or at its end. -/
inductive NullifierPhase (κ : Type) where
  | scanning (prefixes : List (List UInt8)) (cursor : Nat) (buffer : List (NullifierRow κ))
  | checking
  | waiting
  | done
  deriving DecidableEq

structure NullifierState (κ : Type) where
  db : NullifierDb κ
  pending : Nat
  phase : NullifierPhase κ
  emitted : List (NullifierRow κ)

structure NullifierArgs where
  prefixes : List (List UInt8)
  fromBlock : Option UInt64
  toBlock : Option UInt64
  batchSize : NonZeroU32

inductive NullifierInput (κ : Type) where
  | commit (block : NullifierBlock κ)
  | notify
  | poll

namespace NullifierArgs

variable {κ : Type} (args : NullifierArgs)

/-- `from_block.unwrap_or(0)` and `to_block.unwrap_or(u64::MAX)`. -/
def request : NullifierRequest where
  prefixes := args.prefixes
  fromBlock := args.fromBlock.getD 0
  toBlock := args.toBlock.getD 18446744073709551615
  batchSize := args.batchSize

def round : NullifierPhase κ := .scanning args.prefixes 0 []

def start (db : NullifierDb κ) : NullifierState κ := ⟨db, 0, args.round, []⟩

/-- The phase behind the comparison with the latest block. -/
def afterCheck (latest : Option Nat) : NullifierPhase κ :=
  match args.toBlock, latest with
  | some toBlock, some height => if toBlock.toNat ≤ height then .done else .waiting
  | _, _ => .waiting

def poll (s : NullifierState κ) : NullifierState κ :=
  match s.phase with
  | .scanning prefixes cursor (row :: rest) =>
    { s with phase := .scanning prefixes cursor rest, emitted := s.emitted ++ [row] }
  | .scanning (bytes :: prefixes) cursor [] =>
    let page := args.request.page bytes s.db.rows cursor
    match page.getLast? with
    | some last => { s with phase := .scanning (bytes :: prefixes) last.id page }
    | none => { s with phase := .scanning prefixes 0 [] }
  | .scanning [] _ [] => { s with phase := if args.toBlock.isSome then .checking else .waiting }
  | .checking => { s with phase := args.afterCheck s.db.latestBlock }
  | .waiting =>
    match s.pending with
    | 0 => s
    | pending + 1 => { s with pending := pending, phase := args.round }
  | .done => s

def step (s : NullifierState κ) : NullifierInput κ → NullifierState κ
  | .commit block => { s with db := s.db.commit block }
  | .notify => { s with pending := s.pending + 1 }
  | .poll => args.poll s

end NullifierArgs

/-! ## What a poll does -/

namespace NullifierArgs

variable {κ : Type} {args : NullifierArgs}

inductive Move (args : NullifierArgs) : NullifierState κ → NullifierState κ → Prop
  | emit {s : NullifierState κ} {prefixes cursor row rest}
      (phase : s.phase = .scanning prefixes cursor (row :: rest)) :
      Move args s
        { s with phase := .scanning prefixes cursor rest, emitted := s.emitted ++ [row] }
  | fetch {s : NullifierState κ} {bytes prefixes cursor last}
      (phase : s.phase = .scanning (bytes :: prefixes) cursor [])
      (final : (args.request.page bytes s.db.rows cursor).getLast? = some last) :
      Move args s
        { s with
          phase := .scanning (bytes :: prefixes) last.id
            (args.request.page bytes s.db.rows cursor) }
  | exhaust {s : NullifierState κ} {bytes prefixes cursor}
      (phase : s.phase = .scanning (bytes :: prefixes) cursor [])
      (empty : args.request.page bytes s.db.rows cursor = []) :
      Move args s { s with phase := .scanning prefixes 0 [] }
  | finish {s : NullifierState κ} {cursor} (phase : s.phase = .scanning [] cursor []) :
      Move args s { s with phase := if args.toBlock.isSome then .checking else .waiting }
  | check {s : NullifierState κ} (phase : s.phase = .checking) :
      Move args s { s with phase := args.afterCheck s.db.latestBlock }
  | take {s : NullifierState κ} {pending} (phase : s.phase = .waiting)
      (event : s.pending = pending + 1) :
      Move args s { s with pending := pending, phase := args.round }
  | idle {s : NullifierState κ} (phase : s.phase = .waiting ∨ s.phase = .done) : Move args s s

theorem poll_move (s : NullifierState κ) : Move args s (args.poll s) := by
  cases phase : s.phase with
  | scanning prefixes cursor buffer =>
    cases buffer with
    | cons row rest =>
      simp only [poll, phase]
      exact .emit phase
    | nil =>
      cases prefixes with
      | nil =>
        simp only [poll, phase]
        exact .finish phase
      | cons bytes prefixes =>
        cases final : (args.request.page bytes s.db.rows cursor).getLast? with
        | none =>
          simp only [poll, phase, final]
          exact .exhaust phase (getLast?_eq_none_iff.mp final)
        | some last =>
          simp only [poll, phase, final]
          exact .fetch phase final
  | checking =>
    simp only [poll, phase]
    exact .check phase
  | waiting =>
    cases event : s.pending with
    | zero =>
      simp only [poll, phase, event]
      exact .idle (.inl phase)
    | succ pending =>
      simp only [poll, phase, event]
      exact .take phase event
  | done =>
    simp only [poll, phase]
    exact .idle (.inr phase)

/-- A page that is not empty holds the prefix's rows behind the cursor up to the
id of its last row, in id order. -/
theorem page_some (db : NullifierDb κ) {bytes : List UInt8} {cursor : Nat} {last : NullifierRow κ}
    (final : (args.request.page bytes db.rows cursor).getLast? = some last) :
    (∀ row, row ∈ args.request.page bytes db.rows cursor ↔
      row ∈ db.rows ∧ args.request.selects bytes row ∧ cursor < row.id ∧ row.id ≤ last.id) ∧
    (args.request.page bytes db.rows cursor).Pairwise fun a b => a.id < b.id := by
  have unique : ((db.rows.filter fun row => args.request.selects bytes row && cursor < row.id).map
      NullifierRow.id).Nodup := db.table.unique.sublist (filter_sublist.map _)
  refine ⟨fun row => ?_, (Sql.orderBy_strict _ _ unique).sublist (take_sublist _ _)⟩
  rw [NullifierRequest.page, Sql.mem_page_iff unique final, mem_filter, Bool.and_eq_true,
    decide_eq_true_eq, and_assoc, and_assoc]

theorem page_none (db : NullifierDb κ) {bytes : List UInt8} {cursor : Nat}
    (empty : args.request.page bytes db.rows cursor = []) {row : NullifierRow κ}
    (member : row ∈ db.rows) (selected : args.request.selects bytes row) : row.id ≤ cursor := by
  have positive := args.request.batchSize.pos
  rw [NullifierRequest.page, take_eq_nil_iff, Sql.orderBy_eq_nil] at empty
  have none_left := filter_eq_nil_iff.mp (empty.resolve_left (by omega)) row member
  simpa [selected] using none_left

end NullifierArgs

end MidnightIndexer.Source
