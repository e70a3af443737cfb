import MidnightIndexer.Source.NullifierSubscription

/-!
# What the nullifier subscriptions emit

Every round reads the whole block range again, so a round after one that has
emitted something starts by repeating its first row. And a round reads first and
looks at the latest block afterwards, so a block that is committed in between can
end the subscription without having been read.

Inputs are the commits, the events and the polls, in any order.
-/

namespace MidnightIndexer.Guarantees.NullifierDelivery

open Lib List Source NullifierArgs
open NullifierArgs (Move)

variable {κ : Type} {args : NullifierArgs} {s t : NullifierState κ}

theorem commit_cases (db : NullifierDb κ) (block : NullifierBlock κ) :
    db.commit block = db ∨ (db.Extends block ∧ (db.commit block).rows = db.rows ++ block.rows ∧
      (db.commit block).heights = db.heights ++ [block.height]) := by
  unfold NullifierDb.commit
  split
  next extends_db => exact .inr ⟨extends_db, rfl, rfl⟩
  next => exact .inl rfl

/-! ## One pass emits nothing twice -/

/-- An event is only taken while nothing has been emitted. -/
def EventBeforeRows (s : NullifierState κ) : NullifierInput κ → Prop
  | .poll => s.phase = .waiting → 0 < s.pending → s.emitted = []
  | _ => True

instance EventBeforeRows.decidable [DecidableEq κ] (s : NullifierState κ) :
    ∀ input, Decidable (EventBeforeRows s input)
  | .poll => inferInstanceAs (Decidable (s.phase = .waiting → 0 < s.pending → s.emitted = []))
  | .commit _ => isTrue trivial
  | .notify => isTrue trivial

/-- The rows in the hands of a subscription with one prefix have increasing ids,
and the cursor is behind them. -/
def InOrder (emitted : List (NullifierRow κ)) : NullifierPhase κ → Prop
  | .scanning prefixes cursor buffer =>
    prefixes.length ≤ 1 ∧ (emitted ++ buffer).Pairwise (fun a b => a.id < b.id) ∧
      (prefixes = [] ∨ ∀ row ∈ emitted ++ buffer, row.id ≤ cursor)
  | _ => emitted.Pairwise fun a b => a.id < b.id

theorem InOrder.emitted {emitted : List (NullifierRow κ)} {phase : NullifierPhase κ}
    (inv : InOrder emitted phase) : emitted.Pairwise fun a b => a.id < b.id := by
  cases phase with
  | scanning prefixes cursor buffer => exact (pairwise_append.mp inv.2.1).1
  | checking | waiting | done => exact inv

theorem InOrder.move (move : Move args s t) (single : args.prefixes.length ≤ 1)
    (ok : EventBeforeRows s .poll) (inv : InOrder s.emitted s.phase) :
    InOrder t.emitted t.phase := by
  have ordered := inv.emitted
  cases move with
  | emit phase =>
    rw [phase] at inv
    simpa only [InOrder, append_assoc, singleton_append] using inv
  | @fetch bytes prefixes cursor last phase final =>
    rw [phase] at inv
    obtain ⟨short, _, behind⟩ := inv
    obtain ⟨page_iff, page_ordered⟩ := page_some s.db final
    rw [append_nil] at behind
    have below := behind.resolve_left (cons_ne_nil _ _)
    have last_inside := (page_iff last).mp (mem_of_getLast? final)
    refine ⟨short, pairwise_append.mpr ⟨ordered, page_ordered, ?_⟩, .inr ?_⟩
    · intro old old_member new new_member
      have old_bound := below old old_member
      have new_bound := ((page_iff new).mp new_member).2.2.1
      omega
    · intro row member
      rcases mem_append.mp member with old | new
      · have old_bound := below row old
        have last_bound := last_inside.2.2.1
        omega
      · exact ((page_iff row).mp new).2.2.2
  | exhaust phase _ =>
    rw [phase] at inv
    have none_left := Nat.le_of_succ_le_succ inv.1
    exact ⟨Nat.le_succ_of_le none_left, by rwa [append_nil],
      .inl (length_eq_zero_iff.mp (Nat.le_zero.mp none_left))⟩
  | finish _ =>
    dsimp only
    split
    · exact ordered
    · exact ordered
  | check _ =>
    dsimp only
    unfold afterCheck
    split
    · split
      · exact ordered
      · exact ordered
    · exact ordered
  | take phase event =>
    have nothing := ok phase (by omega)
    dsimp only
    rw [nothing]
    exact ⟨single, Pairwise.nil, .inr (by simp)⟩
  | idle _ => exact inv

theorem emitted_nodup (single : args.prefixes.length ≤ 1) (db : NullifierDb κ)
    (inputs : List (NullifierInput κ))
    (guarded : Guarded args.step EventBeforeRows (args.start db) inputs) :
    (run args.step (args.start db) inputs).emitted.Nodup := by
  have keep : ∀ (s : NullifierState κ) (input : NullifierInput κ), InOrder s.emitted s.phase →
      EventBeforeRows s input →
      InOrder (args.step s input).emitted (args.step s input).phase := by
    intro s input inv ok
    cases input with
    | commit | notify => exact inv
    | poll => exact InOrder.move (poll_move s) single ok inv
  have initially : InOrder (args.start db).emitted (args.start db).phase :=
    ⟨single, Pairwise.nil, .inr (by simp [start])⟩
  have inv := run_invariant keep _ inputs initially guarded
  exact inv.emitted.imp fun less same => absurd (same ▸ less) (Nat.lt_irrefl _)

/-! ## A second pass repeats the first row -/

/-- The prefix's row with the lowest id. -/
structure Lowest (args : NullifierArgs) (bytes : List UInt8) (db : NullifierDb κ)
    (row : NullifierRow κ) : Prop where
  member : row ∈ db.rows
  selected : args.request.selects bytes row
  lowest : ∀ other ∈ db.rows, args.request.selects bytes other → row.id ≤ other.id

variable {bytes : List UInt8} {db : NullifierDb κ} {row : NullifierRow κ}

theorem Lowest.commit (low : Lowest args bytes db row) (block : NullifierBlock κ) :
    Lowest args bytes (db.commit block) row := by
  rcases commit_cases db block with same | ⟨extends_db, rows, _⟩
  · rwa [same]
  · refine ⟨?_, low.selected, ?_⟩
    · rw [rows]
      exact mem_append_left _ low.member
    · intro other member selected
      rw [rows] at member
      rcases mem_append.mp member with old | new
      · exact low.lowest other old selected
      · exact le_of_lt ((pairwise_append.mp extends_db.serial).2.2 row low.member other new)

theorem lowest_of_page {first : NullifierRow κ} {rest : List (NullifierRow κ)}
    (page : args.request.page bytes db.rows 0 = first :: rest) : Lowest args bytes db first := by
  obtain ⟨last, final⟩ : ∃ last, (args.request.page bytes db.rows 0).getLast? = some last :=
    ⟨_, page ▸ getLast?_cons⟩
  obtain ⟨page_iff, ordered⟩ := page_some db final
  have inside := (page_iff first).mp (page ▸ mem_cons_self)
  refine ⟨inside.1, inside.2.1, fun other member selected => ?_⟩
  by_cases short : other.id ≤ last.id
  · have other_inside := (page_iff other).mpr ⟨member, selected, db.positive other member, short⟩
    rw [page] at other_inside ordered
    rcases mem_cons.mp other_inside with rfl | later
    · exact Nat.le_refl _
    · exact le_of_lt ((pairwise_cons.mp ordered).1 other later)
  · have bound := inside.2.2.2
    omega

/-- The first page of a round begins with it. -/
theorem Lowest.head (low : Lowest args bytes db row) :
    ∃ rest last, args.request.page bytes db.rows 0 = row :: rest ∧
      (args.request.page bytes db.rows 0).getLast? = some last := by
  cases page : args.request.page bytes db.rows 0 with
  | nil =>
    have bound := page_none db page low.member low.selected
    have positive := db.positive row low.member
    omega
  | cons first rest =>
    have first_low := lowest_of_page page
    have same : row.id = first.id := Nat.le_antisymm
      (low.lowest first first_low.member first_low.selected)
      (first_low.lowest row low.member low.selected)
    obtain rfl := inj_on_of_nodup_map db.table.unique low.member first_low.member same
    exact ⟨rest, _, rfl, getLast?_cons⟩

/-- Before anything is emitted a round is at its beginning or holds its first page. -/
def BeforeFirst (args : NullifierArgs) (bytes : List UInt8) (db : NullifierDb κ) :
    NullifierPhase κ → Prop
  | .scanning prefixes cursor buffer =>
    (prefixes = [bytes] ∨ prefixes = []) ∧
      ((cursor = 0 ∧ buffer = []) ∨ ∃ row ∈ buffer.head?, Lowest args bytes db row)
  | _ => True

/-- Once something is emitted, the lowest row is. -/
def FirstRow (args : NullifierArgs) (bytes : List UInt8) (s : NullifierState κ) : Prop :=
  (∃ row ∈ s.emitted, Lowest args bytes s.db row) ∨
    s.emitted = [] ∧ BeforeFirst args bytes s.db s.phase

theorem FirstRow.move (single : args.prefixes = [bytes]) (move : Move args s t)
    (inv : FirstRow args bytes s) : FirstRow args bytes t := by
  rcases inv with ⟨row, emitted, low⟩ | ⟨nothing, before⟩
  · refine .inl ⟨row, ?_, ?_⟩
    · cases move with
      | emit _ => exact mem_append_left _ emitted
      | _ => exact emitted
    · cases move <;> exact low
  · cases move with
    | @emit prefixes cursor row rest phase =>
      rw [phase] at before
      rcases before.2 with ⟨_, empty⟩ | ⟨first, head, low⟩
      · cases empty
      · cases head
        exact .inl ⟨row, by simp, low⟩
    | @fetch current prefixes cursor last phase final =>
      rw [phase] at before
      rcases before with ⟨shape, ⟨rfl, _⟩ | ⟨first, head, _⟩⟩
      · obtain ⟨rfl, rfl⟩ := cons.inj (shape.resolve_right (cons_ne_nil _ _))
        refine .inr ⟨nothing, .inl rfl, .inr ?_⟩
        cases page : args.request.page current s.db.rows 0 with
        | nil =>
          simp [page] at final
        | cons first rest => exact ⟨first, rfl, lowest_of_page page⟩
      · cases head
    | @exhaust current prefixes cursor phase _ =>
      rw [phase] at before
      obtain ⟨rfl, rfl⟩ := cons.inj (before.1.resolve_right (cons_ne_nil _ _))
      exact .inr ⟨nothing, .inr rfl, .inl ⟨rfl, rfl⟩⟩
    | finish _ =>
      refine .inr ⟨nothing, ?_⟩
      dsimp only
      split <;> trivial
    | check _ =>
      refine .inr ⟨nothing, ?_⟩
      dsimp only
      unfold afterCheck
      split
      · split <;> trivial
      · trivial
    | take _ _ => exact .inr ⟨nothing, .inl single, .inl ⟨rfl, rfl⟩⟩
    | idle _ => exact .inr ⟨nothing, before⟩

theorem FirstRow.commit (inv : FirstRow args bytes s) (block : NullifierBlock κ) :
    FirstRow args bytes { s with db := s.db.commit block } := by
  rcases inv with ⟨row, emitted, low⟩ | ⟨nothing, before⟩
  · exact .inl ⟨row, emitted, low.commit block⟩
  · refine .inr ⟨nothing, ?_⟩
    dsimp only
    cases phase : s.phase with
    | scanning prefixes cursor buffer =>
      rw [phase] at before
      refine ⟨before.1, before.2.imp_right fun first => ?_⟩
      obtain ⟨row, head, low⟩ := first
      exact ⟨row, head, low.commit block⟩
    | checking | waiting | done => trivial

theorem firstRow_run (single : args.prefixes = [bytes]) (db : NullifierDb κ)
    (inputs : List (NullifierInput κ)) :
    FirstRow args bytes (run args.step (args.start db) inputs) := by
  refine run_keeps ?_ _ inputs (.inr ⟨rfl, .inl single, .inl ⟨rfl, rfl⟩⟩)
  intro s input inv
  cases input with
  | commit block => exact inv.commit block
  | notify => exact inv
  | poll => exact inv.move single (poll_move s)

/-- Event, first page, first row. -/
theorem next_round_repeats (single : args.prefixes = [bytes]) (inv : FirstRow args bytes s)
    (phase : s.phase = .waiting) (event : 0 < s.pending) (emitted : s.emitted ≠ []) :
    ¬ (run args.step s [.poll, .poll, .poll]).emitted.Nodup := by
  obtain ⟨row, old, low⟩ := inv.resolve_right fun before => emitted before.1
  obtain ⟨rest, last, page, final⟩ := low.head
  obtain ⟨pending, pending_eq⟩ := Nat.exists_eq_succ_of_ne_zero (Nat.ne_of_gt event)
  have first : args.poll s = { s with pending := pending, phase := .scanning [bytes] 0 [] } := by
    simp only [poll, phase, pending_eq, NullifierArgs.round, single]
  have second : args.poll { s with pending := pending, phase := .scanning [bytes] 0 [] } =
      { s with pending := pending, phase := .scanning [bytes] last.id (row :: rest) } := by
    rw [page] at final
    simp only [poll, page, final]
  have third : (run args.step s [.poll, .poll, .poll]).emitted = s.emitted ++ [row] := by
    simp only [run_cons, run_nil, step, first, second]
    simp only [poll]
  rw [third, nodup_append]
  exact fun unique => unique.2.2 row old row (by simp) rfl

/-- With one prefix: a subscription that takes events only while it has emitted
nothing emits no row twice, and one that takes an event later repeats a row as
soon as it yields again. -/
theorem nullifier_rows_once (args : NullifierArgs) {bytes : List UInt8}
    (single : args.prefixes = [bytes]) (db : NullifierDb κ) (inputs : List (NullifierInput κ)) :
    (Guarded args.step EventBeforeRows (args.start db) inputs →
      (run args.step (args.start db) inputs).emitted.Nodup) ∧
    ((run args.step (args.start db) inputs).phase = .waiting →
      0 < (run args.step (args.start db) inputs).pending →
      (run args.step (args.start db) inputs).emitted ≠ [] →
      ¬ (run args.step (args.start db) (inputs ++ [.poll, .poll, .poll])).emitted.Nodup) := by
  refine ⟨emitted_nodup (by simp [single]) db inputs, fun phase event emitted => ?_⟩
  rw [run_append]
  exact next_round_repeats single (firstRow_run single db inputs) phase event emitted

def sampleBlock (id height : Nat) (nullifier : List UInt8) : NullifierBlock Unit :=
  ⟨height, [⟨id, nullifier, (), id, [], height, []⟩]⟩

def sampleArgs (toBlock : Option UInt64) : NullifierArgs :=
  ⟨[[1]], none, toBlock, NonZeroU32.ofNat 10⟩

/-- One row in block 0, then an empty block: its event starts a second round,
which emits the row again. -/
theorem second_round_emits_again :
    ((run (sampleArgs none).step ((sampleArgs none).start NullifierDb.empty)
      [.commit (sampleBlock 1 0 [1, 5]), .poll, .poll, .poll, .poll, .commit ⟨1, []⟩, .notify,
        .poll, .poll, .poll]).emitted.map NullifierRow.id = [1, 1]) := by
  decide

/-- An empty first round, then one with two rows. -/
theorem nullifier_rows_once_sample :
    let inputs : List (NullifierInput Unit) := [.poll, .poll, .commit (sampleBlock 1 0 [1, 5]),
      .commit (sampleBlock 2 1 [1, 6]), .notify, .poll, .poll, .poll, .poll]
    let s := run (sampleArgs none).step ((sampleArgs none).start NullifierDb.empty) inputs
    s.emitted.map NullifierRow.id = [1, 2] ∧ s.emitted.Nodup := by
  intro inputs s
  exact ⟨by decide, (nullifier_rows_once (sampleArgs none) rfl NullifierDb.empty inputs).1
    (by decide)⟩

/-! ## Nothing is left out -/

/-- A row committed now will be read in this round or in the next one: the round
has a query of one of its prefixes still to come, or none is running. -/
def StillToRead (args : NullifierArgs) (row : NullifierRow κ) : NullifierPhase κ → Prop
  | .scanning prefixes _ _ => ∃ bytes ∈ prefixes, args.request.selects bytes row
  | .checking => False
  | .waiting => True
  | .done => True

/-- No row of the subscription is committed between the last query that could
return it and the comparison with the latest block. -/
def CommitInTime (args : NullifierArgs) (s : NullifierState κ) : NullifierInput κ → Prop
  | .commit block => ∀ row ∈ block.rows, (∃ bytes ∈ args.prefixes, args.request.selects bytes row) →
      StillToRead args row s.phase
  | _ => True

/-- A row that is in the table has been emitted or is ahead of the round. -/
def Ahead (args : NullifierArgs) (row : NullifierRow κ) (emitted : List (NullifierRow κ)) :
    NullifierPhase κ → Prop
  | .scanning [] _ buffer => row ∈ emitted ++ buffer
  | .scanning (bytes :: rest) cursor buffer =>
    row ∈ emitted ++ buffer ∨ (args.request.selects bytes row ∧ cursor < row.id) ∨
      ∃ other ∈ rest, args.request.selects other row
  | .waiting => True
  | .checking => row ∈ emitted
  | .done => row ∈ emitted

structure NothingLeft (args : NullifierArgs) (s : NullifierState κ) : Prop where
  rows : ∀ row ∈ s.db.rows, (∃ bytes ∈ args.prefixes, args.request.selects bytes row) →
    Ahead args row s.emitted s.phase
  cursor : ∀ {prefixes cursor buffer}, s.phase = .scanning prefixes cursor buffer →
    cursor = 0 ∨ ∃ row ∈ s.db.rows, cursor = row.id
  reached : s.phase = .done → ∃ toBlock ∈ args.toBlock, ∃ height ∈ s.db.heights,
    toBlock.toNat ≤ height

theorem ahead_round {emitted : List (NullifierRow κ)} (positive : 0 < row.id)
    (selected : ∃ bytes ∈ args.prefixes, args.request.selects bytes row) :
    Ahead args row emitted args.round := by
  obtain ⟨bytes, member, selects⟩ := selected
  unfold NullifierArgs.round
  cases shape : args.prefixes with
  | nil =>
    simp [shape] at member
  | cons first rest =>
    rw [shape] at member
    rcases mem_cons.mp member with rfl | later
    · exact .inr (.inl ⟨selects, positive⟩)
    · exact .inr (.inr ⟨bytes, later, selects⟩)

/-- The phase behind a check is not inside a round. -/
theorem afterCheck_cases (args : NullifierArgs) (latest : Option Nat) :
    (args.afterCheck latest : NullifierPhase κ) = .waiting ∨
      (args.afterCheck latest : NullifierPhase κ) = .done ∧
        ∃ toBlock ∈ args.toBlock, ∃ height ∈ latest, toBlock.toNat ≤ height := by
  unfold afterCheck
  split
  next toBlock height bound =>
    split
    next reached => exact .inr ⟨rfl, toBlock, bound, height, rfl, reached⟩
    next => exact .inl rfl
  next => exact .inl rfl

theorem latestBlock_mem {height : Nat} (latest : db.latestBlock = some height) :
    height ∈ db.heights :=
  Sql.mem_orderByDesc.mp (mem_of_head? latest)

theorem Ahead.move (move : Move args s t) (member : row ∈ s.db.rows)
    (selected : ∃ bytes ∈ args.prefixes, args.request.selects bytes row)
    (ahead : Ahead args row s.emitted s.phase) : Ahead args row t.emitted t.phase := by
  cases move with
  | @emit prefixes cursor first rest phase =>
    rw [phase] at ahead
    cases prefixes <;> simpa only [Ahead, append_assoc, singleton_append] using ahead
  | @fetch bytes prefixes cursor last phase final =>
    rw [phase] at ahead
    rcases ahead with old | ⟨selects, behind⟩ | later
    · rw [append_nil] at old
      exact .inl (mem_append_left _ old)
    · by_cases short : row.id ≤ last.id
      · exact .inl (mem_append_right _
          (((page_some s.db final).1 row).mpr ⟨member, selects, behind, short⟩))
      · exact .inr (.inl ⟨selects, Nat.lt_of_not_le short⟩)
    · exact .inr (.inr later)
  | @exhaust bytes prefixes cursor phase empty =>
    rw [phase] at ahead
    rcases ahead with old | ⟨selects, behind⟩ | ⟨other, later, selects⟩
    · cases prefixes with
      | nil => exact old
      | cons _ _ => exact .inl old
    · have bound := page_none s.db empty member selects
      omega
    · cases prefixes with
      | nil => cases later
      | cons first rest =>
        rcases mem_cons.mp later with rfl | further
        · exact .inr (.inl ⟨selects, s.db.positive row member⟩)
        · exact .inr (.inr ⟨other, further, selects⟩)
  | finish phase =>
    rw [phase] at ahead
    dsimp only
    split
    · simpa [Ahead] using ahead
    · trivial
  | check phase =>
    rw [phase] at ahead
    dsimp only
    rcases afterCheck_cases (κ := κ) args s.db.latestBlock with next | ⟨next, _⟩
    · rw [next]
      trivial
    · rw [next]
      exact ahead
  | take _ _ => exact ahead_round (s.db.positive row member) selected
  | idle _ => exact ahead

theorem NothingLeft.move (move : Move args s t) (inv : NothingLeft args s) : NothingLeft args t := by
  have rows : t.db = s.db := by cases move <;> rfl
  refine ⟨fun row member selected => ?_, ?_, ?_⟩
  · rw [rows] at member
    exact (inv.rows row member selected).move move member selected
  · rw [rows]
    intro prefixes cursor buffer phase
    cases move with
    | emit before =>
      cases phase
      exact inv.cursor before
    | @fetch _ _ _ last _ final =>
      cases phase
      exact .inr ⟨last, (((page_some s.db final).1 last).mp (mem_of_getLast? final)).1, rfl⟩
    | exhaust _ _ =>
      cases phase
      exact .inl rfl
    | finish _ =>
      dsimp only at phase
      split at phase <;> cases phase
    | check _ =>
      dsimp only at phase
      rcases afterCheck_cases (κ := κ) args s.db.latestBlock with next | ⟨next, _⟩ <;>
        (rw [next] at phase; cases phase)
    | take _ _ =>
      cases phase
      exact .inl rfl
    | idle _ => exact inv.cursor phase
  · rw [rows]
    intro done
    cases move with
    | finish _ =>
      dsimp only at done
      split at done <;> cases done
    | check _ =>
      dsimp only at done
      rcases afterCheck_cases (κ := κ) args s.db.latestBlock with next | ⟨_, reached⟩
      · simp [next] at done
      · obtain ⟨toBlock, bound, height, latest, reached⟩ := reached
        exact ⟨toBlock, bound, height, latestBlock_mem latest, reached⟩
    | idle _ => exact inv.reached done
    | _ => cases done

theorem selects_le {toBlock : UInt64} (bound : toBlock ∈ args.toBlock)
    (selected : args.request.selects bytes row) : row.blockHeight ≤ toBlock.toNat := by
  have limit : args.request.toBlock = toBlock := by
    rw [Option.mem_def] at bound
    simp [request, bound]
  have inside := (of_decide_eq_true (Bool.and_eq_true_iff.mp selected).2).2
  have small : min toBlock.toNat (2 ^ 63 - 1) < 2 ^ 63 := by omega
  rw [limit, Sql.asI64_of_lt small] at inside
  omega

theorem NothingLeft.commit {block : NullifierBlock κ} (inv : NothingLeft args s)
    (in_time : CommitInTime args s (.commit block)) :
    NothingLeft args { s with db := s.db.commit block } := by
  rcases commit_cases s.db block with same | ⟨extends_db, rows, heights⟩
  · rw [same]
    exact inv
  · refine ⟨fun row member selected => ?_, fun phase => ?_, fun done => ?_⟩
    · rw [rows] at member
      rcases mem_append.mp member with old | new
      · exact inv.rows row old selected
      · have still := in_time row new selected
        dsimp only
        cases phase : s.phase with
        | scanning prefixes cursor buffer =>
          rw [phase] at still
          obtain ⟨bytes, remaining, selects⟩ := still
          have behind : cursor < row.id := by
            rcases inv.cursor phase with rfl | ⟨old, old_member, rfl⟩
            · exact extends_db.positive row new
            · exact (pairwise_append.mp extends_db.serial).2.2 old old_member row new
          cases prefixes with
          | nil => cases remaining
          | cons first rest =>
            rcases mem_cons.mp remaining with rfl | later
            · exact .inr (.inl ⟨selects, behind⟩)
            · exact .inr (.inr ⟨bytes, later, selects⟩)
        | checking =>
          rw [phase] at still
          exact still.elim
        | waiting => trivial
        | done =>
          obtain ⟨toBlock, bound, height, member, reached⟩ := inv.reached phase
          obtain ⟨bytes, _, selects⟩ := selected
          have low := selects_le bound selects
          have above := extends_db.height height member
          rw [extends_db.placed row new] at low
          omega
    · rw [rows]
      refine (inv.cursor phase).imp_right fun stored => ?_
      obtain ⟨row, member, same⟩ := stored
      exact ⟨row, mem_append_left _ member, same⟩
    · obtain ⟨toBlock, bound, height, member, reached⟩ := inv.reached done
      refine ⟨toBlock, bound, height, ?_, reached⟩
      rw [heights]
      exact mem_append_left _ member

/-- A subscription none of whose rows is committed too late has emitted all of them
when it ends. -/
theorem nullifier_rows_complete (args : NullifierArgs) (db : NullifierDb κ)
    (inputs : List (NullifierInput κ))
    (guarded : Guarded args.step (CommitInTime args) (args.start db) inputs)
    (ended : (run args.step (args.start db) inputs).phase = .done) :
    ∀ row ∈ (run args.step (args.start db) inputs).db.rows,
      (args.request.fromBlock.toNat : Int) ≤ row.blockHeight →
      row.blockHeight ≤ (args.request.toBlock.toNat : Int) →
      (∃ bytes ∈ args.prefixes, inPrefixRange bytes row.nullifier) →
      row ∈ (run args.step (args.start db) inputs).emitted := by
  have keep : ∀ (s : NullifierState κ) (input : NullifierInput κ), NothingLeft args s →
      CommitInTime args s input → NothingLeft args (args.step s input) := by
    intro s input inv in_time
    cases input with
    | commit block => exact inv.commit in_time
    | notify => exact ⟨inv.rows, inv.cursor, inv.reached⟩
    | poll => exact inv.move (NullifierArgs.poll_move s)
  have initially : NothingLeft args (args.start db) := by
    refine ⟨fun row member selected => ahead_round (db.positive row member) selected, ?_, nofun⟩
    intro _ _ _ phase
    cases phase
    exact Or.inl rfl
  have inv := run_invariant keep _ inputs initially guarded
  intro row member above below selected
  obtain ⟨bytes, bytes_member, inside⟩ := selected
  have column := ((run args.step (args.start db) inputs).db.table.column row member).2
  have selects : args.request.selects bytes row := by
    rw [NullifierRequest.selects, Bool.and_eq_true,
      NullifierRequest.inBlocks_iff (by omega) column]
    exact ⟨inside, above, below⟩
  have ahead := inv.rows row member ⟨bytes, bytes_member, selects⟩
  rw [ended] at ahead
  exact ahead

/-- Block 1 with a matching row is committed after the round has read its last page
and before it looks at the latest block. -/
theorem late_commit_missed :
    let s := run (sampleArgs (some 1)).step ((sampleArgs (some 1)).start NullifierDb.empty)
      [.commit ⟨0, []⟩, .poll, .commit (sampleBlock 1 1 [1, 5]), .poll, .poll]
    s.phase = .done ∧ s.emitted = [] ∧
      ∃ row ∈ s.db.rows, row.blockHeight = 1 ∧ inPrefixRange [1] row.nullifier := by
  refine ⟨by decide, by decide, ⟨1, [1, 5], (), 1, [], 1, []⟩, by decide, by decide, by decide⟩

/-- The same block committed while the subscription waits for its event. -/
theorem nullifier_rows_complete_sample :
    let inputs : List (NullifierInput Unit) := [.commit ⟨0, []⟩, .poll, .poll, .poll,
      .commit (sampleBlock 1 1 [1, 5]), .notify, .poll, .poll, .poll, .poll, .poll, .poll]
    let s := run (sampleArgs (some 1)).step ((sampleArgs (some 1)).start NullifierDb.empty) inputs
    s.phase = .done ∧ ∀ row ∈ s.db.rows, row ∈ s.emitted := by
  intro inputs s
  have ended : s.phase = .done := by decide
  have guarded : Guarded (sampleArgs (some 1)).step (CommitInTime (sampleArgs (some 1)))
      ((sampleArgs (some 1)).start NullifierDb.empty) inputs := by
    refine ⟨nofun, trivial, trivial, trivial, ?_⟩
    refine ⟨fun _ _ _ => trivial, trivial, trivial, trivial, trivial, trivial, trivial, trivial,
      trivial⟩
  have all := nullifier_rows_complete (sampleArgs (some 1)) NullifierDb.empty inputs guarded ended
  refine ⟨ended, fun row member => ?_⟩
  have rows : s.db.rows = [⟨1, [1, 5], (), 1, [], 1, []⟩] := by decide
  refine all row member ?_ ?_ ?_
  · rw [rows, List.mem_singleton] at member
    rw [member]
    decide
  · rw [rows, List.mem_singleton] at member
    rw [member]
    decide
  · rw [rows, List.mem_singleton] at member
    rw [member]
    decide

end MidnightIndexer.Guarantees.NullifierDelivery
