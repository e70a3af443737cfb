import MidnightIndexer.Guarantees.WrappedCursors
import MidnightIndexer.Source.BridgeSubscription

/-!
# What `bridgeEvents` delivers

The events delivered are at any time the first matching ones behind the start id.
Completeness is a matter of counting: each matching event that was published after
the subscriber attached is a message, each message is one query, and a query reads
at least one of the events that are still missing. An event that is published
between the end of the backfill and the moment the subscriber attaches has no
message, and then one may stay behind.
-/

namespace MidnightIndexer.Guarantees.BridgeDelivery

open Lib Lib.Follow List Source Source.IndexerApi WrappedCursors BridgeEventArgs
open Paging (rowsFrom)
open BridgeEventArgs (Move page)

variable {args : BridgeEventArgs} {start : Nat} {s t : BridgeState}

def wanted (args : BridgeEventArgs) (rows : List BridgeEventRow) : List BridgeEventRow :=
  rows.filter (wantsBridgeEvent args)

variable {row event : BridgeEventRow} {rest : List BridgeEventRow}

theorem mem_wanted {rows : List BridgeEventRow} :
    row ∈ wanted args rows ↔ row ∈ rows ∧ wantsBridgeEvent args row = true :=
  mem_filter

theorem wanted_serial (args : BridgeEventArgs) (db : BridgeDb) :
    Serial BridgeEventRow.id (2 ^ 63) (wanted args db.rows) :=
  db.serial.sublist filter_sublist

theorem concerns_indexed (row : BridgeEventRow) :
    args.concerns row.indexed = wantsBridgeEvent args row := by
  rw [concerns, wantsBridgeEvent, Bool.and_comm]
  rfl

theorem query_eq (small : s.lastId.toNat < 2 ^ 63) : args.query s =
      Paging.page BridgeEventRow.id backfillBatch (wanted args s.db.rows) (s.lastId.toNat + 1) := by
  have selected : s.db.rows.filter (args.filter s.lastId).selects =
      rowsFrom BridgeEventRow.id (wanted args s.db.rows) (s.lastId.toNat + 1) := by
    rw [rowsFrom, wanted, filter_filter]
    apply filter_congr
    intro row _
    rw [Bool.eq_iff_iff, filter_selects_iff, Sql.asI64_of_lt small, Bool.and_eq_true,
      decide_eq_true_eq, and_comm]
    refine and_congr_left fun _ => ?_
    omega
  rw [query, getBridgeEvents, selected, Paging.page, Sql.orderBy_eq_of_perm (Perm.refl _)
      (rowsFrom_strict (wanted_serial args s.db).increasing _)]

/-! ## Order -/

/-- What was delivered and what is held are the first events behind the start id, and
the last id is the one delivered last. -/
structure Follows (args : BridgeEventArgs) (start : Nat) (s : BridgeState) : Prop where
  reads : s.delivered ++ page s.phase <+:
    rowsFrom BridgeEventRow.id (wanted args s.db.rows) (start + 1)
  position : s.lastId.toNat + 1 = behind BridgeEventRow.id (start + 1) s.delivered

variable (follows : Follows args start s)

include follows in
theorem Follows.delivered :
    s.delivered <+: rowsFrom BridgeEventRow.id (wanted args s.db.rows) (start + 1) :=
  (prefix_append _ _).trans follows.reads

include follows in
theorem Follows.small (small : start < 2 ^ 63) : s.lastId.toNat < 2 ^ 63 := by
  have position := follows.position
  rcases behind_cases BridgeEventRow.id (start + 1) s.delivered with
    ⟨_, first⟩ | ⟨last, member, _, behind_last⟩
  · omega
  · have inside := (mem_rowsFrom.mp (follows.delivered.subset member)).1
    have bound := (wanted_serial args s.db).successor last inside
    omega

include follows in
theorem Follows.commit (events : List BridgeEventRow) : Follows args start (s.commit events) := by
  have grown : s.db.rows <+: (s.commit events).db.rows := by
    dsimp only [BridgeState.commit]
    rcases s.db.commit_cases events with same | more
    · exact same.symm ▸ prefix_rfl
    · exact more.symm ▸ prefix_append _ _
  exact ⟨follows.reads.trans (rowsFrom_grows _ (grown.filter _) _), follows.position⟩

theorem max_lastId (less : s.lastId.toNat < event.id) (column : event.id < 2 ^ 63) :
    (max s.lastId (UInt64.ofNat event.id)).toNat = event.id := by
  have same : (UInt64.ofNat event.id).toNat = event.id :=
    UInt64.toNat_ofNat_of_lt' (column.trans (by decide))
  have below : s.lastId ≤ UInt64.ofNat event.id := by
    rw [UInt64.le_iff_toNat_le, same]
    exact less.le
  rw [show max s.lastId (UInt64.ofNat event.id) =
    if s.lastId ≤ UInt64.ofNat event.id then UInt64.ofNat event.id else s.lastId from rfl,
    if_pos below, same]

include follows in
theorem Follows.query (small : start < 2 ^ 63) : s.delivered ++ args.query s <+:
      rowsFrom BridgeEventRow.id (wanted args s.db.rows) (start + 1) := by
  rw [query_eq (follows.small small), follows.position]
  exact reads_page (wanted_serial args s.db).increasing follows.delivered

theorem Follows.move (small : start < 2 ^ 63) (move : Move args s t)
    (follows : Follows args start s) : Follows args start t := by
  cases move with
  | @deliver event phase held _ _ =>
    have reads := follows.reads
    have position := follows.position
    rw [held, append_cons] at reads
    obtain ⟨rest, whole⟩ := (prefix_append _ _).trans reads
    rw [append_assoc, singleton_append] at whole
    have left := rowsFrom_behind (wanted_serial args s.db).increasing whole.symm
    have next := mem_rowsFrom.mp (left.symm ▸ mem_cons_self : event ∈ _)
    have bound := (wanted_serial args s.db).successor event next.1
    have advanced : (max s.lastId (UInt64.ofNat event.id)).toNat = event.id :=
      max_lastId (by omega) (by omega)
    exact ⟨reads, by rw [BridgeState.yield, advanced, behind_concat]⟩
  | fill phase _ => exact ⟨follows.query small, follows.position⟩
  | finish | wake => exact ⟨by simpa [page] using follows.delivered, follows.position⟩
  | ignore phase _ _ => exact ⟨follows.reads, follows.position⟩
  | read phase => exact ⟨follows.query small, follows.position⟩
  | idle => exact follows

include follows in
theorem Follows.publish : Follows args start s.publish := by
  unfold BridgeState.publish
  split
  · exact follows
  · exact ⟨follows.reads, follows.position⟩

include follows in
theorem Follows.attach : Follows args start s.attach := by
  unfold BridgeState.attach
  split
  · exact follows
  · exact ⟨follows.reads, follows.position⟩

theorem Follows.step (small : start < 2 ^ 63) (follows : Follows args start s)
    (input : BridgeInput) : Follows args start (args.step s input) := by
  cases input with
  | commit events => exact follows.commit events
  | publish => exact follows.publish
  | attach => exact follows.attach
  | poll => exact follows.move small (poll_move args s)

/-! ## Messages -/

/-- Before the subscriber attaches nothing is received and nothing is read behind
the backfill. -/
def Unheard (s : BridgeState) : Prop :=
  s.attached = false → s.queue = [] ∧ ((∃ rest, s.phase = .backfill rest) ∨ s.phase = .live [])

theorem Unheard.move (move : Move args s t) (unheard : Unheard s) : Unheard t := by
  intro blind
  cases move with
  | @deliver event phase held stays _ =>
    obtain ⟨silent, backfilling | drained⟩ := unheard blind
    · exact ⟨silent, .inl (stays.mp backfilling)⟩
    · rw [drained] at held
      cases held
  | fill phase _ => exact ⟨(unheard blind).1, .inl ⟨_, rfl⟩⟩
  | finish phase _ => exact ⟨(unheard blind).1, .inr rfl⟩
  | wake _ queued _ | ignore _ queued _ =>
    have silent := (unheard blind).1
    simp [silent] at queued
  | read phase =>
    obtain ⟨_, ⟨rest, backfilling⟩ | drained⟩ := unheard blind
    · simp [phase] at backfilling
    · simp [phase] at drained
  | idle => exact unheard blind

theorem Unheard.publish (unheard : Unheard s) : Unheard s.publish := by
  unfold BridgeState.publish
  split
  · exact unheard
  · intro blind
    dsimp only at blind ⊢
    rw [blind]
    exact unheard blind

theorem Unheard.attach (unheard : Unheard s) : Unheard s.attach := by
  unfold BridgeState.attach
  split
  · exact unheard
  · nofun

theorem Unheard.step (unheard : Unheard s) (input : BridgeInput) : Unheard (args.step s input) := by
  cases input with
  | commit events => exact unheard
  | publish => exact unheard.publish
  | attach => exact unheard.attach
  | poll => exact unheard.move (poll_move args s)

/-- No matching event behind the last id is published while the backfill is over and
the subscriber has not attached. -/
def NotBlind (args : BridgeEventArgs) (s : BridgeState) : BridgeInput → Prop
  | .publish => s.phase = .live [] → s.attached = false →
    ∀ event ∈ s.unpublished.head?, wantsBridgeEvent args event = true →
      event.id ≤ s.lastId.toNat
  | _ => True

/-- The matching events among these rows that are still to be read. -/
def missing (args : BridgeEventArgs) (start : Nat) (s : BridgeState)
    (rows : List BridgeEventRow) : List BridgeEventRow :=
  rowsFrom BridgeEventRow.id (wanted args rows)
    (behind BridgeEventRow.id (start + 1) (s.delivered ++ page s.phase))

/-- The queries that are certain to come. -/
def wakeups (args : BridgeEventArgs) (s : BridgeState) : Nat :=
  (s.queue.filter args.concerns).length + if s.phase = .woken then 1 else 0

/-- Behind the backfill there are as many queries to come as published events are
missing. -/
structure Accounted (args : BridgeEventArgs) (start : Nat) (s : BridgeState) : Prop where
  follows : Follows args start s
  unheard : Unheard s
  covered : ∃ published, s.db.rows = published ++ s.unpublished ∧
    ((∃ rest, s.phase = .backfill rest) ∨
      (missing args start s published).length ≤ wakeups args s)

theorem missing_append (s : BridgeState) (front back : List BridgeEventRow) :
    missing args start s (front ++ back) =
      missing args start s front ++ missing args start s back := by
  rw [missing, wanted, filter_append, Paging.rowsFrom_append]
  rfl

include follows in
theorem missing_of_empty (small : start < 2 ^ 63) (drained : page s.phase = [])
    (empty : args.query s = []) : missing args start s s.db.rows = [] := by
  rw [query_eq (follows.small small), Paging.page, take_eq_nil_iff, follows.position] at empty
  rw [missing, drained, append_nil]
  exact empty.resolve_left (by decide)

include follows in
theorem missing_read (small : start < 2 ^ 63) (drained : page s.phase = [])
    {published : List BridgeEventRow} (rows : s.db.rows = published ++ s.unpublished) :
    (missing args start { s with phase := .live (args.query s) } published).length ≤
      (missing args start s published).length - 1 := by
  have strict := (wanted_serial args s.db).increasing
  rw [rows, wanted, filter_append] at strict
  have shrinks := page_shrinks (start + 1) s.delivered strict (show 0 < backfillBatch by decide)
  rw [← filter_append, ← rows, ← follows.position] at shrinks
  rw [missing, missing, drained, append_nil, query_eq (follows.small small), ← follows.position]
  exact shrinks

variable (inv : Accounted args start s)

include inv in
theorem Accounted.commit (events : List BridgeEventRow) :
    Accounted args start (s.commit events) := by
  obtain ⟨published, rows, covered⟩ := inv.covered
  refine ⟨inv.follows.commit events, inv.unheard, published, ?_, covered⟩
  dsimp only [BridgeState.commit]
  rcases s.db.commit_cases events with same | more
  · rw [same, if_pos rfl, rows]
  · split
    next none_new => rw [none_new, rows]
    next => rw [more, rows, append_assoc]

theorem missing_singleton (s : BridgeState) (event : BridgeEventRow) :
    (missing args start s [event]).length ≤ ([event.indexed].filter args.concerns).length := by
  have rest : (missing args start s [event]).length ≤ (wanted args [event]).length :=
    length_filter_le _ _
  cases asked : wantsBridgeEvent args event with
  | true | false => simpa [wanted, asked, concerns_indexed] using rest

include follows in
theorem missing_old (drained : page s.phase = [])
    (old : wantsBridgeEvent args event = true → event.id ≤ s.lastId.toNat) :
    missing args start s [event] = [] := by
  rw [missing, drained, append_nil, ← follows.position]
  refine filter_eq_nil_iff.mpr fun row member => ?_
  obtain ⟨listed, asked⟩ := mem_wanted.mp member
  rw [mem_singleton] at listed
  subst listed
  have bound := old asked
  simp only [decide_eq_true_eq]
  omega

include inv in
/-- A published event is counted by its message, or it is not missing. -/
theorem Accounted.published (seen : NotBlind args s .publish)
    (waiting : s.unpublished = event :: rest) {published : List BridgeEventRow}
    (enough : (missing args start s published).length ≤ wakeups args s) :
    (∃ rest, s.phase = .backfill rest) ∨
      (missing args start s (published ++ [event])).length ≤ wakeups args { s with
        queue := if s.attached then s.queue ++ [event.indexed] else s.queue } := by
  rw [missing_append, length_append]
  cases attached : s.attached with
  | true =>
    have new : (missing args start s [event]).length ≤ _ := missing_singleton s event
    unfold wakeups at enough ⊢
    simp only [if_true, filter_append, length_append]
    omega
  | false =>
    obtain ⟨_, backfilling | drained⟩ := inv.unheard attached
    · exact .inl backfilling
    · have old := seen drained attached event (by rw [waiting]; rfl)
      rw [missing_old inv.follows (by rw [drained]; rfl) old]
      exact .inr enough

include inv in
theorem Accounted.publish (seen : NotBlind args s .publish) : Accounted args start s.publish := by
  obtain ⟨published, rows, covered⟩ := inv.covered
  refine ⟨inv.follows.publish, inv.unheard.publish, ?_⟩
  cases waiting : s.unpublished with
  | nil =>
    have same : s.publish = s := by simp only [BridgeState.publish, waiting]
    rw [same]
    exact ⟨published, rows, covered⟩
  | cons event rest =>
    have moved : s.publish = { s with
        unpublished := rest
        queue := if s.attached then s.queue ++ [event.indexed] else s.queue } := by
      simp only [BridgeState.publish, waiting]
    rw [moved]
    refine ⟨published ++ [event], by simp [rows, waiting], ?_⟩
    rcases covered with backfilling | enough
    · exact .inl backfilling
    · exact inv.published seen waiting enough

include inv in
theorem Accounted.attach : Accounted args start s.attach := by
  refine ⟨inv.follows.attach, inv.unheard.attach, ?_⟩
  unfold BridgeState.attach
  split
  · exact inv.covered
  · exact inv.covered

theorem Accounted.move (small : start < 2 ^ 63) (move : Move args s t)
    (inv : Accounted args start s) : Accounted args start t := by
  obtain ⟨published, rows, covered⟩ := inv.covered
  refine ⟨inv.follows.move small move, inv.unheard.move move, ?_⟩
  cases move with
  | @deliver event phase held stays awake =>
    refine ⟨published, rows, covered.imp stays.mp fun enough => ?_⟩
    have asleep : s.phase ≠ .woken := fun woken => by
      rw [woken] at held
      cases held
    have same : s.delivered ++ page s.phase = (s.delivered ++ [event]) ++ page phase := by
      rw [held, append_cons]
    rw [missing, wakeups, if_neg asleep, same] at enough
    rw [missing, wakeups, BridgeState.yield, if_neg awake]
    exact enough
  | fill phase found => exact ⟨published, rows, .inl ⟨_, rfl⟩⟩
  | finish phase empty =>
    have drained : page s.phase = [] := by rw [phase]; rfl
    have none_missing := missing_of_empty inv.follows small drained empty
    rw [rows, missing_append, append_eq_nil_iff, missing, drained] at none_missing
    refine ⟨published, rows, .inr ?_⟩
    rw [missing]
    exact (congrArg length none_missing.1).trans_le (Nat.zero_le _)
  | @wake message queue phase queued concerned =>
    refine ⟨published, rows, .inr ?_⟩
    have enough := covered.resolve_left (by simp [phase])
    rw [missing, wakeups, phase, queued, filter_cons_of_pos concerned] at enough
    exact enough
  | @ignore message queue phase queued other =>
    refine ⟨published, rows, .inr ?_⟩
    have enough := covered.resolve_left (by simp [phase])
    rw [wakeups, queued, filter_cons_of_neg (by simp [other])] at enough
    exact enough
  | read phase =>
    refine ⟨published, rows, .inr ?_⟩
    have enough := covered.resolve_left (by simp [phase])
    have fewer := missing_read inv.follows small (by rw [phase]; rfl) rows
    rw [wakeups, if_pos phase] at enough
    exact fewer.trans (by simp [wakeups]; omega)
  | idle => exact ⟨published, rows, covered⟩

theorem Accounted.step (small : start < 2 ^ 63) (inv : Accounted args start s)
    (input : BridgeInput) (seen : NotBlind args s input) :
    Accounted args start (args.step s input) := by
  cases input with
  | commit events => exact inv.commit events
  | publish => exact inv.publish seen
  | attach => exact inv.attach
  | poll => exact inv.move small (poll_move args s)

/-! ## The events to publish -/

/-- What is still to be published was committed last. -/
def Backlog (s : BridgeState) : Prop := s.unpublished <:+ s.db.rows

theorem Backlog.step (backlog : Backlog s) (input : BridgeInput) : Backlog (args.step s input) := by
  cases input with
  | commit events =>
    dsimp only [BridgeEventArgs.step, BridgeState.commit, Backlog]
    rcases s.db.commit_cases events with same | more
    · rw [same, if_pos rfl]
      exact backlog
    · split
      next none_new => exact none_new.symm ▸ backlog
      next =>
        obtain ⟨front, rows⟩ := backlog
        exact ⟨front, by rw [more, ← rows, append_assoc]⟩
  | publish =>
    dsimp only [BridgeEventArgs.step, BridgeState.publish]
    split
    · exact backlog
    next event rest waiting => exact (waiting ▸ suffix_cons event rest).trans backlog
  | attach =>
    dsimp only [BridgeEventArgs.step, BridgeState.attach]
    split
    · exact backlog
    · exact backlog
  | poll =>
    obtain ⟨db, unpublished⟩ := (BridgeEventArgs.poll_move args s).frame
    rw [BridgeEventArgs.step, Backlog, db, unpublished]
    exact backlog

/-! ## The result -/

/-- Behind the backfill, with every message that was received processed. -/
def Quiet (s : BridgeState) : Prop := s.phase = .live [] ∧ s.queue = []

include inv in
theorem Accounted.delivered (quiet : Quiet s) (committed : row ∈ s.db.rows)
    (published : row ∉ s.unpublished) (asked : wantsBridgeEvent args row = true)
    (beyond : start < row.id) : row ∈ s.delivered := by
  obtain ⟨front, rows, covered⟩ := inv.covered
  obtain ⟨phase, queue⟩ := quiet
  have none_left := covered.resolve_left (by simp [phase])
  rw [wakeups, queue, phase, filter_nil, if_neg (by simp), missing, phase, page,
    append_nil] at none_left
  obtain ⟨rest, whole⟩ := inv.follows.delivered
  have later := rowsFrom_behind (wanted_serial args s.db).increasing whole.symm
  have listed : row ∈ s.delivered ++ rest := by
    rw [whole]
    exact mem_rowsFrom.mpr ⟨mem_wanted.mpr ⟨committed, asked⟩, beyond⟩
  rcases mem_append.mp listed with taken | left
  · exact taken
  · rw [← later] at left
    have old : row ∈ front := by
      rw [rows] at committed
      exact (mem_append.mp committed).resolve_right published
    have missed : row ∈ rowsFrom BridgeEventRow.id (wanted args front) _ :=
      mem_rowsFrom.mpr ⟨mem_wanted.mpr ⟨old, asked⟩, (mem_rowsFrom.mp left).2⟩
    rw [length_eq_zero_iff.mp (Nat.le_zero.mp none_left)] at missed
    cases missed

include follows in
theorem Follows.not_delivered (behind_last : s.lastId.toNat < row.id) : row ∉ s.delivered := by
  intro taken
  obtain ⟨rest, whole⟩ := follows.delivered
  have ordered := rowsFrom_strict (wanted_serial args s.db).increasing (start + 1)
  rw [← whole, pairwise_append] at ordered
  have position := follows.position
  rcases behind_cases BridgeEventRow.id (start + 1) s.delivered with
    ⟨nothing, _⟩ | ⟨last, _, final, behind_final⟩
  · simp [nothing] at taken
  · have less := key_le_last ordered.1 final taken
    omega

/-- A publish before the subscriber attaches leaves no message. -/
theorem run_blind_publish (phase : s.phase = .live []) (blind : s.attached = false)
    (silent : s.queue = []) (waiting : s.unpublished = event :: rest) :
    run args.step s [.publish, .attach, .poll] =
      { s with unpublished := rest, attached := true } := by
  have published : s.publish = { s with unpublished := rest } := by
    simp [BridgeState.publish, waiting, blind]
  simp [step, published, BridgeState.attach, phase, poll, silent]

theorem bridgeEvents_delivers_unless_blind (args : BridgeEventArgs) (db : BridgeDb)
    (fromId : Option UInt64) (small : (fromId.getD 0).toNat < 2 ^ 63)
    (inputs : List BridgeInput) :
    let s := run args.step (.start db fromId) inputs
    (s.delivered.Pairwise fun earlier later => earlier.id < later.id) ∧
    (∀ row, row ∈ s.delivered ↔
      (row ∈ s.db.rows ∧ wantsBridgeEvent args row = true) ∧ (fromId.getD 0).toNat < row.id ∧
        ∃ last ∈ s.delivered.getLast?, row.id ≤ last.id) ∧
    (Guarded args.step (NotBlind args) (.start db fromId) inputs → Quiet s →
      ∀ row ∈ s.db.rows, row ∉ s.unpublished → wantsBridgeEvent args row = true →
        (fromId.getD 0).toNat < row.id → row ∈ s.delivered) ∧
    (∀ event rest, s.phase = .live [] → s.attached = false → s.unpublished = event :: rest →
      wantsBridgeEvent args event = true → s.lastId.toNat < event.id →
      let later := run args.step s [.publish, .attach, .poll]
      Quiet later ∧ later.attached = true ∧ event ∈ later.db.rows ∧ event ∉ later.unpublished ∧
        event ∉ later.delivered) := by
  intro s
  have initially : Follows args (fromId.getD 0).toNat (.start db fromId) :=
    ⟨List.nil_prefix, rfl⟩
  have follows : Follows args (fromId.getD 0).toNat s :=
    run_keeps (fun _ input inv => inv.step small input) _ inputs initially
  have taken := reads_exact (wanted_serial args s.db).increasing follows.delivered
  refine ⟨taken.1, fun row => ?_, ?_, ?_⟩
  · rw [taken.mem_iff, mem_wanted, Nat.succ_le_iff]
  · intro seen quiet row committed published asked beyond
    have accounted : Accounted args (fromId.getD 0).toNat (.start db fromId) :=
      ⟨initially, fun _ => ⟨rfl, Or.inl ⟨[], rfl⟩⟩, db.rows, (List.append_nil _).symm,
        Or.inl ⟨[], rfl⟩⟩
    have inv : Accounted args (fromId.getD 0).toNat s :=
      run_invariant (fun _ input inv seen => inv.step small input seen) _ inputs accounted seen
    exact inv.delivered quiet committed published asked beyond
  · intro event rest phase blind waiting asked behind_last
    have unheard : Unheard s :=
      run_keeps (fun _ input inv => inv.step input) _ inputs fun _ => ⟨rfl, Or.inl ⟨[], rfl⟩⟩
    have backlog : Backlog s :=
      run_keeps (fun _ input inv => inv.step input) _ inputs List.nil_suffix
    rw [Backlog, waiting] at backlog
    have ordered := s.db.serial.increasing.sublist backlog.sublist
    have silent := (unheard blind).1
    rw [run_blind_publish phase blind silent waiting]
    refine ⟨⟨phase, silent⟩, rfl, backlog.subset List.mem_cons_self, fun again => ?_,
      follows.not_delivered behind_last⟩
    exact absurd ((List.pairwise_cons.mp ordered).1 event again) (lt_irrefl _)

def userTransfer : BridgeEventRow := ⟨1, 5, .userTransfer, some [7]⟩

/-- The subscriber attaches before the event is published. -/
def attachedInputs : List BridgeInput :=
  [.poll, .commit [userTransfer], .attach, .publish, .poll, .poll, .poll]

theorem bridgeEvents_delivers_sample :
    let s := run (BridgeEventArgs.step ⟨some [7], none⟩) (.start .empty none) attachedInputs
    Quiet s ∧ userTransfer ∈ s.delivered := by
  have seen : Guarded (BridgeEventArgs.step ⟨some [7], none⟩) (NotBlind ⟨some [7], none⟩)
      (.start .empty none) attachedInputs :=
    ⟨trivial, trivial, trivial, fun _ blind => absurd blind (by decide), trivial, trivial, trivial,
      trivial⟩
  have quiet : Quiet (run (BridgeEventArgs.step ⟨some [7], none⟩) (.start .empty none)
      attachedInputs) := ⟨by decide, by decide⟩
  exact ⟨quiet, (bridgeEvents_delivers_unless_blind ⟨some [7], none⟩ .empty none (by decide)
    attachedInputs).2.2.1 seen quiet userTransfer (by decide) (by decide) (by decide) (by decide)⟩

/-- The event is committed behind the last query of the backfill and published
before the subscriber attaches: it is not delivered. -/
theorem bridgeEvents_blind_publish_lost :
    let s := run (BridgeEventArgs.step ⟨none, none⟩) (.start .empty none)
      [.poll, .commit [userTransfer], .publish, .attach, .poll]
    Quiet s ∧ s.attached = true ∧ userTransfer ∈ s.db.rows ∧ s.unpublished = [] ∧
      s.delivered = [] :=
  ⟨⟨by decide, by decide⟩, by decide, by decide, by decide, by decide⟩

end MidnightIndexer.Guarantees.BridgeDelivery
