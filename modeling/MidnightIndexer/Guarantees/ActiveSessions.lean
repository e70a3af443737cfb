import MidnightIndexer.Source.ActiveWallets
import MidnightIndexer.Source.WalletEffects

/-!
# Sessions that the wallet indexer clears

The decision is made on rows read earlier, but each update asks for `last_active`
again, so a session is only cleared if the row is outdated at that moment. The time
it is compared with is read after the rows: a wallet renewed in between is safe as
long as the renewal is no older than the time to live when the clock is read. Rows
are never removed, so a wallet is named by the position of its row.
-/

namespace MidnightIndexer.Guarantees.ActiveSessions

open Lib List Source Source.ActiveWallets Source.WalletSessions PollState

variable {backend : Sql.Backend}

def reached (backend : Sql.Backend) (db : WalletDb) (clock : Int) (inputs : List PollInput) :
    PollState :=
  run (fun s input => s.step backend input) (PollState.started db clock) inputs

/-- The input connects the wallet or keeps it active. -/
def Renews (s : PollState) (position : Nat) : PollInput → Prop
  | .keepActive walletId => ∃ wallet, s.db.wallets[position]? = some wallet ∧
    wallet.id = walletId ∧ wallet.sessionId.isSome
  | .connect id key startIndex session => ∃ after wallet,
    connectWallet id key startIndex s.clock session s.db = .ok after ∧
      after.wallets[position]? = some wallet ∧ wallet.viewingKey = key
  | _ => False

/-! ## Rows -/

variable {id : Uuid} {now since : Int} {db : WalletDb} {s : PollState} {call position ttl : Nat}
  {c : ActiveCall} {phase : ActiveWallets.Phase} {wallets : List (Uuid × Int)}

theorem connectWallet_written {key : ViewingKey} {startIndex : Option Nat} {session : SessionId}
    {after : WalletDb} (success : connectWallet id key startIndex now session db = .ok after)
    {wallet : WalletRow} (member : wallet ∈ after.wallets) (own : wallet.viewingKey = key) :
    wallet.lastActive = now := by
  rcases (connectWallet_success success).2 with ⟨_, _, rfl⟩ | ⟨missing, _, rfl⟩
  · obtain ⟨old, _, rfl⟩ := Table.mem_update.mp member
    split at own
    next same => rw [if_pos same]; rfl
    next different => exact absurd own different
  · rcases mem_append.mp member with old | new
    · exact absurd own (Table.lookup_eq_none.mp missing wallet old)
    · rw [mem_singleton.mp new]
      rfl

/-- The row after a step has the time of before or that of the step. -/
def Aged (clock : Int) (before after : Option WalletRow) : Prop :=
  ∀ wallet ∈ before, ∃ row ∈ after,
    row.lastActive = wallet.lastActive ∨ row.lastActive = clock

theorem Aged.refl (clock : Int) (row : Option WalletRow) : Aged clock row row :=
  fun wallet there => ⟨wallet, there, .inl rfl⟩

theorem aged_map {clock : Int} {f : WalletRow → WalletRow}
    (ages : ∀ wallet, (f wallet).lastActive = wallet.lastActive ∨ (f wallet).lastActive = clock)
    (wallets : List WalletRow) (position : Nat) :
    Aged clock wallets[position]? (wallets.map f)[position]? := by
  intro wallet there
  rw [getElem?_map, there]
  exact ⟨f wallet, rfl, ages wallet⟩

theorem aged_connect {key : ViewingKey} {startIndex : Option Nat} {session : SessionId}
    {after : WalletDb} (success : connectWallet id key startIndex now session db = .ok after)
    (position : Nat) : Aged now db.wallets[position]? after.wallets[position]? := by
  rcases (connectWallet_success success).2 with ⟨_, _, rfl⟩ | ⟨_, _, rfl⟩
  · refine aged_map (fun wallet => ?_) db.wallets position
    split
    next => exact .inr rfl
    next => exact .inl rfl
  · intro wallet there
    have inside : position < db.wallets.length := (List.getElem?_eq_some_iff.mp there).1
    exact ⟨wallet, by rw [getElem?_append_left inside]; exact there, .inl rfl⟩

/-! ## What one step can do -/

/-- How far one step takes a call. -/
inductive Progress (clock : Int) (c : ActiveCall) : ActiveCall → Prop
  | same : Progress clock c c
  | clockRead (statements : List (List Uuid)) (was : c.phase = .selected) :
      Progress clock c { c with phase := .clearing clock statements }
  | updated (now : Int) (ids : List Uuid) (rest : List (List Uuid))
      (was : c.phase = .clearing now (ids :: rest)) :
      Progress clock c { c with phase := .clearing now rest }
  | returned (now : Int) (was : c.phase = .clearing now []) :
      Progress clock c { c with phase := .returned (recentIds (now - c.ttl) c.wallets) }

theorem progress_advance {moving : Nat} {d : ActiveCall} (there : s.calls[call]? = some c)
    (mover : s.calls[moving]? = some d) (progress : Progress s.clock d { d with phase := phase }) :
    ∃ after, (s.advance moving phase)[call]? = some after ∧ Progress s.clock c after := by
  rw [advance, getElem?_modify, there]
  by_cases own : moving = call
  · subst own
    cases mover.symm.trans there
    exact ⟨_, by simp, progress⟩
  · exact ⟨c, by simp [own], .same⟩

/-- What one step can do to the clock, to a row and to a call. -/
structure Moved (s after : PollState) : Prop where
  clock : s.clock ≤ after.clock
  rows : ∀ position : Nat, Aged s.clock s.db.wallets[position]? after.db.wallets[position]?
  calls : ∀ (call : Nat) c, s.calls[call]? = some c →
    ∃ next, after.calls[call]? = some next ∧ Progress s.clock c next

theorem Moved.refl (s : PollState) : Moved s s :=
  ⟨le_refl _, fun _ => Aged.refl _ _, fun _ c there => ⟨c, there, .same⟩⟩

theorem Moved.of_rows
    (rows : ∀ position : Nat, Aged s.clock s.db.wallets[position]? db.wallets[position]?) :
    Moved s { s with db := db } :=
  { Moved.refl s with rows := rows }

theorem Moved.of_call (mover : s.calls[call]? = some c)
    (progress : Progress s.clock c { c with phase := phase }) :
    Moved s { s with calls := s.advance call phase } :=
  { Moved.refl s with calls := fun _ _ there => progress_advance there mover progress }

theorem moved_step (s : PollState) (input : PollInput) : Moved s (s.step backend input) := by
  cases input with
  | tick time => exact { Moved.refl s with clock := le_max_left _ _ }
  | connect id key startIndex session =>
    rw [step]
    split
    next after success => exact .of_rows (aged_connect success)
    next => exact .refl s
  | keepActive walletId =>
    apply Moved.of_rows
    apply aged_map
    intro wallet
    split
    next => exact .inr rfl
    next => exact .inl rfl
  | disconnect session =>
    apply Moved.of_rows
    apply aged_map
    intro wallet
    split <;> exact .inl rfl
  | select ttl =>
    refine { Moved.refl s with calls := fun call c there => ⟨c, ?_, .same⟩ }
    have inside : call < s.calls.length := (List.getElem?_eq_some_iff.mp there).1
    rw [step, getElem?_append_left inside]
    exact there
  | readClock call =>
    rw [step]
    split
    next mover => exact .of_call mover (.clockRead _ rfl)
    next => exact .refl s
  | clear call =>
    rw [step]
    split
    next mover =>
      refine { Moved.of_call mover (.updated _ _ _ rfl) with rows := ?_ }
      apply aged_map
      intro wallet
      split <;> exact .inl rfl
    next => exact .refl s
  | passOver call =>
    rw [step]
    split
    next mover => exact .of_call mover (.updated _ _ _ rfl)
    next => exact .refl s
  | finish call =>
    rw [step]
    split
    next mover => exact .of_call mover (.returned _ rfl)
    next => exact .refl s

def ActiveSince (time : Int) (position : Nat) (s : PollState) : Prop :=
  time ≤ s.clock ∧ ∃ wallet, s.db.wallets[position]? = some wallet ∧ time ≤ wallet.lastActive

theorem ActiveSince.step {time : Int} (s : PollState) (input : PollInput)
    (active : ActiveSince time position s) : ActiveSince time position (s.step backend input) := by
  obtain ⟨past, wallet, there, recent⟩ := active
  have moved : Moved s (s.step backend input) := moved_step s input
  obtain ⟨row, after, aged⟩ := moved.rows position wallet there
  exact ⟨past.trans moved.clock, row, after, by omega⟩

theorem Renews.active {input : PollInput} (renews : Renews s position input) :
    ActiveSince s.clock position (s.step backend input) := by
  refine ⟨(moved_step s input).clock, ?_⟩
  cases input with
  | keepActive walletId =>
    obtain ⟨wallet, there, own, connected⟩ := renews
    refine ⟨{ wallet with lastActive := s.clock }, ?_, le_refl _⟩
    rw [step, keepWalletActive, getElem?_map, there, Option.map_some, if_pos ⟨own, connected⟩]
  | connect id key startIndex session =>
    obtain ⟨after, wallet, success, there, own⟩ := renews
    rw [step, success]
    exact ⟨wallet, there, (connectWallet_written success (mem_of_getElem? there) own).symm.le⟩
  | tick | disconnect | select | readClock | clear | passOver | finish => cases renews

/-! ## Calls -/

/-- What a call knows: the rows it selected, and a time read since. -/
def Knows (since clock : Int) (c : ActiveCall) : Prop :=
  match c.phase with
  | .selected => True
  | .clearing now _ => since ≤ now ∧ now ≤ clock
  | .returned ids => ∃ now, since ≤ now ∧ ids = recentIds (now - c.ttl) c.wallets

/-- The call that selected the rows at the time. -/
def Tracks (wallets : List (Uuid × Int)) (ttl : Nat) (since : Int) (call : Nat) (s : PollState) :
    Prop :=
  since ≤ s.clock ∧ ∃ c, s.calls[call]? = some c ∧ c.wallets = wallets ∧ c.ttl = ttl ∧
    Knows since s.clock c

theorem Knows.progress {clock later : Int} {after : ActiveCall} (knows : Knows since clock c)
    (past : since ≤ clock) (on : clock ≤ later) (progress : Progress clock c after) :
    after.wallets = c.wallets ∧ after.ttl = c.ttl ∧ Knows since later after := by
  cases progress with
  | same =>
    refine ⟨rfl, rfl, ?_⟩
    unfold Knows at knows ⊢
    split at knows
    next => trivial
    next => exact ⟨knows.1, knows.2.trans on⟩
    next => exact knows
  | clockRead statements was => exact ⟨rfl, rfl, past, on⟩
  | updated now ids rest was =>
    rw [Knows, was] at knows
    exact ⟨rfl, rfl, knows.1, knows.2.trans on⟩
  | returned now was =>
    rw [Knows, was] at knows
    exact ⟨rfl, rfl, now, knows.1, rfl⟩

theorem Tracks.step (s : PollState) (input : PollInput) (tracks : Tracks wallets ttl since call s) :
    Tracks wallets ttl since call (s.step backend input) := by
  obtain ⟨past, c, there, rfl, rfl, knows⟩ := tracks
  have moved : Moved s (s.step backend input) := moved_step s input
  obtain ⟨after, found, progress⟩ := moved.calls call c there
  obtain ⟨same_wallets, same_ttl, knows⟩ := knows.progress past moved.clock progress
  exact ⟨past.trans moved.clock, after, found, same_wallets, same_ttl, knows⟩

/-! ## The clearing update -/

/-- The time that the call has read and is clearing with. -/
def timeRead (s : PollState) (call : Nat) : Option Int :=
  match s.calls[call]? with
  | some ⟨_, _, .clearing now _⟩ => some now
  | _ => none

def returnedIds (s : PollState) (call : Nat) : Option (List Uuid) :=
  match s.calls[call]? with
  | some ⟨_, _, .returned ids⟩ => some ids
  | _ => none

/-- The next update of the call clears a session only if the wallet's `last_active`
is older than the time to live now. -/
def ClearsOnlyOutdated (backend : Sql.Backend) (ttl call : Nat) (s : PollState) : Prop :=
  ∀ (position : Nat) (wallet row : WalletRow), s.db.wallets[position]? = some wallet →
    wallet.sessionId.isSome → (s.step backend (.clear call)).db.wallets[position]? = some row →
    row.sessionId = none → wallet.lastActive < s.clock - ttl

/-- The next update of the call leaves the wallet as it is. -/
def LeavesAlone (backend : Sql.Backend) (call position : Nat) (s : PollState) : Prop :=
  (s.step backend (.clear call)).db.wallets[position]? = s.db.wallets[position]?

/-- The wallet had a session and was active within the time to live. -/
def Recent (ttl : Nat) (s : PollState) (id : Uuid) : Prop :=
  ∃ wallet ∈ s.db.wallets, wallet.id = id ∧ wallet.sessionId.isSome ∧
    s.clock - ttl ≤ wallet.lastActive

theorem mem_recentIds {minLastActive : Int}
    (member : id ∈ recentIds minLastActive (selectWallets db)) :
    ∃ wallet ∈ db.wallets, wallet.id = id ∧ wallet.sessionId.isSome ∧
      minLastActive ≤ wallet.lastActive := by
  obtain ⟨row, filtered, rfl⟩ := mem_map.mp member
  obtain ⟨selected, recent⟩ := mem_filter.mp filtered
  obtain ⟨wallet, with_session, rfl⟩ := mem_map.mp selected
  obtain ⟨there, session⟩ := mem_filter.mp with_session
  exact ⟨wallet, there, rfl, session, by simpa using recent⟩

theorem Tracks.timeRead (tracks : Tracks wallets ttl since call s)
    (read : timeRead s call = some now) : now ≤ s.clock := by
  obtain ⟨_, c, there, _, _, knows⟩ := tracks
  rw [ActiveSessions.timeRead, there] at read
  split at read
  next found =>
    cases found
    cases read
    exact knows.2
  next => cases read

theorem Tracks.returnedIds (tracks : Tracks wallets ttl since call s) {ids : List Uuid}
    (returned : returnedIds s call = some ids) :
    ∃ now, since ≤ now ∧ ids = recentIds (now - ttl) wallets := by
  obtain ⟨_, c, there, rfl, rfl, knows⟩ := tracks
  rw [ActiveSessions.returnedIds, there] at returned
  split at returned
  next found =>
    cases found
    cases returned
    exact knows
  next => cases returned

/-- An update leaves a row alone or clears it, and then the row is older than the
time that was read allows. -/
theorem Tracks.clear_row (tracks : Tracks wallets ttl since call s) (position : Nat) :
    LeavesAlone backend call position s ∨ ∃ now wallet, ActiveSessions.timeRead s call = some now ∧
        s.db.wallets[position]? = some wallet ∧ wallet.lastActive < now - ttl := by
  obtain ⟨_, c, there, _, rfl, _⟩ := tracks
  rw [LeavesAlone, ActiveSessions.timeRead, PollState.step, there]
  split
  next found =>
    cases found
    rw [clearOutdated, getElem?_map]
    cases row : s.db.wallets[position]? with
    | none => exact .inl rfl
    | some wallet =>
      rw [Option.map_some]
      split
      next outdated => exact .inr ⟨_, wallet, rfl, rfl, outdated.2⟩
      next => exact .inl rfl
  next => exact .inl rfl

section

variable (backend : Sql.Backend) (db : WalletDb) (clock : Int)

theorem reached_append (first rest : List PollInput) : reached backend db clock (first ++ rest) =
      run (fun s input => s.step backend input) (reached backend db clock first) rest :=
  run_append _ _ _ _

theorem tracks_reached (before between : List PollInput) (ttl : Nat) :
    Tracks (selectWallets (reached backend db clock before).db) ttl
      (reached backend db clock before).clock (reached backend db clock before).calls.length
      (reached backend db clock (before ++ .select ttl :: between)) := by
  rw [reached_append, run_cons]
  refine run_keeps Tracks.step _ between ?_
  exact ⟨le_refl _, _, getElem?_concat_length, rfl, rfl, trivial⟩

theorem active_reached {first later : List PollInput} {renewal : PollInput}
    (renews : Renews (reached backend db clock first) position renewal) :
    ActiveSince (reached backend db clock first).clock position
      (reached backend db clock (first ++ renewal :: later)) := by
  rw [reached_append, run_cons]
  exact run_keeps ActiveSince.step _ later renews.active

end

/-- The wallet is kept active at time 5, between the query and the clock reading at
time 7 of a call with a time to live of one. -/
def sampleBefore : List PollInput := [.connect 1 7 none 0, .tick 5]

def sampleBetween : List PollInput := [.keepActive 1, .tick 7, .readClock 0]

end MidnightIndexer.Guarantees.ActiveSessions
