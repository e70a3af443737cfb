import MidnightIndexer.Source.SessionSubscriptions

/-!
# Subscriptions after their session has ended

A subscription asks for its wallet, not for its session. After the session has
been disconnected or replaced it goes on with the rows of the page it has read, and
it reads further pages as soon as the wallet has any session again. It delivers
nothing more if it had nothing unread when the session ended and reads no page
while the wallet has a session.
-/

namespace MidnightIndexer.Guarantees.SessionRevocation

open Lib List Source Source.SessionSubscriptions Source.WalletSessions SessionState

/-- The rows of the last page that are still to be delivered. -/
def unread (opened : Opened) : List RegularTransaction :=
  match opened.sub.phase with
  | .streaming _ buffer => buffer
  | .waiting => []

def delivers (s : SessionState) : SessionInput → List (SessionId × RelevantTransaction)
  | .poll position =>
    match s.subscriptions[position]? with
    | some opened => (unread opened).head?.toList.map fun transaction =>
        (opened.session, makeRelevantTransaction opened.sub.index transaction)
    | none => []
  | _ => []

/-- The next poll of the subscription is a query. -/
def readsPage (opened : Opened) : Bool :=
  match opened.sub.phase with
  | .streaming _ [] => true
  | .streaming _ (_ :: _) | .waiting => false

def polled (s : SessionState) : SessionInput → Option Opened
  | .poll position => s.subscriptions[position]?
  | _ => none

/-- A subscription of an ended session reads no page while the wallet has a
session, and an input that ends a session leaves no unread rows behind. -/
def Covered (s : SessionState) (input : SessionInput) : Prop :=
  (∀ opened ∈ polled s input, readsPage opened = true → opened.session ∈ s.revoked →
      s.db.sessionOpen opened.params.walletId = false) ∧
    ∀ session ∈ s.revokes input, ∀ opened ∈ s.subscriptions, opened.session = session →
      unread opened = []

instance (s : SessionState) (input : SessionInput) : Decidable (Covered s input) :=
  -- over the ended sessions, not over all session ids
  have : Decidable (∀ session ∈ s.revokes input, ∀ opened ∈ s.subscriptions,
      opened.session = session → unread opened = []) := List.decidableBAll _ _
  inferInstanceAs (Decidable (_ ∧ _))

/-- The subscriptions of ended sessions have nothing unread. -/
def Drained (s : SessionState) : Prop :=
  ∀ opened ∈ s.subscriptions, opened.session ∈ s.revoked → unread opened = []

theorem page_closed {db : WalletDb} {walletId : Uuid} (closed : db.sessionOpen walletId = false)
    (batchSize : NonZeroU32) (cursor : Nat) :
    db.relevantTransactionsPage walletId batchSize cursor = [] := by
  simp [WalletDb.relevantTransactionsPage, closed, Sql.orderBy]

theorem unread_poll {db : WalletDb} {opened : Opened} (drained : unread opened = [])
    (closed : readsPage opened = true → db.sessionOpen opened.params.walletId = false) :
    unread (opened.poll db) = [] := by
  unfold Opened.poll poll
  cases phase : opened.sub.phase with
  | waiting =>
    cases opened.events with
    | nil => simp [unread, phase]
    | cons event later => by_cases own : event = opened.params.walletId <;> simp [own, unread, phase]
  | streaming cursor buffer =>
    rw [unread, phase] at drained
    subst drained
    have query : readsPage opened = true := by rw [readsPage, phase]
    simp [page_closed (closed query), unread]

variable {env : WalletEnv} {s : SessionState}

/-- Where the subscriptions after an input come from. -/
theorem mem_subscriptions_move {input : SessionInput} {opened : Opened}
    (member : opened ∈ (s.move env input).subscriptions) :
    (∃ old ∈ s.subscriptions, opened.session = old.session ∧ unread opened = unread old) ∨
      unread opened = [] ∨
      ∃ position old, input = .poll position ∧ s.subscriptions[position]? = some old ∧
        opened = old.poll s.db := by
  by_cases stays : opened ∈ s.subscriptions
  · exact .inl ⟨opened, stays, rfl, rfl⟩
  cases input with
  | connect | commit | expire | keepActive => exact absurd member stays
  | index | resolveDisconnect | disconnect =>
    rw [move] at member
    split at member <;> exact absurd member stays
  | publish walletId =>
    rw [move] at member
    split at member
    next =>
      obtain ⟨old, there, rfl⟩ := mem_map.mp member
      exact .inl ⟨old, there, rfl, rfl⟩
    next => exact absurd member stays
  | subscribe sessionId index batchSize =>
    rw [move] at member
    split at member
    next => exact absurd member stays
    next session decoded =>
      split at member
      next => exact absurd member stays
      next walletId resolved =>
        rw [mem_singleton.mp ((mem_append.mp member).resolve_left stays)]
        exact .inr (.inl rfl)
  | poll position =>
    obtain ⟨place, found⟩ := getElem?_of_mem member
    rw [move, getElem?_modify] at found
    obtain ⟨old, there, same⟩ := Option.map_eq_some_iff.mp found
    split at same
    next here =>
      subst here
      exact .inr (.inr ⟨position, old, rfl, there, same.symm⟩)
    next =>
      subst same
      exact .inl ⟨old, mem_of_getElem? there, rfl, rfl⟩

theorem Drained.step (s : SessionState) (input : SessionInput) (drained : Drained s)
    (covered : Covered s input) : Drained (sessionStep env s input) := by
  intro opened member ended
  rcases mem_subscriptions_move member with ⟨old, there, session, rest⟩ | nothing | polled
  · rw [rest]
    rcases mem_append.mp ended with now | before
    · exact covered.2 opened.session now old there session.symm
    · exact drained old there (session ▸ before)
  · exact nothing
  · obtain ⟨position, old, rfl, there, rfl⟩ := polled
    -- a poll ends no session, so the subscription's session had ended before
    have before : old.session ∈ s.revoked := ended
    exact unread_poll (drained old (mem_of_getElem? there) before)
      fun query => covered.1 old there query before

theorem revoked_kept {session : SessionId} (ended : session ∈ s.revoked)
    (inputs : List SessionInput) : session ∈ (run (sessionStep env) s inputs).revoked :=
  @run_keeps _ _ _ (fun s => session ∈ s.revoked)
    (fun _ _ before => mem_append_right _ before) s inputs ended

theorem delivers_none (drained : Drained s) {session : SessionId} (ended : session ∈ s.revoked)
    (input : SessionInput) : ∀ delivery ∈ delivers s input, delivery.1 ≠ session := by
  intro delivery member same
  unfold delivers at member
  split at member
  next position =>
    split at member
    next opened there =>
      obtain ⟨transaction, first, rfl⟩ := mem_map.mp member
      subst same
      simp [drained opened (mem_of_getElem? there) ended] at first
    next => cases member
  next => cases member

/-- **A session that has ended delivers nothing more** in a run whose inputs are
all covered, whatever sessions the wallet gets later. -/
theorem ended_session_delivers_nothing (env : WalletEnv) (db : WalletDb)
    (inputs before between rest : List SessionInput) (revoke input : SessionInput)
    (covered : Guarded (sessionStep env) Covered (SessionState.started db) inputs)
    (split : inputs = (before ++ revoke :: between) ++ input :: rest) (session : SessionId)
    (ended : session ∈ (run (sessionStep env) (SessionState.started db) before).revokes revoke) :
    ∀ delivery ∈ delivers
        (run (sessionStep env) (SessionState.started db) (before ++ revoke :: between)) input,
      delivery.1 ≠ session := by
  subst split
  have initially : Drained (SessionState.started db) := nofun
  have drained := run_invariant Drained.step _ _ initially covered.take.1
  refine delivers_none drained ?_ input
  rw [run_append, run_cons]
  exact revoked_kept (List.mem_append_left _ ended) between

def sampleSession : HexEncoded := List.replicate 64 '0'

/-- A wallet connects with session zero and subscribes; its transaction is indexed. -/
def sampleStart : List SessionInput :=
  [.connect 1 7 none 0 0, .commit (sampleTransaction 1 [7] 0 2), .index sampleCall,
    .subscribe sampleSession 0 (.ofNat 2)]

def sampleState (inputs : List SessionInput) : SessionState :=
  run (sessionStep sampleEnv) (SessionState.started WalletDb.empty) inputs

/-- The wallet disconnects and gets no other session; nothing is delivered. -/
def sampleEnd : List SessionInput := sampleStart ++ [.resolveDisconnect sampleSession]

theorem sampleEnd_covered : Guarded (sessionStep sampleEnv) Covered (started WalletDb.empty)
      ((sampleEnd ++ .disconnect 0 :: [.poll 0]) ++ .poll 0 :: []) := by
  decide +kernel

theorem ended_session_sample :
    0 ∈ (sampleState sampleEnd).revokes (.disconnect 0) ∧
      ∀ delivery ∈ delivers (sampleState (sampleEnd ++ .disconnect 0 :: [.poll 0])) (.poll 0),
        delivery.1 ≠ 0 := by
  have ended : 0 ∈ (sampleState sampleEnd).revokes (.disconnect 0) := by decide +kernel
  exact ⟨ended, ended_session_delivers_nothing sampleEnv WalletDb.empty _ sampleEnd [.poll 0] []
    (.disconnect 0) (.poll 0) sampleEnd_covered rfl 0 ended⟩

/-- A new connect replaces session zero, and the subscription opened with it
delivers the wallet's transaction under the new session. -/
theorem replaced_session_still_delivers :
    0 ∈ (sampleState sampleStart).revokes (.connect 2 7 none 1 5) ∧
      ¬ ∀ delivery ∈ delivers
          (sampleState (sampleStart ++ .connect 2 7 none 1 5 :: [.poll 0])) (.poll 0),
        delivery.1 ≠ 0 := by
  decide +kernel

end MidnightIndexer.Guarantees.SessionRevocation
