import MidnightIndexer.Source.SubscriptionQuotas

/-!
# Concurrent subscriptions are counted exactly

Every step of a call either leaves the counter and the number of counted calls
alone or changes both by one, so in every interleaving a connection's counter is
the number of its live guards and of its calls that have not decided yet.
-/

namespace MidnightIndexer.Guarantees.SubscriptionQuotas

open Lib List Source.Quotas Machine
open Source (SessionId)

variable {Connection : Type} [DecidableEq Connection]

/-- Between the increment and the return. -/
def inFlight : Phase → Bool
  | .entering _ | .taking _ | .refused | .allowed => true
  | .held | .rejected _ | .dropped => false

/-- In flight or with a live guard. -/
def counted : Phase → Bool
  | .entering _ | .taking _ | .refused | .allowed | .held => true
  | .rejected _ | .dropped => false

def callsOf (select : Phase → Bool) (s : Machine Connection) (connection : Connection) : Nat :=
  s.calls.countP fun row => row.connection = connection ∧ select row.phase

def callsInFlight (s : Machine Connection) (connection : Connection) : Nat :=
  callsOf inFlight s connection

def liveGuards (s : Machine Connection) (connection : Connection) : Nat :=
  callsOf (· = .held) s connection

theorem counted_eq (s : Machine Connection) (connection : Connection) :
    callsOf counted s connection = liveGuards s connection + callsInFlight s connection := by
  unfold liveGuards callsInFlight callsOf
  induction s.calls with
  | nil => rfl
  | cons row rest ih =>
    rw [countP_cons, countP_cons, countP_cons, ih]
    obtain ⟨owner, phase⟩ := row
    by_cases own : owner = connection
    · cases phase <;> simp [own, counted, inFlight] <;> omega
    · simp [own]

/-- What a step of a call can do to the counters and the calls. -/
inductive Effect (config : QuotaConfig) (s after : Machine Connection) (call : Nat) : Prop
  | idle (same : after = s)
  | rejected (connection : Connection) (error : QuotaError) (new : call = s.calls.length)
      (counters : after.quotas.counters = s.quotas.counters)
      (calls : after.calls = s.calls ++ [⟨connection, .rejected error⟩])
  | started (connection : Connection) (phase : Phase) (is_counted : counted phase)
      (new : call = s.calls.length)
      (free : s.quotas.counters connection < config.maxConcurrentPerConnection)
      (counters : after.quotas.counters = Function.update s.quotas.counters connection
        (s.quotas.counters connection + 1))
      (calls : after.calls = s.calls ++ [⟨connection, phase⟩])
  | moved (row : Call Connection) (phase : Phase) (there : s.calls[call]? = some row)
      (was : counted row.phase) (is_counted : counted phase)
      (counters : after.quotas.counters = s.quotas.counters)
      (calls : after.calls = s.advance call phase)
  | released (row : Call Connection) (phase : Phase) (there : s.calls[call]? = some row)
      (was : counted row.phase) (is_not : counted phase = false)
      (not_limit : ∀ max, phase ≠ .rejected (.perConnection max))
      (counters : after.quotas.counters = Function.update s.quotas.counters row.connection
        (s.quotas.counters row.connection - 1))
      (calls : after.calls = s.advance call phase)

theorem step_effect (config : QuotaConfig) (s : Machine Connection) (input : QuotaStep Connection) :
    Effect config s (s.step config input) (s.caller input) := by
  cases input with
  | start connection session =>
    rw [step, start, caller]
    unfold fetchIncrement
    split
    next => exact .rejected connection _ rfl rfl rfl
    next next_value fetched =>
      split at fetched
      next free =>
        cases fetched
        exact .started connection _ (by cases session <;> rfl) rfl free rfl rfl
      next => cases fetched
  | enter call now =>
    rw [step, caller]
    split
    next connection session there => exact .moved _ _ there rfl rfl rfl rfl
    next => exact .idle rfl
  | take call now =>
    rw [step, caller]
    split
    next connection session there =>
      have is_counted : ∀ allowed : Bool, counted (if allowed then .allowed else .refused) := by
        decide
      exact .moved _ _ there rfl (is_counted _) rfl rfl
    next => exact .idle rfl
  | undo call =>
    rw [step, caller]
    split
    next connection there => exact .released _ _ there rfl rfl (by simp) rfl rfl
    next => exact .idle rfl
  | finish call =>
    rw [step, caller]
    split
    next connection there => exact .moved _ _ there rfl rfl rfl rfl
    next => exact .idle rfl
  | drop call =>
    rw [step, caller]
    split
    next connection there => exact .released _ _ there rfl rfl (by simp) rfl rfl
    next => exact .idle rfl

/-! ## The counter -/

def weightOf (row : Call Connection) (connection : Connection) : Nat :=
  if row.connection = connection ∧ counted row.phase then 1 else 0

def weight (s : Machine Connection) (call : Nat) (connection : Connection) : Nat :=
  match s.calls[call]? with
  | some row => weightOf row connection
  | none => 0

section

variable {s after : Machine Connection} {call : Nat} {row : Call Connection}

theorem weight_there (there : s.calls[call]? = some row) (connection : Connection) :
    weight s call connection = weightOf row connection := by
  rw [weight, there]

theorem weight_new (connection : Connection) : weight s s.calls.length connection = 0 := by
  rw [weight, getElem?_eq_none (Nat.le_refl _)]

theorem weight_appended (calls : after.calls = s.calls ++ [row]) (connection : Connection) :
    weight after s.calls.length connection = weightOf row connection :=
  weight_there (by rw [calls, getElem?_concat_length]) connection

theorem weight_advanced {phase : Phase} (there : s.calls[call]? = some row)
    (calls : after.calls = s.advance call phase) (connection : Connection) :
    weight after call connection = weightOf { row with phase := phase } connection := by
  apply weight_there
  rw [calls, advance, getElem?_modify_eq, there]
  rfl

theorem callsOf_appended (calls : after.calls = s.calls ++ [row]) (connection : Connection) :
    callsOf counted after connection = callsOf counted s connection + weightOf row connection := by
  unfold callsOf weightOf
  rw [calls, countP_append, countP_singleton]
  simp

theorem callsOf_advanced {phase : Phase} (there : s.calls[call]? = some row)
    (calls : after.calls = s.advance call phase) (connection : Connection) :
    callsOf counted after connection + weightOf row connection =
      callsOf counted s connection + weightOf { row with phase := phase } connection := by
  have count := Table.countP_modify
    (p := fun row => row.connection = connection ∧ counted row.phase)
    there fun row => { row with phase := phase }
  unfold callsOf weightOf
  rw [calls, advance]
  simpa using count

end

section

variable {config : QuotaConfig} {s after : Machine Connection} {call : Nat}
  (effect : Effect config s after call)

include effect in
/-- A step changes the number of counted calls as it changes its own call. -/
theorem Effect.callsOf_change (connection : Connection) :
    callsOf counted after connection + weight s call connection =
      callsOf counted s connection + weight after call connection := by
  cases effect with
  | idle same => rw [same]
  | rejected owner error new counters calls
  | started owner phase is_counted new free counters calls =>
    rw [new, weight_new, weight_appended calls, callsOf_appended calls, Nat.add_zero]
  | moved row phase there was is_counted counters calls
  | released row phase there was is_not not_limit counters calls =>
    rw [weight_there there, weight_advanced there calls, callsOf_advanced there calls]

/-- The counter is the number of counted calls, and within the limit. -/
def Exact (config : QuotaConfig) (s : Machine Connection) : Prop :=
  ∀ connection, (s.quotas.counters connection).toNat = callsOf counted s connection ∧
    (s.quotas.counters connection).toNat ≤ config.maxConcurrentPerConnection.toNat

theorem Exact.positive (exactly : Exact config s) {row : Call Connection}
    (there : s.calls[call]? = some row) (was : counted row.phase) :
    1 ≤ (s.quotas.counters row.connection).toNat := by
  rw [(exactly row.connection).1]
  exact countP_pos_iff.mpr ⟨row, mem_of_getElem? there, by simp [was]⟩

include effect in
/-- A step changes the counter as it changes its own call; nothing wraps. -/
theorem Effect.counter_change (exactly : Exact config s) (connection : Connection) :
    (after.quotas.counters connection).toNat + weight s call connection =
      (s.quotas.counters connection).toNat + weight after call connection := by
  cases effect with
  | idle same => rw [same]
  | rejected owner error new counters calls =>
    rw [new, weight_new, weight_appended calls, counters]
    simp [weightOf, counted]
  | started owner phase is_counted new free counters calls =>
    rw [new, weight_new, weight_appended calls, counters]
    by_cases own : owner = connection
    · subst own
      have bound := config.maxConcurrentPerConnection.toNat_lt
      have below : (s.quotas.counters owner).toNat < config.maxConcurrentPerConnection.toNat :=
        UInt64.lt_iff_toNat_lt.mp free
      have incremented : (s.quotas.counters owner + 1).toNat =
          (s.quotas.counters owner).toNat + 1 := by
        rw [UInt64.toNat_add, UInt64.toNat_one]
        omega
      simp [weightOf, is_counted, incremented]
    · simp [weightOf, own, Function.update_of_ne (Ne.symm own)]
  | moved row phase there was is_counted counters calls =>
    rw [weight_there there, weight_advanced there calls, counters]
    simp [weightOf, was, is_counted]
  | released row phase there was is_not not_limit counters calls =>
    rw [weight_there there, weight_advanced there calls, counters]
    by_cases own : row.connection = connection
    · subst own
      have positive := exactly.positive there was
      have decremented : (s.quotas.counters row.connection - 1).toNat =
          (s.quotas.counters row.connection).toNat - 1 :=
        UInt64.toNat_sub_of_le _ _ (UInt64.le_iff_toNat_le.mpr positive)
      rw [Function.update_self, decremented, weightOf, weightOf, if_pos ⟨rfl, was⟩,
        if_neg (by simp [is_not])]
      omega
    · simp [weightOf, own, Function.update_of_ne (Ne.symm own)]

include effect in
/-- Only the increment below the limit raises a counter. -/
theorem Effect.within (exactly : Exact config s) (connection : Connection) :
    (after.quotas.counters connection).toNat ≤ config.maxConcurrentPerConnection.toNat := by
  have change := effect.counter_change exactly connection
  have within := (exactly connection).2
  cases effect with
  | idle same => rwa [same]
  | rejected owner error new counters calls => rwa [counters]
  | started owner phase is_counted new free counters calls =>
    rw [new, weight_new, weight_appended calls] at change
    have below := UInt64.lt_iff_toNat_lt.mp free
    unfold weightOf at change
    split at change
    next own =>
      obtain ⟨rfl, _⟩ : owner = connection ∧ _ := own
      omega
    next => omega
  | moved row phase there was is_counted counters calls => rwa [counters]
  | released row phase there was is_not not_limit counters calls =>
    have nothing : weight after call connection = 0 := by
      rw [weight_advanced there calls]
      simp [weightOf, is_not]
    omega

theorem Exact.keeps (exactly : Exact config s) (effect : Effect config s after call) :
    Exact config after := by
  intro connection
  have counter := effect.counter_change exactly connection
  have calls := effect.callsOf_change connection
  have equal := (exactly connection).1
  exact ⟨by omega, effect.within exactly connection⟩

include effect in
/-- A step leaves every call but its own as it is. -/
theorem Effect.others {other : Nat} (different : other ≠ call) :
    after.calls[other]? = s.calls[other]? := by
  have appended {row : Call Connection} (new : call = s.calls.length) :
      (s.calls ++ [row])[other]? = s.calls[other]? := by
    rcases Nat.lt_or_gt_of_ne (new ▸ different) with old | later
    · exact getElem?_append_left old
    · rw [getElem?_eq_none (Nat.le_of_lt later), getElem?_eq_none (by
        rw [length_append, length_singleton]
        omega)]
  cases effect with
  | idle same => rw [same]
  | rejected owner error new counters calls
  | started owner phase is_counted new free counters calls =>
    rw [calls, appended new]
  | moved row phase there was is_counted counters calls
  | released row phase there was is_not not_limit counters calls =>
    rw [calls, advance, getElem?_modify_ne _ _ (Ne.symm different)]

end

/-- The state after the steps, from the start of the process. -/
def reached (config : QuotaConfig) (steps : List (QuotaStep Connection)) : Machine Connection :=
  run (Machine.step config) Machine.initial steps

theorem exact_reached (config : QuotaConfig) (steps : List (QuotaStep Connection)) :
    Exact config (reached config steps) := by
  refine run_keeps (fun s input exactly => exactly.keeps (step_effect config s input)) _ steps ?_
  intro connection
  exact ⟨rfl, Nat.zero_le _⟩

/-! ## What one call does to a counter -/

/-- The changes that the steps of one call make to the counter of a connection,
added up over a run. -/
def ownChange (config : QuotaConfig) (call : Nat) (connection : Connection) :
    Machine Connection → List (QuotaStep Connection) → Int
  | _, [] => 0
  | s, input :: rest =>
    let after := s.step config input
    (if s.caller input = call then
      ((after.quotas.counters connection).toNat : Int) - (s.quotas.counters connection).toNat
    else 0) + ownChange config call connection after rest

variable {s : Machine Connection}

theorem ownChange_eq (config : QuotaConfig) (call : Nat) (connection : Connection)
    (exactly : Exact config s) (steps : List (QuotaStep Connection)) :
    ownChange config call connection s steps + weight s call connection =
      weight (run (step config) s steps) call connection := by
  induction steps generalizing s with
  | nil => simp [ownChange]
  | cons input rest ih =>
    have effect := step_effect config s input
    have later := ih (exactly.keeps effect)
    have change := effect.counter_change exactly connection
    rw [ownChange, run_cons]
    split
    next own =>
      rw [own] at change
      omega
    next other =>
      have kept : weight (s.step config input) call connection = weight s call connection := by
        rw [weight, weight, effect.others (Ne.symm other)]
      omega

/-! ## Calls that the connection's limit rejects -/

/-- The call got past the connection's limit. -/
def Passed (s : Machine Connection) (call : Nat) : Prop :=
  ∃ row, s.calls[call]? = some row ∧ ∀ max, row.phase ≠ .rejected (.perConnection max)

theorem Passed.keeps {config : QuotaConfig} {after : Machine Connection} {call caller : Nat}
    (passed : Passed s call) (effect : Effect config s after caller) : Passed after call := by
  by_cases own : call = caller
  · subst own
    obtain ⟨row, there, not_rejected⟩ := passed
    have old : call < s.calls.length := (List.getElem?_eq_some_iff.mp there).1
    cases effect with
    | idle same =>
      rw [same]
      exact ⟨row, there, not_rejected⟩
    | rejected owner error new counters calls => exact absurd new (Nat.ne_of_lt old)
    | started owner phase is_counted new free counters calls =>
      exact absurd new (Nat.ne_of_lt old)
    | moved other phase there was is_counted counters calls =>
      refine ⟨{ other with phase := phase }, ?_, ?_⟩
      · rw [calls, advance, getElem?_modify_eq, there]
        rfl
      · rintro max rfl
        cases is_counted
    | released other phase there was is_not not_limit counters calls =>
      refine ⟨{ other with phase := phase }, ?_, not_limit⟩
      rw [calls, advance, getElem?_modify_eq, there]
      rfl
  · unfold Passed
    rw [effect.others own]
    exact passed

/-- A step that touches a bucket is one of a call that got past the limit. -/
theorem buckets_unchanged_or_passed (config : QuotaConfig) (s : Machine Connection)
    (input : QuotaStep Connection) :
    (s.step config input).quotas.perSessionBuckets = s.quotas.perSessionBuckets ∨
      Passed s (s.caller input) := by
  cases input with
  | start connection session =>
    left
    rw [step, start]
    split <;> rfl
  | enter | take =>
    rw [step, caller]
    split
    next there => exact .inr ⟨_, there, by simp⟩
    next => exact .inl rfl
  | undo | finish | drop =>
    left
    rw [step]
    split <;> rfl

/-- **The counters are exact in every interleaving.** A connection's counter is
the number of its live guards and of its calls in flight and never exceeds the
limit; the steps of a call that returned an error add up to no change of any
counter; and no step of a call that the connection's limit rejected changed a
bucket. -/
theorem quotas_counted_exactly (config : QuotaConfig) (steps : List (QuotaStep Connection)) :
    (∀ connection,
      ((reached config steps).quotas.counters connection).toNat =
          liveGuards (reached config steps) connection +
            callsInFlight (reached config steps) connection ∧
        ((reached config steps).quotas.counters connection).toNat ≤
          config.maxConcurrentPerConnection.toNat) ∧
      ∀ (call : Nat) row error, (reached config steps).calls[call]? = some row →
        row.phase = .rejected error →
        (∀ connection, ownChange config call connection Machine.initial steps = 0) ∧
          ∀ max, error = .perConnection max → ∀ before input after,
            steps = before ++ input :: after →
            (reached config before).caller input = call →
            (reached config (before ++ [input])).quotas.perSessionBuckets =
              (reached config before).quotas.perSessionBuckets := by
  have exactly := exact_reached config steps
  refine ⟨fun connection => ?_, ?_⟩
  · rw [← counted_eq]
    exact exactly connection
  · intro call row error there rejected
    constructor
    · intro connection
      have change := ownChange_eq config call connection (exact_reached config []) steps
      have nothing : weightOf row connection = 0 := by simp [weightOf, rejected, counted]
      have at_end : weight (reached config steps) call connection = 0 :=
        (weight_there there connection).trans nothing
      have at_start : weight (reached config []) call connection = 0 := rfl
      rw [at_start] at change
      exact (Int.add_zero _).symm.trans (change.trans (congrArg Int.ofNat at_end))
    · rintro max rfl before input after rfl own
      have next : reached config (before ++ [input]) = (reached config before).step config input :=
        run_append _ _ _ _
      rw [next]
      rcases buckets_unchanged_or_passed config (reached config before) input with same | passed
      · exact same
      · rw [own] at passed
        have at_end := @run_keeps _ _ _ (fun s => Passed s call)
          (fun s step still => still.keeps (step_effect config s step)) _ (input :: after) passed
        rw [reached, ← run_append] at at_end
        obtain ⟨_, found, not_rejected⟩ := at_end
        cases found.symm.trans there
        exact absurd rejected (not_rejected max)

end MidnightIndexer.Guarantees.SubscriptionQuotas
