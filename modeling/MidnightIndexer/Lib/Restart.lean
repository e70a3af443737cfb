import MidnightIndexer.Lib.Outcome
import MidnightIndexer.Lib.Run

/-!
# Services that stop and start again

A service keeps a store and, while it is up, a process in memory. A life starts
a process from the store and feeds it inputs until they end or a step fails; a
failed step leaves the store as it was. If the process a start rebuilds is
always the one that was lost, then how the inputs are divided into lives makes
no difference to what is stored or to what any step sees.

Where the store is only compared with what was saved to it, lives may end
anywhere, also by a failure; the saved steps are then kept in a log.
-/

namespace MidnightIndexer.Lib

universe u v w x y

structure Service (ε : Type u) (σ : Type v) (π : Type w) (β : Type x) where
  start : σ → Except ε π
  step : π → σ → β → Except ε (π × σ)

namespace Service

variable {ε : Type u} {σ : Type v} {π : Type w} {β : Type x}

/-- What a life leaves behind: the store, the process before each step with the
step's input, and the error that ended it. -/
structure History (ε : Type u) (σ : Type v) (π : Type w) (β : Type x) where
  store : σ
  steps : List (π × β)
  failure : Option ε

def History.after (later : History ε σ π β) (earlier : List (π × β)) : History ε σ π β :=
  { later with steps := earlier ++ later.steps }

variable (service : Service ε σ π β)

/-- Feed the inputs to a process. -/
def serve : π → σ → List β → History ε σ π β
  | _, store, [] => ⟨store, [], none⟩
  | process, store, input :: rest =>
    match service.step process store input with
    | .error e => ⟨store, [(process, input)], some e⟩
    | .ok next => (serve next.1 next.2 rest).after [(process, input)]

def live (store : σ) (inputs : List β) : History ε σ π β :=
  match service.start store with
  | .error e => ⟨store, [], some e⟩
  | .ok process => service.serve process store inputs

/-- Go on from the store a history left, unless it failed. -/
def History.andThen (first : History ε σ π β) (next : σ → History ε σ π β) : History ε σ π β :=
  match first.failure with
  | some _ => first
  | none => (next first.store).after first.steps

/-- One life after another, up to the first that fails. -/
def lives : σ → List (List β) → History ε σ π β
  | store, [] => ⟨store, [], none⟩
  | store, inputs :: rest => (service.live store inputs).andThen fun left => lives left rest

variable {service}

theorem History.after_andThen (first : History ε σ π β) (steps : List (π × β))
    (next : σ → History ε σ π β) :
    (first.after steps).andThen next = (first.andThen next).after steps := by
  obtain ⟨store, taken, failure⟩ := first
  cases failure <;> simp [History.after, History.andThen]

section

-- `Fits` says which inputs a store can still meet.
variable {Fits : σ → List β → Prop}
  (resumes : ∀ process store input rest next, Fits store (input :: rest) →
    service.start store = .ok process → service.step process store input = .ok next →
    service.start next.2 = .ok next.1 ∧ Fits next.2 rest)

include resumes

/-- A process that serves a first stretch of the inputs leaves the store from
which a start rebuilds it. -/
theorem serve_andThen (inputs later : List β) {next : σ → History ε σ π β}
    (continues : ∀ process store, Fits store later → service.start store = .ok process →
      next store = service.serve process store later)
    (process : π) (store : σ) (fits : Fits store (inputs ++ later))
    (started : service.start store = .ok process) :
    (service.serve process store inputs).andThen next =
      service.serve process store (inputs ++ later) := by
  induction inputs generalizing process store with
  | nil => exact continues process store fits started
  | cons input rest ih =>
    rw [List.cons_append, serve, serve]
    cases stepped : service.step process store input with
    | error e => rfl
    | ok after =>
      obtain ⟨restarted, fitsRest⟩ := resumes process store input _ after fits started stepped
      dsimp only
      rw [History.after_andThen, ih after.1 after.2 fitsRest restarted]

/-- However the inputs are divided into lives, they are served as by one
process. -/
theorem lives_eq_serve (segments : List (List β)) (process : π) (store : σ)
    (fits : Fits store segments.flatten) (started : service.start store = .ok process) :
    service.lives store segments = service.serve process store segments.flatten := by
  induction segments generalizing process store with
  | nil => rfl
  | cons inputs later ih =>
    rw [lives, live, started, List.flatten_cons]
    exact serve_andThen resumes inputs later.flatten ih process store fits started

end

section

variable {view : σ → σ} {look : β → β}

/-- A history with part of the stores and inputs hidden. -/
def History.hide (view : σ → σ) (look : β → β) (history : History ε σ π β) : History ε σ π β :=
  ⟨view history.store, history.steps.map (Prod.map id look), history.failure⟩

/-- What one step neither reads nor lets through to the rest is hidden from a
whole run. -/
theorem serve_hide (service : Service ε σ π β)
    (hidden : ∀ process store input, service.step process (view store) (look input) =
      (service.step process store input).map (Prod.map id view))
    (process : π) (store : σ) (inputs : List β) :
    service.serve process (view store) (inputs.map look) =
      (service.serve process store inputs).hide view look := by
  induction inputs generalizing process store with
  | nil => rfl
  | cons input rest ih =>
    rw [List.map_cons, serve, serve, hidden]
    cases service.step process store input with
    | error e => rfl
    | ok next =>
      change (service.serve next.1 (view next.2) (rest.map look)).after _ = _
      rw [ih]
      rfl

end

section

variable {α : Type y}

/-- Starts, inputs and stops in any order. -/
inductive Move (β : Type x) where
  | start
  | input (value : β)
  | stop

/-- A service with the process that is up and a record of the saved steps. -/
structure Logged (σ : Type v) (π : Type w) (α : Type y) where
  store : σ
  process : Option π
  log : List α

/-- A failed start or step takes the process down and saves nothing. -/
def logStep (service : Service ε σ π β) (record : π → β → List α) (s : Logged σ π α) :
    Move β → Logged σ π α
  | .start => { s with process := (service.start s.store).toOption }
  | .stop => { s with process := none }
  | .input value =>
    match s.process with
    | none => s
    | some process =>
      match service.step process s.store value with
      | .error _ => { s with process := none }
      | .ok next => ⟨next.2, some next.1, s.log ++ record process value⟩

variable {inv : σ → List α → Prop}

/-- What every saved step that meets the guard keeps of the store and the log holds along
every guarded run. -/
theorem run_log_invariant {record : π → β → List α} {ok : Logged σ π α → Move β → Prop}
    (keep : ∀ process s value next, inv s.store s.log → ok s (.input value) →
      service.step process s.store value = .ok next → inv next.2 (s.log ++ record process value))
    (s : Logged σ π α) (moves : List (Move β)) (initially : inv s.store s.log)
    (guarded : Guarded (service.logStep record) ok s moves) :
    inv (run (service.logStep record) s moves).store (run (service.logStep record) s moves).log := by
  let kept : Logged σ π α → Prop := fun s => inv s.store s.log
  suffices keeps : ∀ s move, kept s → ok s move → kept (service.logStep record s move) from
    run_invariant keeps s moves initially guarded
  intro s move holds met
  cases move with
  | start | stop => exact holds
  | input value =>
    unfold logStep
    dsimp only
    cases s.process with
    | none => exact holds
    | some process =>
      dsimp only
      cases stepped : service.step process s.store value with
      | error e => exact holds
      | ok next => exact keep process s value next holds met stepped

/-- What every saved step keeps of the store and the log holds along every run. -/
theorem run_log_keeps {record : π → β → List α}
    (keep : ∀ process store value next log, inv store log →
      service.step process store value = .ok next → inv next.2 (log ++ record process value))
    (s : Logged σ π α) (moves : List (Move β)) (initially : inv s.store s.log) :
    inv (run (service.logStep record) s moves).store (run (service.logStep record) s moves).log :=
  run_log_invariant
    (fun process s value next holds _ stepped => keep process s.store value next s.log holds stepped)
    s moves initially (Guarded.of_forall (fun _ _ => trivial) s moves)

end

end Service

end MidnightIndexer.Lib
