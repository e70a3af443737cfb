import Mathlib.Data.List.Forall2

/-!
# Inverting successful computations

A successful chain of fallible steps is taken apart one step at a time, without
unfolding the monad at each use.
-/

namespace MidnightIndexer.Lib

open List

universe u v w

variable {ε : Type u} {α β : Type v} {first : Except ε α} {next f : α → Except ε β} {x : α} {e : ε}
  {xs : List α} {ys : List β} {y : β} {position : Nat}

theorem bind_success {value : β} (success : (first >>= next) = .ok value) :
    ∃ x, first = .ok x ∧ next x = .ok value := by
  cases first with
  | error e => cases success
  | ok x => exact ⟨x, rfl, success⟩

theorem bind₂_success {γ : Type v} {second : α → β → Except ε γ} {value : γ}
    (success : (first >>= fun x => next x >>= second x) = .ok value) :
    ∃ x, first = .ok x ∧ ∃ y, next x = .ok y ∧ second x y = .ok value := by
  obtain ⟨x, before, success⟩ := bind_success success
  exact ⟨x, before, bind_success success⟩

theorem bind₃_success {γ δ : Type v} {second : α → β → Except ε γ} {third : α → β → γ → Except ε δ}
    {value : δ}
    (success : (first >>= fun x => next x >>= fun y => second x y >>= third x y) = .ok value) :
    ∃ x, first = .ok x ∧ ∃ y, next x = .ok y ∧ ∃ z, second x y = .ok z ∧
      third x y z = .ok value := by
  obtain ⟨x, before, success⟩ := bind_success success
  exact ⟨x, before, bind₂_success success⟩

theorem bind_total (before : first = .ok x) (after : ∃ value, next x = .ok value) :
    ∃ value, (first >>= next) = .ok value := by
  rw [before]
  exact after

theorem bind_ok {value : β} (before : first = .ok x) (after : next x = .ok value) :
    (first >>= next) = .ok value := by
  rw [before]
  exact after

theorem bind_ne_error (before : first ≠ .error e) (after : ∀ x, next x ≠ .error e) :
    (first >>= next) ≠ .error e := by
  cases first with
  | error cause =>
    intro same
    cases same
    exact before rfl
  | ok x => exact after x

/-- Two chains of steps stay related by a map when each step does. -/
theorem bind_commutes {α' β' : Type v} {first' : Except ε α'} {next' : α' → Except ε β'}
    {f : α → α'} {g : β → β'} (start : first' = first.map f)
    (later : ∀ x, next' (f x) = (next x).map g) : (first' >>= next') = (first >>= next).map g := by
  rw [start]
  cases first with
  | error e => rfl
  | ok x => exact later x

theorem bind_same {β' : Type v} {next' : α → Except ε β'} {g : β → β'}
    (later : ∀ x, next' x = (next x).map g) : (first >>= next') = (first >>= next).map g := by
  cases first with
  | error e => rfl
  | ok x => exact later x

/-- The rule for a fold that succeeds: what every step keeps of the state and the
elements before it holds of the last state and all elements. -/
theorem foldlM_keeps {σ : Type v} {f : σ → α → Except ε σ} (inv : σ → List α → Prop)
    (keep : ∀ s taken x next, inv s taken → f s x = .ok next → inv next (taken ++ [x]))
    {start last : σ} (initially : inv start []) (success : xs.foldlM f start = .ok last) :
    inv last xs := by
  suffices from_taken : ∀ taken, inv start taken → inv last (taken ++ xs) from
    from_taken [] initially
  clear initially
  induction xs generalizing start with
  | nil =>
    cases success
    intro taken holds
    rw [append_nil]
    exact holds
  | cons x rest ih =>
    rw [foldlM_cons] at success
    obtain ⟨next, step, success⟩ := bind_success success
    intro taken holds
    rw [append_cons]
    exact ih success _ (keep start taken x next holds step)

theorem foldlM_total {σ : Type v} {f : σ → α → Except ε σ}
    (each : ∀ s x, ∃ next, f s x = .ok next) (xs : List α) (start : σ) :
    ∃ last, xs.foldlM f start = .ok last := by
  induction xs generalizing start with
  | nil => exact ⟨start, rfl⟩
  | cons x rest ih =>
    obtain ⟨next, round⟩ := each start x
    rw [foldlM_cons]
    exact bind_total round (ih next)

/-- `ok_or`. -/
def okOr {ε : Type u} {α : Type v} (value : Option α) (e : ε) : Except ε α :=
  match value with
  | some x => .ok x
  | none => .error e

theorem okOr_success {value : Option α} (success : okOr value e = .ok x) : value = some x := by
  cases value with
  | none => cases success
  | some y =>
    cases success
    rfl

theorem mapError_map {ε' : Type u} (f : ε → ε') (g : α → β) (first : Except ε α) :
    (first.map g).mapError f = (first.mapError f).map g := by
  cases first <;> rfl

theorem mapError_success {ε' : Type u} {f : ε → ε'} {value : α}
    (success : first.mapError f = .ok value) : first = .ok value := by
  cases first with
  | error e => cases success
  | ok x =>
    cases success
    rfl

theorem map_success {f : α → β} {result : β} (success : first.map f = .ok result) :
    ∃ value, first = .ok value ∧ f value = result := by
  cases first with
  | error e => cases success
  | ok value =>
    cases success
    exact ⟨value, rfl, rfl⟩

theorem forall₂_left {α : Type u} {β : Type v} {r : α → β → Prop} {xs : List α} {ys : List β}
    (related : Forall₂ r xs ys) {x : α} (member : x ∈ xs) : ∃ y ∈ ys, r x y := by
  induction related with
  | nil => cases member
  | cons first _ ih =>
    rcases mem_cons.mp member with rfl | later
    · exact ⟨_, mem_cons_self, first⟩
    · obtain ⟨y, known, found⟩ := ih later
      exact ⟨y, mem_cons_of_mem _ known, found⟩

theorem forall₂_right {α : Type u} {β : Type v} {r : α → β → Prop} {xs : List α} {ys : List β}
    (related : Forall₂ r xs ys) {y : β} (member : y ∈ ys) : ∃ x ∈ xs, r x y :=
  forall₂_left related.flip member

variable (success : xs.mapM f = .ok ys)

include success in
theorem mapM_success : Forall₂ (fun x y => f x = .ok y) xs ys := by
  induction xs generalizing ys with
  | nil =>
    rw [mapM_nil] at success
    cases success
    exact .nil
  | cons x rest ih =>
    rw [mapM_cons] at success
    obtain ⟨y, first, success⟩ := bind_success success
    obtain ⟨later, tail, success⟩ := bind_success success
    cases success
    exact .cons first (ih tail)

/-- A traversal succeeds if every element does, and its results are related as theirs. -/
theorem mapM_related {γ : Type w} {before : α → γ → Prop} {after : β → γ → Prop}
    (each : ∀ x z, before x z → ∃ y, f x = .ok y ∧ after y z) {zs : List γ}
    (related : Forall₂ before xs zs) : ∃ ys, xs.mapM f = .ok ys ∧ Forall₂ after ys zs := by
  induction related with
  | nil => exact ⟨[], rfl, .nil⟩
  | cons first _ ih =>
    obtain ⟨y, success, here⟩ := each _ _ first
    obtain ⟨ys, rest, later⟩ := ih
    refine ⟨y :: ys, ?_, .cons here later⟩
    rw [mapM_cons, success, rest]
    rfl

theorem mapM_total (each : ∀ x ∈ xs, ∃ y, f x = .ok y) : ∃ ys, xs.mapM f = .ok ys := by
  induction xs with
  | nil => exact ⟨[], rfl⟩
  | cons x rest ih =>
    obtain ⟨y, first⟩ := each x mem_cons_self
    obtain ⟨ys, later⟩ := ih fun other member => each other (mem_cons_of_mem x member)
    refine ⟨y :: ys, ?_⟩
    rw [mapM_cons, first, later]
    rfl

include success in
theorem mapM_length : xs.length = ys.length :=
  (mapM_success success).length_eq

include success in
/-- What a function reads from the results is what another reads from the elements. -/
theorem mapM_map {γ : Type v} {g : α → γ} {h : β → γ} (same : ∀ x y, f x = .ok y → h y = g x) :
    ys.map h = xs.map g := by
  have related := mapM_success success
  clear success
  induction related with
  | nil => rfl
  | cons first _ ih => rw [map_cons, map_cons, same _ _ first, ih]

include success in
theorem mapM_getLast : (xs = [] ∧ ys = []) ∨
      ∃ x y, xs.getLast? = some x ∧ ys.getLast? = some y ∧ f x = .ok y := by
  have related := mapM_success success
  clear success
  induction related with
  | nil => exact .inl ⟨rfl, rfl⟩
  | @cons x y xs ys first _ ih =>
    right
    rcases ih with ⟨rfl, rfl⟩ | ⟨last, value, final, result, found⟩
    · exact ⟨x, y, rfl, rfl, first⟩
    · exact ⟨last, value, by simp [getLast?_cons, final], by simp [getLast?_cons, result], found⟩

theorem mapM_failure (failure : xs.mapM f = .error e) : ∃ x ∈ xs, f x = .error e := by
  induction xs with
  | nil => cases failure
  | cons x rest ih =>
    rw [mapM_cons] at failure
    cases first : f x with
    | error cause =>
      rw [first] at failure
      cases failure
      exact ⟨x, mem_cons_self, first⟩
    | ok y =>
      rw [first] at failure
      cases later : rest.mapM f with
      | ok ys =>
        rw [later] at failure
        cases failure
      | error cause =>
        rw [later] at failure
        cases failure
        obtain ⟨x, member, found⟩ := ih later
        exact ⟨x, mem_cons_of_mem _ member, found⟩

theorem mapM_ok (xs : List α) : xs.mapM (Except.ok : α → Except ε α) = .ok xs := by
  induction xs with
  | nil => rfl
  | cons x rest ih =>
    rw [mapM_cons, ih]
    rfl

theorem mapM_append_ok {xs' : List α} {ys' : List β} (front : xs.mapM f = .ok ys)
    (back : xs'.mapM f = .ok ys') : (xs ++ xs').mapM f = .ok (ys ++ ys') := by
  rw [mapM_append, front, back]
  rfl

include success in
theorem mapM_mem (member : y ∈ ys) : ∃ x ∈ xs, f x = .ok y :=
  forall₂_right (mapM_success success) member

include success in
theorem mapM_each (member : x ∈ xs) : ∃ y, f x = .ok y := by
  obtain ⟨y, _, found⟩ := forall₂_left (mapM_success success) member
  exact ⟨y, found⟩

theorem forall₂_at {α : Type u} {β : Type v} {r : α → β → Prop} {xs : List α} {ys : List β}
    (related : Forall₂ r xs ys) {x : α} (here : xs[position]? = some x) :
    ∃ y, ys[position]? = some y ∧ r x y := by
  induction related generalizing position with
  | nil => cases here
  | cons first _ ih =>
    cases position with
    | zero =>
      cases here
      exact ⟨_, rfl, first⟩
    | succ position => exact ih here

include success in
theorem mapM_at (here : xs[position]? = some x) : ∃ y, ys[position]? = some y ∧ f x = .ok y :=
  forall₂_at (mapM_success success) here

include success in
theorem mapM_source (here : ys[position]? = some y) : ∃ x, xs[position]? = some x ∧ f x = .ok y :=
  forall₂_at (Forall₂.flip (mapM_success success)) here

/-- A computation that succeeds exactly under a condition, and fails in one way. -/
def OkIff (e : ε) (first : Except ε α) (p : Prop) : Prop :=
  (p ∧ ∃ x, first = .ok x) ∨ (¬p ∧ first = .error e)

namespace OkIff

variable {p q : Prop}

theorem ok (decided : OkIff e first p) (met : p) : ∃ x, first = .ok x := by
  rcases decided with ⟨_, found⟩ | ⟨unmet, _⟩
  · exact found
  · exact absurd met unmet

theorem error (decided : OkIff e first p) (unmet : ¬p) : first = .error e := by
  rcases decided with ⟨met, _⟩ | ⟨_, failed⟩
  · exact absurd met unmet
  · exact failed

theorem pure (x : α) : OkIff e (.ok x) True := .inl ⟨trivial, x, rfl⟩

theorem congr (decided : OkIff e first p) (same : p ↔ q) : OkIff e first q := by
  rwa [OkIff, ← same]

theorem bind (decided : OkIff e first p) (later : ∀ x, first = .ok x → OkIff e (next x) q) :
    OkIff e (first >>= next) (p ∧ q) := by
  rcases decided with ⟨met, x, rfl⟩ | ⟨unmet, rfl⟩
  · rcases later x rfl with ⟨also, found⟩ | ⟨other, failed⟩
    · exact .inl ⟨⟨met, also⟩, found⟩
    · exact .inr ⟨fun both => other both.2, failed⟩
  · exact .inr ⟨fun both => unmet both.1, rfl⟩

theorem map (decided : OkIff e first p) (g : α → β) : OkIff e (first.map g) p := by
  rcases decided with ⟨met, x, rfl⟩ | ⟨unmet, rfl⟩
  · exact .inl ⟨met, g x, rfl⟩
  · exact .inr ⟨unmet, rfl⟩

theorem okOr (value : Option α) : OkIff e (okOr value e) value.isSome := by
  cases value with
  | none => exact .inr ⟨Bool.false_ne_true, rfl⟩
  | some x => exact .inl ⟨rfl, x, rfl⟩

theorem mapM {p : α → Prop} (each : ∀ x ∈ xs, OkIff e (f x) (p x)) :
    OkIff e (xs.mapM f) (∀ x ∈ xs, p x) := by
  induction xs with
  | nil => exact (pure []).congr (by simp)
  | cons x rest ih =>
    rw [mapM_cons, forall_mem_cons]
    refine (each x mem_cons_self).bind fun y _ => ?_
    refine ((ih fun z later => each z (mem_cons_of_mem x later)).bind fun ys _ =>
      pure (y :: ys)).congr (and_iff_left trivial)

end OkIff

end MidnightIndexer.Lib
