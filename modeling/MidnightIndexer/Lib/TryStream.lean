/-!
# Fallible streams

A stream yields items and then either completes with a value or ends with an
error; what it has yielded before the error stays yielded. Sequencing two parts
appends their items.
-/

namespace MidnightIndexer.Lib

open List

structure TryStream (ε ι α : Type) where
  items : List ι
  outcome : Except ε α

namespace TryStream

variable {ε ι α β γ : Type}

@[inline] def pure (value : α) : TryStream ε ι α := ⟨[], .ok value⟩

@[inline] def bind (first : TryStream ε ι α) (next : α → TryStream ε ι β) : TryStream ε ι β :=
  match first.outcome with
  | .ok value => ⟨first.items ++ (next value).items, (next value).outcome⟩
  | .error e => ⟨first.items, .error e⟩

instance : Monad (TryStream ε ι) where
  pure := pure
  bind := bind

def yield (item : ι) : TryStream ε ι Unit := ⟨[item], .ok ()⟩

/-- The `?` operator. -/
def lift (result : Except ε α) : TryStream ε ι α := ⟨[], result⟩

def fail (e : ε) : TryStream ε ι α := ⟨[], .error e⟩

@[simp] theorem lift_ok_bind (value : α) (next : α → TryStream ε ι β) :
    (lift (.ok value) >>= next) = next value := rfl

theorem bind_assoc (first : TryStream ε ι α) (second : α → TryStream ε ι β)
    (third : β → TryStream ε ι γ) :
    (first >>= second >>= third) = (first >>= fun value => second value >>= third) := by
  obtain ⟨items, outcome⟩ := first
  cases outcome with
  | error e => rfl
  | ok value =>
    change bind (bind ⟨items, .ok value⟩ second) third =
      bind ⟨items, .ok value⟩ fun value => bind (second value) third
    simp only [bind]
    cases (second value).outcome with
    | error e => rfl
    | ok next => simp only [append_assoc]

theorem bind_pure (stream : TryStream ε ι α) : (stream >>= Pure.pure) = stream := by
  obtain ⟨items, outcome⟩ := stream
  cases outcome with
  | error e => rfl
  | ok value =>
    change (⟨items ++ [], .ok value⟩ : TryStream ε ι α) = _
    rw [append_nil]

instance : LawfulMonad (TryStream ε ι) :=
  LawfulMonad.mk' _ (fun stream => bind_pure stream) (fun _ _ => rfl) bind_assoc

variable {first : TryStream ε ι α} {next : α → TryStream ε ι β}

theorem bind_of_ok {value : α} (done : first.outcome = .ok value) (next : α → TryStream ε ι β) :
    (first >>= next) = ⟨first.items ++ (next value).items, (next value).outcome⟩ := by
  change bind first next = _
  rw [bind, done]

theorem bind_of_error {e : ε} (failed : first.outcome = .error e) (next : α → TryStream ε ι β) :
    (first >>= next) = ⟨first.items, .error e⟩ := by
  change bind first next = _
  rw [bind, failed]

theorem bind_completed {result : β} (done : (first >>= next).outcome = .ok result) :
    ∃ value, first.outcome = .ok value ∧ (next value).outcome = .ok result ∧
      (first >>= next).items = first.items ++ (next value).items := by
  cases outcome : first.outcome with
  | error e =>
    simp [bind_of_error outcome] at done
  | ok value =>
    rw [bind_of_ok outcome] at done ⊢
    exact ⟨value, rfl, done, rfl⟩

theorem bind_ne_error {e : ε} (before : first.outcome ≠ .error e)
    (after : ∀ value, (next value).outcome ≠ .error e) : (first >>= next).outcome ≠ .error e := by
  cases outcome : first.outcome with
  | error cause =>
    rw [bind_of_error outcome]
    intro same
    cases same
    exact before outcome
  | ok value =>
    rw [bind_of_ok outcome]
    exact after value

theorem forall_items_bind {p : ι → Prop} (before : ∀ item ∈ first.items, p item)
    (after : ∀ value, ∀ item ∈ (next value).items, p item) :
    ∀ item ∈ (first >>= next).items, p item := by
  cases outcome : first.outcome with
  | error cause =>
    rw [bind_of_error outcome]
    exact before
  | ok value =>
    rw [bind_of_ok outcome]
    exact forall_mem_append.mpr ⟨before, after value⟩

theorem forall_items_lift {result : Except ε α} {p : ι → Prop} :
    ∀ item ∈ (lift result : TryStream ε ι α).items, p item :=
  fun _ member => absurd member not_mem_nil

theorem items_prefix_bind (first : TryStream ε ι α) (next : α → TryStream ε ι β) :
    first.items <+: (first >>= next).items := by
  change first.items <+: (bind first next).items
  unfold bind
  split
  · exact prefix_append _ _
  · exact prefix_rfl

end TryStream

end MidnightIndexer.Lib
