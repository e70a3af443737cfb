import MidnightIndexer.Lib.Outcome
import MidnightIndexer.Lib.Paging
import MidnightIndexer.Lib.TryStream

/-!
# Reading pages with queries that can fail

The loop of `Lib/Paging` as a stream: a query can end it with an error, and a page
whose last row says so is the last one. The rows of a query are decoded, and one that
does not decode fails its page.
-/

namespace MidnightIndexer.Lib.Paging

variable {κ ε ρ : Type}

def yieldAll (rows : List ρ) : TryStream ε ρ Unit := ⟨rows, .ok ()⟩

/-- At most the given number of queries; `unfinished` stands for a stream that would
go on. -/
def tryPages (fetch : κ → Except ε (List ρ)) (advance : ρ → κ) (stop : ρ → Bool) (unfinished : ε) :
    Nat → κ → TryStream ε ρ Unit
  | 0, _ => .fail unfinished
  | queries + 1, cursor => do
    let rows ← .lift (fetch cursor)
    match rows.getLast? with
    | none => return ()
    | some last => do
      yieldAll rows
      if stop last then return () else tryPages fetch advance stop unfinished queries (advance last)

variable {fetch : κ → Except ε (List ρ)} {advance : ρ → κ} {stop : ρ → Bool} {unfinished : ε}
  {queries : Nat} {cursor : κ}

theorem yieldAll_bind {α : Type} (rows : List ρ) (next : Unit → TryStream ε ρ α) :
    (yieldAll rows >>= next) = ⟨rows ++ (next ()).items, (next ()).outcome⟩ := rfl

section

variable {σ : Type} (raw : κ → List σ) (decode : σ → Except ε ρ) (move : σ → κ)
  (same : ∀ cursor, fetch cursor = (raw cursor).mapM decode)
  (moved : ∀ x row, decode x = .ok row → advance row = move x)

include same moved

/-- A stream that has completed has read the pages, and all their rows decode. -/
theorem tryPages_ok (ends : ∀ cursor x row, (raw cursor).getLast? = some x → decode x = .ok row →
      stop row = true → raw (move x) = [])
    (completed : (tryPages fetch advance stop unfinished queries cursor).outcome = .ok ()) :
    ∃ taken, Delivers raw move cursor taken ∧
      taken.mapM decode = .ok (tryPages fetch advance stop unfinished queries cursor).items := by
  induction queries generalizing cursor with
  | zero => cases completed
  | succ queries ih =>
    rw [tryPages] at completed ⊢
    cases page : fetch cursor with
    | error e =>
      rw [page] at completed
      cases completed
    | ok rows =>
      rw [page, TryStream.lift_ok_bind] at completed
      rw [TryStream.lift_ok_bind]
      have decoded := (same cursor).symm.trans page
      rcases mapM_getLast decoded with ⟨empty, nothing⟩ | ⟨x, row, final, last, value⟩
      · rw [nothing]
        exact ⟨[], (delivers_of_empty empty).mpr rfl, rfl⟩
      · rw [last] at completed ⊢
        dsimp only at completed ⊢
        rw [yieldAll_bind] at completed ⊢
        by_cases stopped : stop row = true
        · rw [if_pos stopped]
          refine ⟨raw cursor ++ [], (delivers_of_page final).mpr ⟨[], rfl, ?_⟩, ?_⟩
          · exact (delivers_of_empty (ends cursor x row final value stopped)).mpr rfl
          · exact mapM_append_ok decoded rfl
        · rw [if_neg stopped] at completed ⊢
          rw [moved x row value] at completed ⊢
          obtain ⟨taken, delivers, rest⟩ := ih completed
          exact ⟨raw cursor ++ taken, (delivers_of_page final).mpr ⟨taken, rfl, delivers⟩,
            mapM_append_ok decoded rest⟩

/-- A stream whose pages come to an end completes or ends with the error of a query. -/
theorem tryPages_ends (ended : (pages raw move queries cursor).2 = true) :
    (tryPages fetch advance stop unfinished queries cursor).outcome = .ok () ∨
      ∃ c e, fetch c = .error e ∧
        (tryPages fetch advance stop unfinished queries cursor).outcome = .error e := by
  induction queries generalizing cursor with
  | zero => cases ended
  | succ queries ih =>
    rw [tryPages]
    cases page : fetch cursor with
    | error e => exact .inr ⟨cursor, e, page, rfl⟩
    | ok rows =>
      rw [TryStream.lift_ok_bind]
      rcases mapM_getLast ((same cursor).symm.trans page) with
        ⟨_, nothing⟩ | ⟨x, row, final, last, value⟩
      · rw [nothing]
        exact .inl rfl
      · simp only [pages, final] at ended
        rw [last]
        dsimp only
        rw [yieldAll_bind, moved x row value]
        split
        · exact .inl rfl
        · exact ih ended

end

end MidnightIndexer.Lib.Paging
