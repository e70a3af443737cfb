import MidnightIndexer.Lib.Outcome
import MidnightIndexer.Source.BlockAuthor

/-!
# The author that the digest logs name

`author_from_digest_logs` against the format of the pre-runtime digests: an Aura
digest begins with the slot, a BABE digest with a tag from 1 to 3 and the
authority index. The first log that names an author decides, unless a digest of
a recognised engine that is too short or has another tag stands before it.
-/

namespace MidnightIndexer.Guarantees.DigestAuthor

open Lib Lib.Bytes Source

variable {Author : Type}

/-- The log is a pre-runtime digest of a recognised engine and names the author. -/
def Yields (authorities : List Author) (babeSupported : Bool) (author : Author) :
    DigestItem → Prop
  | .preRuntime .aura preDigest =>
    ∃ slot rest, slot < 2 ^ 64 ∧ preDigest = leBytes 8 slot ++ rest ∧
      authorities[slot % authorities.length]? = some author
  | .preRuntime .babe preDigest =>
    babeSupported = true ∧ ∃ tag index rest, (1 ≤ tag.toNat ∧ tag.toNat ≤ 3) ∧ index < 2 ^ 32 ∧
      preDigest = tag :: (leBytes 4 index ++ rest) ∧ authorities[index]? = some author
  | .preRuntime .other _ | .other => False

/-- The log is a pre-runtime digest of a recognised engine without the bytes
that the engine puts there. -/
def Malformed (babeSupported : Bool) : DigestItem → Prop
  | .preRuntime .aura preDigest => preDigest.length < 8
  | .preRuntime .babe preDigest =>
    babeSupported = true ∧
      (preDigest.length < 5 ∨ ∃ tag ∈ preDigest.head?, ¬ (1 ≤ tag.toNat ∧ tag.toNat ≤ 3))
  | .preRuntime .other _ | .other => False

section

variable {authorities : List Author} {version : NodeVersion} {babeSupported : Bool}
  {log : DigestItem}

theorem authorFromLog_some_iff {author : Author} :
    authorFromLog authorities version babeSupported log = .ok (some author) ↔
      Yields authorities babeSupported author log := by
  match log with
  | .preRuntime .aura preDigest =>
    rw [authorFromLog, Yields]
    constructor
    · intro yielded
      obtain ⟨slot, decoded, found⟩ := bind_success yielded
      obtain ⟨rest, fits, encoded⟩ := decodeSlot_success.mp decoded
      exact ⟨slot, rest, fits, encoded, Except.ok.inj found⟩
    · rintro ⟨slot, rest, fits, encoded, found⟩
      rw [decodeSlot_success.mpr ⟨rest, fits, encoded⟩, ← found]
      rfl
  | .preRuntime .babe preDigest =>
    rw [authorFromLog, Yields]
    cases babeSupported with
    | false => simp
    | true =>
      rw [if_pos rfl, babeAuthor]
      constructor
      · intro yielded
        obtain ⟨index, decoded, found⟩ := bind_success yielded
        obtain ⟨tag, rest, known, fits, encoded⟩ := decodeBabeAuthorityIndex_success.mp decoded
        exact ⟨rfl, tag, index, rest, known, fits, encoded, Except.ok.inj found⟩
      · rintro ⟨-, tag, index, rest, known, fits, encoded, found⟩
        rw [decodeBabeAuthorityIndex_success.mpr ⟨tag, rest, known, fits, encoded⟩, ← found]
        rfl
  | .preRuntime .other _ => simp [authorFromLog, Yields]
  | .other => simp [authorFromLog, Yields]

theorem authorFromLog_error_iff :
    (∃ e, authorFromLog authorities version babeSupported log = .error e) ↔
      Malformed babeSupported log := by
  match log with
  | .preRuntime .aura preDigest =>
    rw [authorFromLog, Malformed, ← @decodeSlot_fails version preDigest]
    cases decodeSlot preDigest version <;> simp [bind, Except.bind, pure, Except.pure]
  | .preRuntime .babe preDigest =>
    rw [authorFromLog, Malformed, ← decodeBabeAuthorityIndex_fails, babeAuthor]
    cases babeSupported with
    | false => simp
    | true =>
      cases decodeBabeAuthorityIndex preDigest <;> simp [bind, Except.bind, pure, Except.pure]
  | .preRuntime .other _ => simp [authorFromLog, Malformed]
  | .other => simp [authorFromLog, Malformed]

theorem authorFromLog_none_iff : authorFromLog authorities version babeSupported log = .ok none ↔
      (∀ author, ¬ Yields authorities babeSupported author log) ∧
        ¬ Malformed babeSupported log := by
  rw [← @authorFromLog_error_iff Author authorities version]
  simp only [← @authorFromLog_some_iff Author authorities version]
  cases authorFromLog authorities version babeSupported log with
  | error e => simp
  | ok author => cases author <;> simp

/-- Of the malformed digests that no yielding log precedes, the first. -/
theorem malformed_first {logs before after : List DigestItem}
    (at_log : logs = before ++ log :: after) (malformed : Malformed babeSupported log)
    (silent : ∀ earlier ∈ before, ∀ author, ¬ Yields authorities babeSupported author earlier) :
    ∃ before log after, logs = before ++ log :: after ∧
      (∀ earlier ∈ before, (∀ author, ¬ Yields authorities babeSupported author earlier) ∧
        ¬ Malformed babeSupported earlier) ∧
      Malformed babeSupported log := by
  induction before generalizing logs with
  | nil => exact ⟨[], log, after, at_log, by simp, malformed⟩
  | cons head before ih =>
    obtain ⟨head_silent, silent⟩ := List.forall_mem_cons.mp silent
    by_cases head_malformed : Malformed babeSupported head
    · exact ⟨[], head, before ++ log :: after, at_log, by simp, head_malformed⟩
    · obtain ⟨front, first, rest, split, none_before, here⟩ := ih rfl silent
      exact ⟨head :: front, first, rest, by rw [at_log, List.cons_append, split]; rfl,
        List.forall_mem_cons.mpr ⟨⟨head_silent, head_malformed⟩, none_before⟩, here⟩

end

/-- **The first log that yields an author decides.** A malformed digest fails
the block only where no log before it yields one, and without authorities no
digest is looked at. -/
theorem author_from_first_yielding_log (logs : List DigestItem) (authorities : List Author)
    (nonempty : authorities ≠ []) (version : NodeVersion) (babeSupported : Bool) :
    (∀ author, authorFromDigestLogs logs authorities version babeSupported = .ok (some author) ↔
      ∃ before log after, logs = before ++ log :: after ∧
        (∀ earlier ∈ before, (∀ other, ¬ Yields authorities babeSupported other earlier) ∧
          ¬ Malformed babeSupported earlier) ∧
        Yields authorities babeSupported author log) ∧
      (authorFromDigestLogs logs authorities version babeSupported = .ok none ↔
        ∀ log ∈ logs, (∀ author, ¬ Yields authorities babeSupported author log) ∧
          ¬ Malformed babeSupported log) ∧
      ((∃ e, authorFromDigestLogs logs authorities version babeSupported = .error e) ↔
        ∃ before log after, logs = before ++ log :: after ∧
          (∀ earlier ∈ before, ∀ author, ¬ Yields authorities babeSupported author earlier) ∧
          Malformed babeSupported log) ∧
      authorFromDigestLogs logs ([] : List Author) version babeSupported = .ok none := by
  have looked : authorFromDigestLogs logs authorities version babeSupported =
      authorFromLogs authorities version babeSupported logs := by
    rw [authorFromDigestLogs, if_neg (by simpa using nonempty)]
  rw [looked]
  refine ⟨fun author => ?_, ?_, ?_, rfl⟩
  · rw [authorFromLogs_decided (by simp)]
    simp only [authorFromLog_none_iff, authorFromLog_some_iff]
  · rw [authorFromLogs_none_iff]
    simp only [authorFromLog_none_iff]
  · constructor
    · rintro ⟨e, failed⟩
      obtain ⟨before, log, after, at_log, none_before, here⟩ :=
        (authorFromLogs_decided (by simp)).mp failed
      exact ⟨before, log, after, at_log,
        fun earlier member => (authorFromLog_none_iff.mp (none_before earlier member)).1,
        authorFromLog_error_iff.mp ⟨e, here⟩⟩
    · rintro ⟨before, log, after, at_log, silent, malformed⟩
      obtain ⟨front, first, rest, split, none_before, here⟩ :=
        malformed_first at_log malformed silent
      obtain ⟨e, failed⟩ := (@authorFromLog_error_iff Author authorities version _ _).mpr here
      exact ⟨e, (authorFromLogs_decided (by simp)).mpr ⟨front, first, rest, split,
        fun earlier member => authorFromLog_none_iff.mpr (none_before earlier member), failed⟩⟩

/-- An index out of range is passed over, and the digest after the yielding log
is not read. -/
def sampleLogs : List DigestItem :=
  [.other, .preRuntime .babe [2, 7, 0, 0, 0], .preRuntime .aura [5, 0, 0, 0, 0, 0, 0, 0],
    .preRuntime .aura []]

theorem author_from_sample_logs :
    authorFromDigestLogs sampleLogs [10, 20] .V2_1 true = .ok (some 20) ∧
      ∃ before log after, sampleLogs = before ++ log :: after ∧
        (∀ earlier ∈ before, (∀ other, ¬ Yields [10, 20] true other earlier) ∧
          ¬ Malformed true earlier) ∧
        Yields [10, 20] true 20 log :=
  ⟨by decide,
    ((author_from_first_yielding_log sampleLogs [10, 20] (by decide) .V2_1 true).1 20).mp
      (by decide)⟩

end MidnightIndexer.Guarantees.DigestAuthor
