import MidnightIndexer.Lib.Bytes
import MidnightIndexer.Source.ProtocolVersion

/-!
# The author of a block

chain-indexer/src/infra/subxt_node.rs:737-825. The author is derived from the
header's pre-runtime digests and an authority set. The supported runtimes encode
the Aura slot alike, as a `u64`; `decode_slot` ignores the bytes after it.
-/

namespace MidnightIndexer.Source

open Lib List Bytes

/-- The engine ids the source compares with; every other id is skipped. -/
inductive ConsensusEngine where
  | aura | babe | other
  deriving DecidableEq, Repr

inductive DigestItem where
  | preRuntime (engine : ConsensusEngine) (preDigest : List UInt8)
  | other
  deriving DecidableEq

inductive DigestError where
  | scaleDecode
  | invalidBabePreDigestTag (tag : Nat)
  deriving DecidableEq, Repr

def decodeSlot (slot : List UInt8) (version : NodeVersion) : Except DigestError Nat :=
  match version with
  | .V0_22 | .V1_0 | .V2_0 | .V2_1 =>
    match Bytes.takeLe 8 slot with
    | some (slot, _) => .ok slot
    | none => .error .scaleDecode

def decodeBabeAuthorityIndex (preDigest : List UInt8) : Except DigestError Nat :=
  match Bytes.takeLe 1 preDigest with
  | none => .error .scaleDecode
  | some (tag, rest) =>
    if ¬ (1 ≤ tag ∧ tag ≤ 3) then .error (.invalidBabePreDigestTag tag)
    else match Bytes.takeLe 4 rest with
      | some (index, _) => .ok index
      | none => .error .scaleDecode

/-! ## The decoders against the byte format -/

theorem decodeSlot_eq (slot : List UInt8) (version : NodeVersion) : decodeSlot slot version =
      match takeLe 8 slot with
      | some (slot, _) => .ok slot
      | none => .error .scaleDecode := by
  cases version <;> rfl

variable {version : NodeVersion} {logs : List DigestItem}

theorem decodeSlot_success {slot : List UInt8} {n : Nat} : decodeSlot slot version = .ok n ↔
      ∃ rest, n < 2 ^ 64 ∧ slot = leBytes 8 n ++ rest := by
  rw [decodeSlot_eq]
  constructor
  · intro decoded
    split at decoded
    next taken =>
      cases decoded
      exact ⟨_, takeLe_eq_some_iff.mp taken⟩
    next => cases decoded
  · rintro ⟨rest, encoded⟩
    rw [takeLe_eq_some_iff.mpr encoded]

theorem decodeSlot_fails {slot : List UInt8} :
    (∃ e, decodeSlot slot version = .error e) ↔ slot.length < 8 := by
  rw [decodeSlot_eq, ← takeLe_eq_none_iff]
  cases takeLe 8 slot <;> simp

/-- The tag is the first byte and the index the four bytes after it. -/
theorem decodeBabeAuthorityIndex_cons (tag : UInt8) (rest : List UInt8) :
    decodeBabeAuthorityIndex (tag :: rest) =
      if ¬ (1 ≤ tag.toNat ∧ tag.toNat ≤ 3) then .error (.invalidBabePreDigestTag tag.toNat)
      else match takeLe 4 rest with
        | some (index, _) => .ok index
        | none => .error .scaleDecode := by
  simp [decodeBabeAuthorityIndex, takeLe, leNat]

theorem decodeBabeAuthorityIndex_success {preDigest : List UInt8} {index : Nat} :
    decodeBabeAuthorityIndex preDigest = .ok index ↔
      ∃ tag rest, (1 ≤ tag.toNat ∧ tag.toNat ≤ 3) ∧ index < 2 ^ 32 ∧
        preDigest = tag :: (leBytes 4 index ++ rest) := by
  cases preDigest with
  | nil => simp [decodeBabeAuthorityIndex, takeLe]
  | cons tag body =>
    rw [decodeBabeAuthorityIndex_cons]
    constructor
    · intro decoded
      split at decoded
      next => cases decoded
      next known =>
        split at decoded
        next rest taken =>
          cases decoded
          obtain ⟨fits, rfl⟩ := takeLe_eq_some_iff.mp taken
          exact ⟨tag, rest, not_not.mp known, fits, rfl⟩
        next => cases decoded
    · rintro ⟨_, rest, known, fits, encoded⟩
      obtain ⟨rfl, body_eq⟩ := cons.inj encoded
      rw [if_neg (not_not.mpr known), takeLe_eq_some_iff.mpr ⟨fits, body_eq⟩]

theorem decodeBabeAuthorityIndex_fails {preDigest : List UInt8} :
    (∃ e, decodeBabeAuthorityIndex preDigest = .error e) ↔
      preDigest.length < 5 ∨ ∃ tag ∈ preDigest.head?, ¬ (1 ≤ tag.toNat ∧ tag.toNat ≤ 3) := by
  cases preDigest with
  | nil => simp [decodeBabeAuthorityIndex, takeLe]
  | cons tag body =>
    rw [decodeBabeAuthorityIndex_cons]
    have short : body.length < 4 ↔ (tag :: body).length < 5 := by
      rw [length_cons]
      omega
    split
    next unknown => exact ⟨fun _ => .inr ⟨tag, rfl, unknown⟩, fun _ => ⟨_, rfl⟩⟩
    next known =>
      rw [← short, ← takeLe_eq_none_iff]
      cases takeLe 4 body with
      | none => simp
      | some parts => simpa using known

variable {Author : Type}

/-- An index out of range is an unknown author, not an error. -/
def babeAuthor (preDigest : List UInt8) (authorities : List Author) :
    Except DigestError (Option Author) := do
  let index ← decodeBabeAuthorityIndex preDigest
  return authorities[index]?

def authorFromLog (authorities : List Author) (version : NodeVersion) (babeSupported : Bool) :
    DigestItem → Except DigestError (Option Author)
  | .preRuntime .aura preDigest => do
    let slot ← decodeSlot preDigest version
    return authorities[slot % authorities.length]?
  | .preRuntime .babe preDigest =>
    if babeSupported then babeAuthor preDigest authorities else .ok none
  | .preRuntime .other _ => .ok none
  | .other => .ok none

/-- The loop of `author_from_digest_logs`: the first log that yields an author. -/
def authorFromLogs (authorities : List Author) (version : NodeVersion) (babeSupported : Bool) :
    List DigestItem → Except DigestError (Option Author)
  | [] => .ok none
  | log :: logs =>
    match authorFromLog authorities version babeSupported log with
    | .error e => .error e
    | .ok (some author) => .ok (some author)
    | .ok none => authorFromLogs authorities version babeSupported logs

def authorFromDigestLogs (logs : List DigestItem) (authorities : List Author)
    (version : NodeVersion) (babeSupported : Bool) : Except DigestError (Option Author) :=
  if authorities.isEmpty then .ok none
  else authorFromLogs authorities version babeSupported logs

/-- The digest is well formed, if the source decodes it. -/
def DigestDecodes (version : NodeVersion) (babeSupported : Bool) : DigestItem → Prop
  | .preRuntime .aura preDigest => ∃ slot, decodeSlot preDigest version = .ok slot
  | .preRuntime .babe preDigest =>
    babeSupported → ∃ index, decodeBabeAuthorityIndex preDigest = .ok index
  | .preRuntime .other _ | .other => True

theorem authorFromLog_total {babeSupported : Bool} {log : DigestItem}
    (decodes : DigestDecodes version babeSupported log) (authorities : List Author) :
    ∃ author, authorFromLog authorities version babeSupported log = .ok author := by
  unfold DigestDecodes at decodes
  split at decodes
  next preDigest =>
    obtain ⟨slot, decoded⟩ := decodes
    exact ⟨authorities[slot % authorities.length]?, by rw [authorFromLog, decoded]; rfl⟩
  next preDigest =>
    rw [authorFromLog]
    split
    next supported =>
      obtain ⟨index, decoded⟩ := decodes supported
      exact ⟨authorities[index]?, by rw [babeAuthor, decoded]; rfl⟩
    next => exact ⟨none, rfl⟩
  next => exact ⟨none, rfl⟩
  next => exact ⟨none, rfl⟩

/-- Well-formed digests yield an author or none, whatever the authority set. -/
theorem authorFromDigestLogs_total {babeSupported : Bool}
    (decode : ∀ log ∈ logs, DigestDecodes version babeSupported log) (authorities : List Author) :
    ∃ author, authorFromDigestLogs logs authorities version babeSupported = .ok author := by
  unfold authorFromDigestLogs
  split
  next => exact ⟨none, rfl⟩
  next =>
    induction logs with
    | nil => exact ⟨none, rfl⟩
    | cons log rest ih =>
      obtain ⟨author, found⟩ := authorFromLog_total (decode log mem_cons_self) authorities
      rw [authorFromLogs, found]
      cases author with
      | some author => exact ⟨some author, rfl⟩
      | none => exact ih fun next member => decode next (mem_cons_of_mem log member)

section

variable {authorities : List Author} {version : NodeVersion} {babeSupported : Bool}

theorem authorFromLogs_none_iff : authorFromLogs authorities version babeSupported logs = .ok none ↔
      ∀ log ∈ logs, authorFromLog authorities version babeSupported log = .ok none := by
  induction logs with
  | nil => simp [authorFromLogs]
  | cons log rest ih =>
    rw [authorFromLogs, forall_mem_cons, ← ih]
    cases found : authorFromLog authorities version babeSupported log with
    | error e => simp
    | ok author => cases author <;> simp

/-- The loop ends with the first log that does not yield none. -/
theorem authorFromLogs_decided {result : Except DigestError (Option Author)}
    (decided : result ≠ .ok none) : authorFromLogs authorities version babeSupported logs = result ↔
      ∃ before log after, logs = before ++ log :: after ∧ (∀ earlier ∈ before,
          authorFromLog authorities version babeSupported earlier = .ok none) ∧
        authorFromLog authorities version babeSupported log = result := by
  constructor
  · intro found
    induction logs with
    | nil => exact absurd found.symm decided
    | cons log rest ih =>
      rw [authorFromLogs] at found
      split at found
      next e failed => exact ⟨[], log, rest, rfl, by simp, failed.trans found⟩
      next author yielded => exact ⟨[], log, rest, rfl, by simp, yielded.trans found⟩
      next skipped =>
        obtain ⟨before, last, after, rfl, none_before, here⟩ := ih found
        exact ⟨log :: before, last, after, rfl, forall_mem_cons.mpr ⟨skipped, none_before⟩, here⟩
  · rintro ⟨before, log, after, rfl, none_before, here⟩
    induction before with
    | nil =>
      rw [nil_append, authorFromLogs, here]
      cases result with
      | error e => rfl
      | ok author =>
        cases author with
        | none => exact absurd rfl decided
        | some author => rfl
    | cons earlier before ih =>
      obtain ⟨skipped, none_before⟩ := forall_mem_cons.mp none_before
      rw [cons_append, authorFromLogs, skipped]
      exact ih none_before

end

end MidnightIndexer.Source
