import Mathlib.Algebra.Order.Ring.Int

/-!
# Protocol, node and ledger versions

indexer-common/src/domain/protocol_version.rs. A protocol version is the
runtime's spec version restricted to the supported ranges. The source enum tags
the number with the range it was accepted in, and only its conversions build
one, so here the tag carries the range.
-/

namespace MidnightIndexer.Source

inductive NodeVersion where
  | V0_22 | V1_0 | V2_0 | V2_1
  deriving DecidableEq, Repr

inductive LedgerVersion where
  | V8 | V9
  deriving DecidableEq, Repr

def LedgerVersion.oldest : LedgerVersion := .V8

/-- First spec version of the thousand that belongs to a node version. -/
def NodeVersion.base : NodeVersion → Nat
  | .V0_22 => 22000
  | .V1_0 => 1000000
  | .V2_0 => 2000000
  | .V2_1 => 2001000

structure ProtocolVersion where
  nodeVersion : NodeVersion
  number : Nat
  supported : nodeVersion.base ≤ number ∧ number < nodeVersion.base + 1000
  deriving DecidableEq

namespace ProtocolVersion

def first (node : NodeVersion) : ProtocolVersion :=
  ⟨node, node.base, Nat.le_refl _, Nat.lt_add_of_pos_right (Nat.succ_pos 999)⟩

def ledgerVersion (version : ProtocolVersion) : LedgerVersion :=
  match version.nodeVersion with
  | .V0_22 => .V8
  | .V1_0 => .V8
  | .V2_0 => .V9
  | .V2_1 => .V9

/-- `TryFrom<u32>`; `none` is `ProtocolVersionError::Unsupported`. -/
def tryFromU32 (version : Nat) : Option ProtocolVersion :=
  if h : 22000 ≤ version ∧ version < 23000 then some ⟨.V0_22, version, h⟩
  else if h : 1000000 ≤ version ∧ version < 1001000 then some ⟨.V1_0, version, h⟩
  else if h : 2000000 ≤ version ∧ version < 2001000 then some ⟨.V2_0, version, h⟩
  else if h : 2001000 ≤ version ∧ version < 2002000 then some ⟨.V2_1, version, h⟩
  else none

/-- `TryFrom<i64>`, the decoder of the `protocol_version` columns. -/
def tryFromI64 (version : Int) : Option ProtocolVersion :=
  if 0 ≤ version ∧ version < 2 ^ 32 then tryFromU32 version.toNat else none

def intoI64 (version : ProtocolVersion) : Int := version.number

theorem tryFromU32_number (version : ProtocolVersion) :
    tryFromU32 version.number = some version := by
  obtain ⟨node, number, supported⟩ := version
  cases node <;> simp only [NodeVersion.base] at supported <;> dsimp only [tryFromU32]
  · rw [dif_pos supported]
  · rw [dif_neg (by omega), dif_pos supported]
  · rw [dif_neg (by omega), dif_neg (by omega), dif_pos supported]
  · rw [dif_neg (by omega), dif_neg (by omega), dif_neg (by omega), dif_pos supported]

/-- A stored protocol version is read back as it was written. -/
theorem tryFromI64_intoI64 (version : ProtocolVersion) :
    tryFromI64 version.intoI64 = some version := by
  have bound : version.number < 2002000 := by
    obtain ⟨node, number, supported⟩ := version
    cases node <;> simp only [NodeVersion.base] at supported ⊢ <;> omega
  unfold tryFromI64 intoI64
  rw [if_pos (by omega), Int.toNat_natCast]
  exact tryFromU32_number version

end ProtocolVersion

end MidnightIndexer.Source
