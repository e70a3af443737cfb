import MidnightIndexer.Source.BlockStorage

/-!
# Reading the system parameters

`get_d_parameter_at` and `get_terms_and_conditions_at` of
indexer-api/src/infra/storage/system_parameters.rs:25-71 over the two logs that
chain-indexer/src/infra/storage.rs:1252-1301 writes, with the rows of
indexer-api/src/domain/system_parameters.rs:14-42, and the field `system_parameters` of a
block, indexer-api/src/infra/api/v4/block.rs:119-145.

A row is decoded with checked conversions of its signed columns; a hash column must hold
32 bytes.
-/

namespace MidnightIndexer.Source.IndexerApi.SystemParameters

open Lib
open ChainIndexer (ByteVec)

/-- `try_from` of a signed column to an unsigned type. -/
def tryUnsigned (bits : Nat) (column : Int) : Option Nat :=
  if 0 ≤ column ∧ column < 2 ^ bits then some column.toNat else none

/-- A column of a 32-byte array. -/
def tryHash (column : ByteVec) : Option ByteVec := if column.length = 32 then some column else none

structure DParameter where
  blockHeight : UInt32
  blockHash : ByteVec
  timestamp : UInt64
  numPermissionedCandidates : UInt16
  numRegisteredCandidates : UInt16
  deriving DecidableEq, Repr

structure TermsAndConditions where
  blockHeight : UInt32
  blockHash : ByteVec
  timestamp : UInt64
  hash : ByteVec
  url : String
  deriving DecidableEq, Repr

def DParameter.fromRow (row : ChainIndexer.DParameterRow) : Option DParameter := do
  let height ← tryUnsigned 32 row.blockHeight
  let blockHash ← tryHash row.blockHash
  let timestamp ← tryUnsigned 64 row.timestamp
  let permissioned ← tryUnsigned 16 row.numPermissionedCandidates
  let registered ← tryUnsigned 16 row.numRegisteredCandidates
  return ⟨.ofNat height, blockHash, .ofNat timestamp, .ofNat permissioned, .ofNat registered⟩

def TermsAndConditions.fromRow (row : ChainIndexer.TermsRow) : Option TermsAndConditions := do
  let height ← tryUnsigned 32 row.blockHeight
  let blockHash ← tryHash row.blockHash
  let timestamp ← tryUnsigned 64 row.timestamp
  let hash ← tryHash row.hash
  return ⟨.ofNat height, blockHash, .ofNat timestamp, hash, row.url⟩

/-- `WHERE block_height <= $1 ORDER BY block_height DESC LIMIT 1`, decoded. -/
def latestAt {ρ α : Type} (height : ρ → Int) (fromRow : ρ → Option α) (rows : List ρ)
    (blockHeight : UInt32) : Except ChainIndexer.StorageError (Option α) :=
  match (Sql.orderByDesc height
    (rows.filter fun row => height row ≤ blockHeight.toNat)).head? with
  | none => .ok none
  | some row => (okOr (fromRow row) .decode).map some

def getDParameterAt (rows : List ChainIndexer.DParameterRow) (blockHeight : UInt32) :
    Except ChainIndexer.StorageError (Option DParameter) :=
  latestAt ChainIndexer.DParameterRow.blockHeight DParameter.fromRow rows blockHeight

def getTermsAndConditionsAt (rows : List ChainIndexer.TermsRow) (blockHeight : UInt32) :
    Except ChainIndexer.StorageError (Option TermsAndConditions) :=
  latestAt ChainIndexer.TermsRow.blockHeight TermsAndConditions.fromRow rows blockHeight

/-- The values of a decoded row, without the block they came with. -/
def DParameter.value (row : DParameter) : ChainIndexer.DParameter :=
  ⟨row.numPermissionedCandidates, row.numRegisteredCandidates⟩

def TermsAndConditions.value (row : TermsAndConditions) : ChainIndexer.TermsAndConditions :=
  ⟨row.hash, row.url⟩

/-- The field `systemParameters` of a block. Without a D-parameter it reports one with no
candidates. -/
def systemParameters (dRows : List ChainIndexer.DParameterRow)
    (termsRows : List ChainIndexer.TermsRow) (height : UInt32) :
    Except ChainIndexer.StorageError
      (ChainIndexer.DParameter × Option ChainIndexer.TermsAndConditions) := do
  let dParameter ← getDParameterAt dRows height
  let terms ← getTermsAndConditionsAt termsRows height
  return ((dParameter.map DParameter.value).getD ⟨0, 0⟩, terms.map TermsAndConditions.value)

/-- The read of a log whose heights increase and whose selected rows can be decoded. -/
theorem latestAt_of_increasing {ρ α ν : Type} {height : ρ → Int} {fromRow : ρ → Option α}
    {value : α → ν} {stored : ρ → ν} {rows : List ρ} {blockHeight : UInt32}
    (increasing : rows.Pairwise fun low high => height low < height high)
    (decodes : ∀ row ∈ rows, height row ≤ blockHeight.toNat →
      (fromRow row).map value = some (stored row)) :
    (latestAt height fromRow rows blockHeight).map (Option.map value) =
      .ok ((rows.filter fun row => height row ≤ blockHeight.toNat).getLast?.map stored) := by
  unfold latestAt
  rw [Sql.orderByDesc_head_of_increasing (increasing.filter _)]
  cases last : (rows.filter fun row => height row ≤ blockHeight.toNat).getLast? with
  | none => rfl
  | some row =>
    have selected := List.mem_filter.mp (List.mem_of_getLast? last)
    have decoded := decodes row selected.1 (of_decide_eq_true selected.2)
    obtain ⟨read, isRead, same⟩ := Option.map_eq_some_iff.mp decoded
    dsimp only
    rw [isRead, Option.map_some, ← same]
    rfl

end MidnightIndexer.Source.IndexerApi.SystemParameters

namespace MidnightIndexer.Source.ChainIndexer.Storage

open Lib
variable {crates : LedgerCrates} {tables : ChildTables crates}

/-- Both logs of changes. -/
def parameterLogs (storage : Storage tables) : List DParameterRow × List TermsRow :=
  (storage.dParameters, storage.termsAndConditions)

/-- Of a saved block only the change reaches the logs. -/
theorem saveBlock_parameterLogs {storage after : Storage tables} {block : Block}
    {transactions : List (Transaction crates)} {key : ByteVec}
    {change : Option SystemParametersChange}
    (success : storage.saveBlock block transactions key change = .ok after) : after.parameterLogs =
      (change.elim storage storage.saveSystemParametersChange).parameterLogs := by
  obtain ⟨saved, _, _, save, _, _, rfl⟩ := saveBlock_success success
  obtain ⟨_, dKept, termsKept⟩ := saveTransactions_frame save
  cases change with
  | none => exact Prod.ext dKept termsKept
  | some change => exact Prod.ext (congrArg (· ++ _) dKept) (congrArg (· ++ _) termsKept)

end MidnightIndexer.Source.ChainIndexer.Storage
