import MidnightIndexer.Lib.Sql
import MidnightIndexer.Source.ApplyTransactions

/-!
# What the chain indexer stores

chain-indexer/src/infra/storage.rs:65-140, 203-245, 318-530 and 1251-1300. Each
block is saved in one database transaction. Row ids are serial: an insert takes
the number after the rows before it.

The columns of `blocks`, `transactions`, `regular_transactions` and the system
parameters are written out. The tables below a transaction or block (contract
actions and balances, UTXOs, ledger events, dust and bridge rows) are
`ChildTables`: any tables, saved to by any function of the tables, the ids and
the values the source passes.
-/

namespace MidnightIndexer.Source.ChainIndexer

open Lib

/-- `as u64` on a signed column. -/
def asU64 (column : Int) : UInt64 := UInt64.ofInt column

/-- A word is read back from its signed column as it was written. -/
theorem asU64_asI64 (word : UInt64) : asU64 (Sql.asI64 word.toNat) = word := by
  have bound := word.toNat_lt
  apply UInt64.toNat_inj.mp
  unfold asU64 Sql.asI64 Sql.toSigned UInt64.ofInt
  rw [Nat.mod_eq_of_lt bound, UInt64.toNat_ofNat']
  split <;> omega

inductive TransactionVariant where
  | regular | system
  deriving DecidableEq, Repr

structure BlockRow where
  id : Nat
  hash : ByteVec
  height : Int
  protocolVersion : Int
  parentHash : ByteVec
  author : Option ByteVec
  timestamp : Int
  zswapMerkleTreeRoot : ByteVec
  ledgerParameters : ByteVec
  ledgerStateKey : ByteVec
  zswapEndIndex : Int
  dustCommitmentEndIndex : Int
  dustGenerationEndIndex : Int
  dustCommitmentMerkleTreeRoot : ByteVec
  dustGenerationMerkleTreeRoot : ByteVec
  deriving DecidableEq, Repr

structure TransactionRow where
  id : Nat
  blockId : Nat
  variant : TransactionVariant
  hash : ByteVec
  protocolVersion : Int
  raw : ByteVec
  deriving DecidableEq, Repr

structure RegularTransactionRow where
  id : Nat
  transactionResult : TransactionResult
  zswapMerkleTreeRoot : ByteVec
  zswapStartIndex : Int
  zswapEndIndex : Int
  dustCommitmentStartIndex : Int
  dustCommitmentEndIndex : Int
  dustGenerationStartIndex : Int
  dustGenerationEndIndex : Int
  paidFees : Nat
  estimatedFees : Nat
  identifiers : List ByteVec
  deriving DecidableEq, Repr

/-- The statements of `save_regular_transaction` after its own row, of
`save_system_transaction`, and those for the events of a block. A bridge event
looks its transaction up. -/
structure ChildTables (crates : LedgerCrates) where
  Tables : Type
  empty : Tables
  saveRegularTransaction : Tables → (transactionId blockId : Nat) → RegularTransaction crates →
    Except Sql.Error Tables
  saveSystemTransaction : Tables → (transactionId : Nat) → SystemTransaction crates →
    Except Sql.Error Tables
  saveDustRegistrationEvents : Tables → (events : List ByteVec) → (blockId : Nat) →
    (blockTimestamp : Int) → Except Sql.Error Tables
  saveBridgeEvents : Tables → List TransactionRow → (events : List ByteVec) → (blockId : Nat) →
    Except Sql.Error Tables

structure DParameter where
  numPermissionedCandidates : UInt16
  numRegisteredCandidates : UInt16
  deriving DecidableEq, Repr

structure TermsAndConditions where
  hash : ByteVec
  url : String
  deriving DecidableEq, Repr

structure SystemParametersChange where
  blockHeight : UInt64
  blockHash : ByteVec
  timestamp : UInt64
  dParameter : Option DParameter
  termsAndConditions : Option TermsAndConditions
  deriving DecidableEq

/-- Table `system_parameters_d`. -/
structure DParameterRow where
  blockHeight : Int
  blockHash : ByteVec
  timestamp : Int
  numPermissionedCandidates : Int
  numRegisteredCandidates : Int
  deriving DecidableEq, Repr

/-- Table `system_parameters_terms_and_conditions`. -/
structure TermsRow where
  blockHeight : Int
  blockHash : ByteVec
  timestamp : Int
  hash : ByteVec
  url : String
  deriving DecidableEq, Repr

structure Storage {crates : LedgerCrates} (tables : ChildTables crates) where
  blocks : List BlockRow
  transactions : List TransactionRow
  regularTransactions : List RegularTransactionRow
  children : tables.Tables
  dParameters : List DParameterRow
  termsAndConditions : List TermsRow

/-- The domain `Block`, as it is saved. -/
structure Block where
  hash : ByteVec
  height : UInt64
  protocolVersion : ProtocolVersion
  parentHash : ByteVec
  author : Option ByteVec
  timestamp : UInt64
  zswapMerkleTreeRoot : ByteVec
  dustRegistrationEvents : List ByteVec
  bridgeEvents : List ByteVec
  ledgerParameters : ByteVec
  zswapEndIndex : Nat
  dustCommitmentEndIndex : Nat
  dustGenerationEndIndex : Nat
  dustCommitmentMerkleTreeRoot : ByteVec
  dustGenerationMerkleTreeRoot : ByteVec

inductive StorageError where
  | sql (error : Sql.Error)
  | decode
  deriving DecidableEq, Repr

namespace Storage

variable {crates : LedgerCrates} {tables : ChildTables crates}

def empty (tables : ChildTables crates) : Storage tables := ⟨[], [], [], tables.empty, [], []⟩

/-- The row of `ORDER BY height DESC LIMIT 1`. -/
def highestRow (storage : Storage tables) : Option BlockRow :=
  (Sql.orderByDesc BlockRow.height storage.blocks).head?

/-- `get_highest_block`, with the columns that a start uses. -/
def getHighestBlock (storage : Storage tables) :
    Except StorageError (Option (ProtocolVersion × ByteVec)) :=
  match storage.highestRow with
  | none => .ok none
  | some row => do
    let version ← okOr (ProtocolVersion.tryFromI64 row.protocolVersion) .decode
    return some (version, row.ledgerStateKey)

def getHighestBlockTimestamp (storage : Storage tables) : Option UInt64 :=
  storage.highestRow.map fun row => asU64 row.timestamp

def getLatestDParameter (storage : Storage tables) : Option DParameter :=
  (Sql.orderByDesc DParameterRow.blockHeight storage.dParameters).head?.map fun row =>
    ⟨UInt16.ofInt row.numPermissionedCandidates, UInt16.ofInt row.numRegisteredCandidates⟩

/-- The stored hash must be 32 bytes long. -/
def getLatestTermsAndConditions (storage : Storage tables) :
    Except StorageError (Option TermsAndConditions) :=
  match (Sql.orderByDesc TermsRow.blockHeight storage.termsAndConditions).head? with
  | none => .ok none
  | some row => if row.hash.length = 32 then .ok (some ⟨row.hash, row.url⟩) else .error .decode

def transactionRow (id blockId : Nat) : Transaction crates → TransactionRow
  | .regular t => ⟨id, blockId, .regular, t.hash, t.protocolVersion.intoI64, t.raw⟩
  | .system t => ⟨id, blockId, .system, t.hash, t.protocolVersion.intoI64, t.raw⟩

def regularRow (id : Nat) (t : RegularTransaction crates) : RegularTransactionRow :=
  { id := id
    transactionResult := t.transactionResult
    zswapMerkleTreeRoot := t.zswapMerkleTreeRoot
    zswapStartIndex := Sql.asI64 t.zswapStartIndex
    zswapEndIndex := Sql.asI64 t.zswapEndIndex
    dustCommitmentStartIndex := Sql.asI64 t.dustCommitmentStartIndex
    dustCommitmentEndIndex := Sql.asI64 t.dustCommitmentEndIndex
    dustGenerationStartIndex := Sql.asI64 t.dustGenerationStartIndex
    dustGenerationEndIndex := Sql.asI64 t.dustGenerationEndIndex
    paidFees := t.paidFees
    estimatedFees := t.estimatedFees
    identifiers := t.identifiers }

/-- The rows after the one in `transactions`. -/
def saveDetails (storage : Storage tables) (id blockId : Nat) :
    Transaction crates → Except StorageError (Storage tables)
  | .regular t => do
    let children ← (tables.saveRegularTransaction storage.children id blockId t).mapError .sql
    return { storage with
      regularTransactions := storage.regularTransactions ++ [regularRow id t]
      children := children }
  | .system t => do
    let children ← (tables.saveSystemTransaction storage.children id t).mapError .sql
    return { storage with children := children }

def saveTransaction (blockId : Nat) (storage : Storage tables) (transaction : Transaction crates) :
    Except StorageError (Storage tables) :=
  let id := storage.transactions.length + 1
  { storage with transactions := storage.transactions ++ [transactionRow id blockId transaction] }
    |>.saveDetails id blockId transaction

def saveTransactions (storage : Storage tables) (blockId : Nat)
    (transactions : List (Transaction crates)) : Except StorageError (Storage tables) :=
  transactions.foldlM (saveTransaction blockId) storage

def saveSystemParametersChange (storage : Storage tables) (change : SystemParametersChange) :
    Storage tables :=
  { storage with
    dParameters := storage.dParameters ++ change.dParameter.toList.map fun d =>
      ⟨Sql.asI64 change.blockHeight.toNat, change.blockHash, Sql.asI64 change.timestamp.toNat,
        d.numPermissionedCandidates.toNat, d.numRegisteredCandidates.toNat⟩
    termsAndConditions := storage.termsAndConditions ++ change.termsAndConditions.toList.map
      fun t => ⟨Sql.asI64 change.blockHeight.toNat, change.blockHash,
        Sql.asI64 change.timestamp.toNat, t.hash, t.url⟩ }

def blockRow (id : Nat) (block : Block) (ledgerStateKey : ByteVec) : BlockRow :=
  { id := id
    hash := block.hash
    height := Sql.asI64 block.height.toNat
    protocolVersion := block.protocolVersion.intoI64
    parentHash := block.parentHash
    author := block.author
    timestamp := Sql.asI64 block.timestamp.toNat
    zswapMerkleTreeRoot := block.zswapMerkleTreeRoot
    ledgerParameters := block.ledgerParameters
    ledgerStateKey := ledgerStateKey
    zswapEndIndex := Sql.asI64 block.zswapEndIndex
    dustCommitmentEndIndex := Sql.asI64 block.dustCommitmentEndIndex
    dustGenerationEndIndex := Sql.asI64 block.dustGenerationEndIndex
    dustCommitmentMerkleTreeRoot := block.dustCommitmentMerkleTreeRoot
    dustGenerationMerkleTreeRoot := block.dustGenerationMerkleTreeRoot }

/-- `blocks` has unique hashes and heights. -/
def insertBlock (storage : Storage tables) (row : BlockRow) :
    Except StorageError (Storage tables) :=
  if storage.blocks.any fun old => old.hash == row.hash || old.height == row.height then
    .error (.sql .uniqueViolation)
  else .ok { storage with blocks := storage.blocks ++ [row] }

/-- `save_block`: the storage with everything inserted, or an error and nothing
inserted. -/
def saveBlock (storage : Storage tables) (block : Block) (transactions : List (Transaction crates))
    (ledgerStateKey : ByteVec) (change : Option SystemParametersChange) :
    Except StorageError (Storage tables) := do
  let id := storage.blocks.length + 1
  let inserted ← storage.insertBlock (blockRow id block ledgerStateKey)
  let saved ← inserted.saveTransactions id transactions
  let registered ← (tables.saveDustRegistrationEvents saved.children block.dustRegistrationEvents
    id (Sql.asI64 block.timestamp.toNat)).mapError .sql
  let bridged ← (tables.saveBridgeEvents registered saved.transactions block.bridgeEvents
    id).mapError .sql
  let complete := { saved with children := bridged }
  return change.elim complete complete.saveSystemParametersChange

/-! ## The highest row -/

variable {storage after : Storage tables} {transactions : List (Transaction crates)}

theorem insertBlock_success {row : BlockRow} (success : storage.insertBlock row = .ok after) :
    after = { storage with blocks := storage.blocks ++ [row] } := by
  unfold insertBlock at success
  split at success
  · cases success
  · cases success
    rfl

/-- A transaction changes neither the blocks nor the parameters. -/
theorem saveTransaction_frame {blockId : Nat} {transaction : Transaction crates}
    (success : saveTransaction blockId storage transaction = .ok after) :
    after.blocks = storage.blocks ∧ after.dParameters = storage.dParameters ∧
      after.termsAndConditions = storage.termsAndConditions := by
  cases transaction with
  | regular t | system t =>
    obtain ⟨_, _, success⟩ := bind_success success
    cases success
    exact ⟨rfl, rfl, rfl⟩

theorem saveTransactions_frame {blockId : Nat}
    (success : storage.saveTransactions blockId transactions = .ok after) :
    after.blocks = storage.blocks ∧ after.dParameters = storage.dParameters ∧
      after.termsAndConditions = storage.termsAndConditions := by
  refine foldlM_keeps (fun current _ => current.blocks = storage.blocks ∧
    current.dParameters = storage.dParameters ∧
      current.termsAndConditions = storage.termsAndConditions) ?_ ⟨rfl, rfl, rfl⟩ success
  intro current taken t next same saved
  rwa [(saveTransaction_frame saved).1, (saveTransaction_frame saved).2.1,
    (saveTransaction_frame saved).2.2]

theorem saveBlock_success {block : Block} {key : ByteVec} {change : Option SystemParametersChange}
    (success : storage.saveBlock block transactions key change = .ok after) :
    ∃ saved registered bridged, saveTransactions { storage with
        blocks := storage.blocks ++ [blockRow (storage.blocks.length + 1) block key] }
        (storage.blocks.length + 1) transactions = .ok saved ∧
      tables.saveDustRegistrationEvents saved.children block.dustRegistrationEvents
        (storage.blocks.length + 1) (Sql.asI64 block.timestamp.toNat) = .ok registered ∧
      tables.saveBridgeEvents registered saved.transactions block.bridgeEvents
        (storage.blocks.length + 1) = .ok bridged ∧
      after = change.elim { saved with children := bridged }
        (saveSystemParametersChange { saved with children := bridged }) := by
  unfold saveBlock at success
  obtain ⟨inserted, insert, saved, save, success⟩ := bind₂_success success
  obtain ⟨registered, register, bridged, bridge, success⟩ := bind₂_success success
  cases success
  rw [insertBlock_success insert] at save
  exact ⟨saved, registered, bridged, save, mapError_success register, mapError_success bridge, rfl⟩

/-- Saving a block adds its row to `blocks` and changes no other row there. -/
theorem saveBlock_blocks {block : Block} {key : ByteVec} {change : Option SystemParametersChange}
    (success : storage.saveBlock block transactions key change = .ok after) :
    after.blocks = storage.blocks ++ [blockRow (storage.blocks.length + 1) block key] := by
  obtain ⟨saved, _, _, save, _, _, rfl⟩ := saveBlock_success success
  cases change <;> exact (saveTransactions_frame save).1

theorem highestRow_append {rows : List BlockRow} {row : BlockRow}
    (shape : storage.blocks = rows ++ [row])
    (increasing : (rows ++ [row]).Pairwise fun low high => low.height < high.height) :
    storage.highestRow = some row := by
  rw [highestRow, shape, Sql.orderByDesc_head_of_increasing increasing, List.getLast?_concat]

end Storage

/-! ## Rows without the author -/

def Block.withoutAuthor (block : Block) : Block := { block with author := none }

def BlockRow.withoutAuthor (row : BlockRow) : BlockRow := { row with author := none }

namespace Storage

variable {crates : LedgerCrates} {tables : ChildTables crates}

def withoutAuthors (storage : Storage tables) : Storage tables :=
  { storage with blocks := storage.blocks.map BlockRow.withoutAuthor }

variable (storage : Storage tables)

include storage

theorem saveTransaction_withoutAuthors (blockId : Nat) (transaction : Transaction crates) :
    saveTransaction blockId storage.withoutAuthors transaction =
      (saveTransaction blockId storage transaction).map withoutAuthors := by
  cases transaction with
  | regular | system =>
    exact bind_same fun _ => rfl

theorem saveTransactions_withoutAuthors (blockId : Nat) (transactions : List (Transaction crates)) :
    storage.withoutAuthors.saveTransactions blockId transactions =
      (storage.saveTransactions blockId transactions).map withoutAuthors := by
  unfold saveTransactions
  induction transactions generalizing storage with
  | nil => rfl
  | cons transaction rest ih =>
    rw [List.foldlM_cons, List.foldlM_cons]
    exact bind_commutes (saveTransaction_withoutAuthors storage blockId transaction) ih

theorem insertBlock_withoutAuthors (row : BlockRow) :
    storage.withoutAuthors.insertBlock row.withoutAuthor =
      (storage.insertBlock row).map withoutAuthors := by
  have same : (storage.withoutAuthors.blocks.any fun old =>
      old.hash == row.withoutAuthor.hash || old.height == row.withoutAuthor.height) =
      storage.blocks.any fun old => old.hash == row.hash || old.height == row.height :=
    List.any_map
  unfold insertBlock
  rw [same]
  split
  · rfl
  · simp [Except.map, withoutAuthors]

theorem saveBlock_withoutAuthors (block : Block) (transactions : List (Transaction crates))
    (key : ByteVec) (change : Option SystemParametersChange) :
    storage.withoutAuthors.saveBlock block.withoutAuthor transactions key change =
      (storage.saveBlock block transactions key change).map withoutAuthors := by
  have ids : storage.withoutAuthors.blocks.length = storage.blocks.length := List.length_map _
  have row : blockRow (storage.blocks.length + 1) block.withoutAuthor key =
      (blockRow (storage.blocks.length + 1) block key).withoutAuthor := rfl
  unfold saveBlock
  dsimp only
  rw [ids, row]
  apply bind_commutes (insertBlock_withoutAuthors storage _)
  intro inserted
  apply bind_commutes (saveTransactions_withoutAuthors inserted _ transactions)
  intro saved
  apply bind_same
  intro registered
  apply bind_same
  intro bridged
  cases change <;> rfl

end Storage

end MidnightIndexer.Source.ChainIndexer
