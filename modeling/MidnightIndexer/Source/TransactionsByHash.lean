import MidnightIndexer.Source.BridgeClaims

/-!
# Transactions by hash

`get_transactions_by_hash` of indexer-api/src/infra/storage/transaction.rs:259-388 with
`attach_bridge_claims` (54-98), `make_transaction` (963-980) and
`get_identifiers_for_transaction` (1000-1020), over the rows that
chain-indexer/src/infra/storage.rs:443-545 and 1113-1138 writes. Each backend has a
statement of its own. Postgres keeps the identifiers of a transaction in a column, SQLite in
the table `transaction_identifiers`, one row after the other.

Integer columns are read with checked conversions, which fail on a negative value. Byte
columns are read as they were written.
-/

namespace MidnightIndexer.Source.TransactionsByHash

open Lib ChainIndexer

/-- The tables, with their primary keys. -/
structure TransactionTables where
  blocks : List ChainIndexer.BlockRow
  transactions : List ChainIndexer.TransactionRow
  regularTransactions : List RegularTransactionRow
  bridgeClaims : List BridgeClaimRow
  blockIds : (blocks.map ChainIndexer.BlockRow.id).Nodup
  transactionIds : (transactions.map ChainIndexer.TransactionRow.id).Nodup
  regularIds : (regularTransactions.map RegularTransactionRow.id).Nodup

/-- Table `transaction_identifiers`. -/
structure IdentifierRow where
  id : Nat
  transactionId : Nat
  identifier : ByteVec
  deriving DecidableEq, Repr

/-- The identifiers of all regular transactions, as `save_identifiers` inserts them. -/
def identifierRows (regulars : List RegularTransactionRow) : List IdentifierRow :=
  let identifiers := regulars.flatMap fun row => row.identifiers.map (row.id, ·)
  (identifiers.zipIdx 1).map fun entry => ⟨entry.2, entry.1.1, entry.1.2⟩

/-! ## Transactions -/

structure RegularTransaction where
  id : Nat
  hash : ByteVec
  protocolVersion : ProtocolVersion
  raw : ByteVec
  blockHash : ByteVec
  transactionResult : TransactionResult
  identifiers : List ByteVec
  zswapMerkleTreeRoot : ByteVec
  zswapStartIndex : Nat
  zswapEndIndex : Nat
  dustCommitmentStartIndex : Nat
  dustCommitmentEndIndex : Nat
  dustGenerationStartIndex : Nat
  dustGenerationEndIndex : Nat
  paidFees : Nat
  estimatedFees : Nat
  bridgeClaim : Option BridgeClaim
  deriving DecidableEq

structure SystemTransaction where
  id : Nat
  hash : ByteVec
  protocolVersion : ProtocolVersion
  raw : ByteVec
  blockHash : ByteVec
  deriving DecidableEq

inductive Transaction where
  | regular (transaction : RegularTransaction)
  | system (transaction : SystemTransaction)
  deriving DecidableEq

def Transaction.id : Transaction → Nat
  | .regular transaction => transaction.id
  | .system transaction => transaction.id

/-! ## The statement -/

/-- A row of the union. The second part has no columns of `regular_transactions`. -/
structure UnionRow where
  transaction : ChainIndexer.TransactionRow
  blockHash : ByteVec
  regular : Option RegularTransactionRow
  deriving DecidableEq

def UnionRow.id (row : UnionRow) : Nat := row.transaction.id

/-- `transactions` joined with `blocks`, for a hash. -/
def inBlocks (tables : TransactionTables) (hash : ByteVec) :
    List (ChainIndexer.TransactionRow × ByteVec) :=
  (tables.transactions.filter fun row => row.hash = hash).flatMap fun row =>
    (tables.blocks.filter fun block => block.id = row.blockId).map fun block => (row, block.hash)

def regularPart (tables : TransactionTables) (hash : ByteVec) : List UnionRow :=
  (inBlocks tables hash).flatMap fun row =>
    (tables.regularTransactions.filter fun regular => regular.id = row.1.id).map fun regular =>
      ⟨row.1, row.2, some regular⟩

def systemPart (tables : TransactionTables) (hash : ByteVec) : List UnionRow :=
  ((inBlocks tables hash).filter fun row => row.1.variant = .system).map fun row =>
    ⟨row.1, row.2, none⟩

def unionAll (tables : TransactionTables) (hash : ByteVec) : List UnionRow :=
  regularPart tables hash ++ systemPart tables hash

/-! ## Decoding -/

/-- `u64::try_from` on a signed column. -/
def tryU64 (column : Int) : Except StorageError Nat :=
  if 0 ≤ column then .ok column.toNat else .error .decode

def regularFromRow (row : UnionRow) (protocolVersion : ProtocolVersion)
    (regular : RegularTransactionRow) (identifiers : List ByteVec) :
    Except StorageError RegularTransaction := do
  let zswapStartIndex ← tryU64 regular.zswapStartIndex
  let zswapEndIndex ← tryU64 regular.zswapEndIndex
  let dustCommitmentStartIndex ← tryU64 regular.dustCommitmentStartIndex
  let dustCommitmentEndIndex ← tryU64 regular.dustCommitmentEndIndex
  let dustGenerationStartIndex ← tryU64 regular.dustGenerationStartIndex
  let dustGenerationEndIndex ← tryU64 regular.dustGenerationEndIndex
  return {
    id := row.transaction.id
    hash := row.transaction.hash
    protocolVersion := protocolVersion
    raw := row.transaction.raw
    blockHash := row.blockHash
    transactionResult := regular.transactionResult
    identifiers := identifiers
    zswapMerkleTreeRoot := regular.zswapMerkleTreeRoot
    zswapStartIndex := zswapStartIndex
    zswapEndIndex := zswapEndIndex
    dustCommitmentStartIndex := dustCommitmentStartIndex
    dustCommitmentEndIndex := dustCommitmentEndIndex
    dustGenerationStartIndex := dustGenerationStartIndex
    dustGenerationEndIndex := dustGenerationEndIndex
    paidFees := regular.paidFees
    estimatedFees := regular.estimatedFees
    bridgeClaim := none }

/-- `make_transaction`; `identifiers` is what the row has in the field of that name. -/
def makeTransaction (identifiers : RegularTransactionRow → List ByteVec) (row : UnionRow) :
    Except StorageError Transaction := do
  let protocolVersion ← okOr (ProtocolVersion.tryFromI64 row.transaction.protocolVersion) .decode
  match row.transaction.variant with
  | .system =>
    return .system
      { id := row.transaction.id
        hash := row.transaction.hash
        protocolVersion := protocolVersion
        raw := row.transaction.raw
        blockHash := row.blockHash }
  | .regular =>
    let regular ← okOr row.regular .decode
    let transaction ← regularFromRow row protocolVersion regular (identifiers regular)
    return .regular transaction

def getIdentifiersForTransaction (rows : List IdentifierRow) (transactionId : Nat) :
    List ByteVec :=
  (Sql.orderBy IdentifierRow.id (rows.filter fun row =>
    row.transactionId = transactionId)).map IdentifierRow.identifier

def loadIdentifiers (rows : List IdentifierRow) : Transaction → Transaction
  | .regular transaction => .regular { transaction with
      identifiers := getIdentifiersForTransaction rows transaction.id }
  | .system transaction => .system transaction

/-- `attach_bridge_claims`; a later row for a transaction replaces an earlier one. -/
def attachBridgeClaim (claims : List BridgeClaimRow) : Transaction → Transaction
  | .regular transaction => .regular { transaction with
      bridgeClaim := (claims.filter fun row => row.transactionId = transaction.id).getLast?.map
        Storage.claimOfRow }
  | .system transaction => .system transaction

/-- `ORDER BY id DESC` for Postgres, `ORDER BY id` for SQLite. -/
def getTransactionsByHash (backend : Sql.Backend) (tables : TransactionTables) (hash : ByteVec) :
    Except StorageError (List Transaction) :=
  match backend with
  | .postgres => do
    let transactions ← (Sql.orderByDesc UnionRow.id (unionAll tables hash)).mapM
      (makeTransaction RegularTransactionRow.identifiers)
    return transactions.map (attachBridgeClaim tables.bridgeClaims)
  | .sqlite => do
    let transactions ← (Sql.orderBy UnionRow.id (unionAll tables hash)).mapM
      (makeTransaction fun _ => [])
    return (transactions.map (loadIdentifiers (identifierRows tables.regularTransactions))).map
      (attachBridgeClaim tables.bridgeClaims)

end MidnightIndexer.Source.TransactionsByHash
