import MidnightIndexer.Lib.Run
import MidnightIndexer.Lib.Sql
import MidnightIndexer.Lib.Table
import MidnightIndexer.Source.Relevance

/-!
# Wallet tables, `connect_wallet` and `index_wallet`

wallet-indexer/src/application.rs:207-351, wallet-indexer/src/infra/storage.rs,
indexer-api/src/infra/storage/wallet.rs:24-73 and
indexer-api/src/infra/api/v4/mutation.rs:49-60,106-111.

A failing operation drops its database transaction, so it has no effect on the
tables. Ids and indices are `u64` in the services and `BIGINT` columns in the
database; every value written to such a column has come from one or has passed
`i64::try_from`, so columns are naturals and only the bound parameters of a
query are cast (`Sql.asI64`, `Sql.asI32`).
-/

namespace MidnightIndexer.Source

open Lib

abbrev Uuid := BitVec 128
abbrev SessionId := BitVec 256

/-- The columns of `regular_transactions` that are read here. -/
structure RegularRow where
  zswapStartIndex : Nat
  zswapEndIndex : Nat
  deriving DecidableEq, Repr

/-- Row of `transactions`; `regular` is the row of `regular_transactions` with
the same id, which exists exactly for the variant `'Regular'`. -/
structure TransactionRow where
  id : Nat
  protocolVersion : ProtocolVersion
  raw : List UInt8
  regular : Option RegularRow
  deriving DecidableEq

def TransactionRow.isRegular (row : TransactionRow) : Bool := row.regular.isSome

/-- Row of `wallets`. The viewing key stands for its two columns, the unique
hash and the ciphertext. -/
structure WalletRow where
  id : Uuid
  viewingKey : ViewingKey
  wantedStartIndex : Nat
  firstIndexedTransactionId : Nat
  lastIndexedTransactionId : Nat
  lastActive : Int
  sessionId : Option SessionId
  deriving DecidableEq

structure RelevantRow where
  walletId : Uuid
  transactionId : Nat
  deriving DecidableEq

structure WalletDb where
  transactions : List TransactionRow
  wallets : List WalletRow
  relevantTransactions : List RelevantRow
  deriving DecidableEq

namespace WalletDb

def empty : WalletDb := ⟨[], [], []⟩

def walletByKey (db : WalletDb) (key : ViewingKey) : Option WalletRow :=
  Table.lookup WalletRow.viewingKey key db.wallets

def walletById (db : WalletDb) (id : Uuid) : Option WalletRow :=
  Table.lookup WalletRow.id id db.wallets

end WalletDb

/-- `ConnectOptions::start_index` as the mutation reads it; `none` is the
client error "startIndex must not be negative". -/
def connectStartIndex (startIndex : Option Int) : Option (Option Nat) :=
  match startIndex with
  | none => some none
  | some i => if 0 ≤ i then some (some i.toNat) else none

/-- Row a first connect inserts: `VALUES ($1, $2, $3, $4, $4, $4, $5, $6)`. -/
def newWallet (id : Uuid) (key : ViewingKey) (start : Nat) (now : Int) (session : SessionId) :
    WalletRow where
  id := id
  viewingKey := key
  wantedStartIndex := start
  firstIndexedTransactionId := start
  lastIndexedTransactionId := start
  lastActive := now
  sessionId := some session

/-- Assignment of the `ON CONFLICT (viewing_key_hash) DO UPDATE` arm. -/
def reconnect (start : Nat) (now : Int) (session : SessionId) (wallet : WalletRow) : WalletRow :=
  { wallet with
    lastActive := now
    sessionId := some session
    wantedStartIndex :=
      if wallet.wantedStartIndex ≤ start then wallet.wantedStartIndex else start }

/-- The upsert of `connect_wallet`. The id and the session id are drawn by the
caller; both columns are unique. -/
def connectWallet (id : Uuid) (key : ViewingKey) (startIndex : Option Nat) (now : Int)
    (session : SessionId) (db : WalletDb) : Except Sql.Error WalletDb :=
  let start := startIndex.getD 0
  if 2 ^ 63 ≤ start then .error .encode
  else if db.wallets.any (fun w => w.sessionId = some session ∧ w.viewingKey ≠ key) then
    .error .uniqueViolation
  else match db.walletByKey key with
    | some _ =>
      .ok { db with
        wallets := Table.update WalletRow.viewingKey key (reconnect start now session) db.wallets }
    | none =>
      if db.wallets.any (fun w => w.id = id) then .error .uniqueViolation
      else .ok { db with wallets := db.wallets ++ [newWallet id key start now session] }

/-- `get_transactions`: regular transactions at or above the cast start. -/
def getTransactions (backend : Sql.Backend) (start : Nat) (batch : NonZeroUsize) (db : WalletDb) :
    Except Sql.Error (List TransactionRow) :=
  Sql.limit backend (Sql.asI32 batch.val) (Sql.orderBy TransactionRow.id
    (db.transactions.filter (fun t => Sql.asI64 start ≤ t.id ∧ t.isRegular)))

/-- `get_transactions_in_range`, highest id first. -/
def getTransactionsInRange (backend : Sql.Backend) (start stop : Nat) (batch : NonZeroUsize)
    (db : WalletDb) : Except Sql.Error (List TransactionRow) :=
  Sql.limit backend (Sql.asI32 batch.val) (Sql.orderByDesc TransactionRow.id
    (db.transactions.filter
      (fun t => Sql.asI64 start ≤ t.id ∧ (t.id : Int) < Sql.asI64 stop ∧ t.isRegular)))

/-- `INSERT INTO relevant_transactions` under `UNIQUE (wallet_id, transaction_id)`. -/
def insertRelevant (walletId : Uuid) (transactions : List TransactionRow) (db : WalletDb) :
    Except Sql.Error WalletDb :=
  let rows := transactions.map (fun t => RelevantRow.mk walletId t.id)
  if (db.relevantTransactions ++ rows).Nodup then
    .ok { db with relevantTransactions := db.relevantTransactions ++ rows }
  else .error .uniqueViolation

/-- `save_relevant_transactions`: the upsert addresses the wallet by viewing
key and returns its id. `freshId` and `now` serve the insert arm. -/
def saveRelevantTransactions (freshId : Uuid) (now : Int) (key : ViewingKey)
    (transactions : List TransactionRow) (last : Nat) (db : WalletDb) :
    Except Sql.Error WalletDb :=
  match db.walletByKey key with
  | some wallet =>
    insertRelevant wallet.id transactions { db with
      wallets := Table.update WalletRow.viewingKey key
        (fun w => { w with lastIndexedTransactionId := last }) db.wallets }
  | none =>
    if db.wallets.any (fun w => w.id = freshId) then .error .uniqueViolation
    else insertRelevant freshId transactions { db with
      wallets := db.wallets ++ [⟨freshId, key, 0, 0, last, now, none⟩] }

/-- `save_backward_relevant_transactions`, addressed by wallet id. -/
def saveBackwardRelevantTransactions (walletId : Uuid) (transactions : List TransactionRow)
    (first : Nat) (db : WalletDb) : Except Sql.Error WalletDb :=
  insertRelevant walletId transactions { db with
    wallets := Table.update WalletRow.id walletId
      (fun w => { w with firstIndexedTransactionId := first }) db.wallets }

inductive IndexError where
  | storage (error : Sql.Error)
  | relevance (error : LedgerError)
  deriving DecidableEq, Repr

/-- One call of `index_wallet`. `lock` is the outcome of `acquire_lock`,
`maxTransactionId` the value read from the shared counter, and `freshId` and
`now` are what the upsert of `save_relevant_transactions` draws. -/
structure IndexCall where
  walletId : Uuid
  lock : Bool
  batch : NonZeroUsize
  maxTransactionId : Nat
  freshId : Uuid
  now : Int
  deriving DecidableEq

/-- What an indexer process is built with. -/
structure WalletEnv where
  backend : Sql.Backend
  codec : LedgerCodec

namespace WalletEnv

variable (env : WalletEnv)

/-- The relevant transactions of a batch; the first failing check ends it. -/
def selectRelevant (key : ViewingKey) :
    List TransactionRow → Except IndexError (List TransactionRow)
  | [] => .ok []
  | t :: rest =>
    match env.codec.relevant t.raw t.protocolVersion key with
    | .error e => .error (.relevance e)
    | .ok keep =>
      match selectRelevant key rest with
      | .error e => .error e
      | .ok others => .ok (if keep then t :: others else others)

/-- The arm taken when `first_indexed_transaction_id > wanted_start_index`. -/
def indexBackward (wallet : WalletRow) (call : IndexCall) (db : WalletDb) :
    Except IndexError (WalletDb × Bool) := do
  let transactions ← (getTransactionsInRange env.backend wallet.wantedStartIndex
    wallet.firstIndexedTransactionId call.batch db).mapError .storage
  let first := (transactions.getLast?.map TransactionRow.id).getD wallet.wantedStartIndex
  let relevant ← env.selectRelevant wallet.viewingKey transactions
  let saved ← (saveBackwardRelevantTransactions wallet.id relevant first db).mapError .storage
  return (saved, !relevant.isEmpty)

/-- The forward arm, from `last_indexed_transaction_id + 1`. -/
def indexForward (wallet : WalletRow) (call : IndexCall) (db : WalletDb) :
    Except IndexError (WalletDb × Bool) := do
  let transactions ← (getTransactions env.backend (wallet.lastIndexedTransactionId + 1)
    call.batch db).mapError .storage
  match transactions.getLast? with
  | none => return (db, false)
  | some t =>
    let relevant ← env.selectRelevant wallet.viewingKey transactions
    let saved ← (saveRelevantTransactions call.freshId call.now wallet.viewingKey relevant
      t.id db).mapError .storage
    return (saved, !relevant.isEmpty)

/-- `index_wallet` under a database transaction; the flag says whether a
`WalletIndexed` event is published after the commit. Without the lock nothing
happens. -/
def indexWallet (call : IndexCall) (db : WalletDb) : Except IndexError (WalletDb × Bool) :=
  if call.lock = false then .ok (db, false)
  else match db.walletById call.walletId with
    | none => .error (.storage .rowNotFound)
    | some wallet =>
      if wallet.wantedStartIndex < wallet.firstIndexedTransactionId then
        env.indexBackward wallet call db
      else if wallet.lastIndexedTransactionId < call.maxTransactionId then
        env.indexForward wallet call db
      else .ok (db, false)

end WalletEnv

/-- One move of the services that share the wallet tables. -/
inductive WalletInput where
  | connect (id : Uuid) (key : ViewingKey) (startIndex : Option Nat) (now : Int)
      (session : SessionId)
  | commit (row : TransactionRow)
  | index (call : IndexCall)

/-- The chain indexer's insert: ids come from a sequence, so a new id is above
all stored ones and fits the column. -/
def commitTransaction (row : TransactionRow) (db : WalletDb) : WalletDb :=
  if row.id < 2 ^ 63 ∧ ∀ t ∈ db.transactions, t.id < row.id then
    { db with transactions := db.transactions ++ [row] }
  else db

def walletStep (env : WalletEnv) (db : WalletDb) : WalletInput → WalletDb
  | .connect id key startIndex now session =>
    match connectWallet id key startIndex now session db with
    | .ok after => after
    | .error _ => db
  | .commit row => commitTransaction row db
  | .index call =>
    match env.indexWallet call db with
    | .ok (after, _) => after
    | .error _ => db

/-! A small instance to run the model on. -/

/-- A regular transaction with an output for each listed key. -/
def sampleTransaction (id : Nat) (keys : List UInt8) (zswapStart zswapEnd : Nat) :
    TransactionRow where
  id := id
  protocolVersion := .first .V1_0
  raw := keys
  regular := some ⟨zswapStart, zswapEnd⟩

def sampleEnv : WalletEnv := ⟨.postgres, .plain⟩

def sampleCall : IndexCall := ⟨1, true, .ofNat 2, 2 ^ 64 - 1, 9, 0⟩

end MidnightIndexer.Source
