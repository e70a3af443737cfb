import MidnightIndexer.Source.RelevantTransactions

/-!
# Progress of the shielded subscription

`get_highest_zswap_end_indices` of indexer-api/src/infra/storage/transaction.rs:551-597, and
`make_progress` with `to_progress`, shielded.rs:329-382, and `next_poll_interval`,
polling.rs:52-65 in indexer-api/src/infra/api/v4/subscription. The three numbers come from one
statement. The progress cache, which hands its result to several subscribers of the wallet, and
the jitter of a sleep are left out.
-/

namespace MidnightIndexer.Source

open Lib

namespace WalletDb

variable (db : WalletDb)

/-- The rows of `regular_transactions`. -/
def regularTransactions : List RegularTransaction :=
  db.transactions.filterMap TransactionRow.toRegular

/-- `SELECT MAX(last_indexed_transaction_id) FROM wallets`, over all wallets. -/
def highestIndexedId : Option Nat :=
  (db.wallets.map WalletRow.lastIndexedTransactionId).max?

/-- The join with the wallet's relevant transactions, if its session is open. -/
def connectedTransactions (walletId : Uuid) : List RegularTransaction :=
  if db.sessionOpen walletId then db.walletTransactions walletId else []

def getHighestZswapEndIndices (walletId : Uuid) : Option Nat × Option Nat × Option Nat :=
  ((db.regularTransactions.map RegularTransaction.zswapEndIndex).max?,
    (db.highestIndexedId.bind fun id =>
      Table.lookup RegularTransaction.id id db.regularTransactions).map
        RegularTransaction.zswapEndIndex,
    (Sql.orderByDesc RegularTransaction.zswapEndIndex
      (db.connectedTransactions walletId)).head?.map RegularTransaction.zswapEndIndex)

end WalletDb

/-- The deprecated fields repeat the others. -/
structure ShieldedTransactionsProgress where
  highestZswapEndIndex : Nat
  highestEndIndex : Nat
  highestCheckedZswapEndIndex : Nat
  highestCheckedEndIndex : Nat
  highestRelevantZswapEndIndex : Nat
  highestRelevantEndIndex : Nat
  deriving DecidableEq

def toProgress : Option Nat × Option Nat × Option Nat → ShieldedTransactionsProgress
  | (highest, highestChecked, highestRelevant) =>
    let highestZswapEndIndex := highest.getD 0
    let highestCheckedZswapEndIndex := highestChecked.getD 0
    let highestRelevantZswapEndIndex := highestRelevant.getD 0
    { highestZswapEndIndex
      highestEndIndex := highestZswapEndIndex
      highestCheckedZswapEndIndex
      highestCheckedEndIndex := highestCheckedZswapEndIndex
      highestRelevantZswapEndIndex
      highestRelevantEndIndex := highestRelevantZswapEndIndex }

/-- One item of `make_progress`. -/
def makeProgress (db : WalletDb) (walletId : Uuid) : ShieldedTransactionsProgress :=
  toProgress (db.getHighestZswapEndIndices walletId)

def nextPollInterval (currentInterval base : Nat) (changed : Bool) : Nat :=
  if changed then base else min (currentInterval * 2) (base * 8)

structure ProgressLoop (α : Type) where
  currentInterval : Nat
  last : Option α

/-- A round up to the sleep; `progress_updates`, unshielded.rs:264-306, has the same one. -/
def progressRound {α : Type} [DecidableEq α] (base : Nat) (s : ProgressLoop α) (answer : α) :
    ProgressLoop α where
  currentInterval := nextPollInterval s.currentInterval base (s.last ≠ some answer)
  last := some answer

end MidnightIndexer.Source
