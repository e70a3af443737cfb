import MidnightIndexer.Lib.Paging
import MidnightIndexer.Source.WalletIndexer

/-!
# `get_relevant_transactions`

indexer-api/src/infra/storage/transaction.rs:473-495 and 606-689, with
`flatten_chunks` of indexer-common/src/stream.rs. The query joins on primary keys
and on the unique pair of `relevant_transactions`, so a transaction matches at
most once. Its limit is a `u32` and never negative after the cast. Columns that
are only passed through to the client are left out.
-/

namespace MidnightIndexer.Source

open Lib List

/-- The indexer API's `RegularTransaction`. -/
structure RegularTransaction where
  id : Nat
  protocolVersion : ProtocolVersion
  raw : List UInt8
  zswapStartIndex : Nat
  zswapEndIndex : Nat
  deriving DecidableEq

/-- The join of a transaction with its regular columns. -/
def TransactionRow.toRegular (row : TransactionRow) : Option RegularTransaction :=
  row.regular.map fun regular =>
    ⟨row.id, row.protocolVersion, row.raw, regular.zswapStartIndex, regular.zswapEndIndex⟩

namespace WalletDb

variable (db : WalletDb)

/-- The wallet's relevant transactions, whether or not it is connected. -/
def walletTransactions (walletId : Uuid) : List RegularTransaction :=
  (db.transactions.filter
    (fun t => RelevantRow.mk walletId t.id ∈ db.relevantTransactions)).filterMap
      TransactionRow.toRegular

/-- `wallets.session_id IS NOT NULL`. -/
def sessionOpen (walletId : Uuid) : Bool :=
  db.wallets.any (fun w => w.id = walletId ∧ w.sessionId.isSome)

/-- The query: one page. -/
def relevantTransactionsPage (walletId : Uuid) (batchSize : NonZeroU32) (index : Nat) :
    List RegularTransaction :=
  (Sql.orderBy RegularTransaction.id
    ((if db.sessionOpen walletId then db.walletTransactions walletId else []).filter
      (fun t => Sql.asI64 index ≤ t.zswapStartIndex))).take batchSize.val

/-- The stream after a number of queries, and whether it has ended. -/
def getRelevantTransactions (walletId : Uuid) (index : Nat) (batchSize : NonZeroU32)
    (queries : Nat) : List RegularTransaction × Bool :=
  Paging.pages (db.relevantTransactionsPage walletId batchSize)
    RegularTransaction.zswapEndIndex queries index

end WalletDb

/-- What the chain indexer guarantees about the regular transactions: unique
ids, and zswap ranges whose bounds fit their columns and do not decrease. -/
structure ZswapRanges (transactions : List TransactionRow) : Prop where
  unique : (transactions.map TransactionRow.id).Nodup
  column : ∀ t ∈ transactions, ∀ r ∈ t.regular, r.zswapEndIndex < 2 ^ 63
  within : ∀ t ∈ transactions, ∀ r ∈ t.regular, r.zswapStartIndex ≤ r.zswapEndIndex
  starts : ∀ a ∈ transactions, ∀ b ∈ transactions, a.id < b.id →
    ∀ r ∈ a.regular, ∀ s ∈ b.regular, r.zswapStartIndex ≤ s.zswapStartIndex
  stops : ∀ a ∈ transactions, ∀ b ∈ transactions, a.id < b.id →
    ∀ r ∈ a.regular, ∀ s ∈ b.regular, r.zswapEndIndex ≤ s.zswapEndIndex

variable {db : WalletDb} {t : RegularTransaction}

theorem mem_walletTransactions {walletId : Uuid} : t ∈ db.walletTransactions walletId ↔
      ∃ row ∈ db.transactions, RelevantRow.mk walletId row.id ∈ db.relevantTransactions ∧
        row.toRegular = some t := by
  simp [WalletDb.walletTransactions, and_assoc]

theorem toRegular_some {row : TransactionRow} (regular : row.toRegular = some t) :
    t.id = row.id ∧ ⟨t.zswapStartIndex, t.zswapEndIndex⟩ ∈ row.regular := by
  obtain ⟨r, found, rfl⟩ := Option.map_eq_some_iff.mp regular
  exact ⟨rfl, found⟩

variable (unique : (db.transactions.map TransactionRow.id).Nodup)

include unique

theorem walletTransactions_unique (walletId : Uuid) :
    ((db.walletTransactions walletId).map RegularTransaction.id).Nodup := by
  rw [Nodup, pairwise_map] at unique ⊢
  refine pairwise_filterMap.mpr ((unique.sublist filter_sublist).imp ?_)
  intro a b different t t_regular s s_regular
  rw [(toRegular_some t_regular).1, (toRegular_some s_regular).1]
  exact different

theorem relevantTransactionsPage_nodup (walletId : Uuid) (batchSize : NonZeroU32) (cursor : Nat) :
    (db.relevantTransactionsPage walletId batchSize cursor).Nodup := by
  refine Nodup.sublist (take_sublist _ _) ?_
  rw [(Sql.orderBy_perm _ _).nodup_iff]
  refine Nodup.sublist filter_sublist ?_
  split
  · exact Nodup.of_map _ (walletTransactions_unique unique walletId)
  · exact nodup_nil

/-- A page of a connected wallet is empty for lack of rows, or holds the rows
from the cursor on up to the id of its last row. -/
theorem relevantTransactionsPage_cases {walletId : Uuid} {cursor : Nat}
    (session : ∀ t ∈ db.walletTransactions walletId, db.sessionOpen walletId)
    (fits : cursor < 2 ^ 63) (batchSize : NonZeroU32) :
    (db.relevantTransactionsPage walletId batchSize cursor = [] ∧
      ∀ t ∈ db.walletTransactions walletId, t.zswapStartIndex < cursor) ∨
    ∃ last, (db.relevantTransactionsPage walletId batchSize cursor).getLast? = some last ∧
      ∀ t, t ∈ db.relevantTransactionsPage walletId batchSize cursor ↔
        t ∈ db.walletTransactions walletId ∧ cursor ≤ t.zswapStartIndex ∧ t.id ≤ last.id := by
  unfold WalletDb.relevantTransactionsPage
  rw [Sql.asI64_of_lt fits]
  split
  next =>
    have selected_unique := (walletTransactions_unique unique walletId).sublist
      ((filter_sublist (p := fun t => (cursor : Int) ≤ t.zswapStartIndex)).map
        RegularTransaction.id)
    rcases Sql.page_success selected_unique (Sql.limit_take .sqlite batchSize.val _) with
      ⟨empty, exhausted⟩ | ⟨last, final, _, page_iff⟩
    · refine .inl ⟨empty, fun t member => ?_⟩
      have nothing := exhausted (by have := batchSize.pos; omega)
      rw [filter_eq_nil_iff] at nothing
      simpa using nothing t member
    · refine .inr ⟨last, final, fun t => ?_⟩
      rw [page_iff, mem_filter, decide_eq_true_eq, Int.ofNat_le, and_assoc]
  next closed =>
    refine .inl ⟨by simp [Sql.orderBy], fun t member => ?_⟩
    exact absurd (session t member) closed

end MidnightIndexer.Source
