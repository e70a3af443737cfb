import MidnightIndexer.Source.RelevantTransactions

/-!
# What the relevant transaction stream reads

The stream moves its cursor to the `zswap_end_index` of the last row of a page.
A transaction that adds no zswap commitment has an empty range and is relevant
all the same, since relevance ignores whether a segment succeeded. As the last
row of a page it leaves the cursor at its own start and is read again, for ever
if nothing else follows. The borders of the pages decide, and with them a start
index that the cast to `i64` turns negative.
-/

namespace MidnightIndexer.Guarantees

open Lib Source Sql

/-- The wallet's relevant transactions from a zswap index on, in id order. -/
def relevantFrom (db : WalletDb) (walletId : Uuid) (index : Nat) : List RegularTransaction :=
  (Sql.orderBy RegularTransaction.id (db.walletTransactions walletId)).filter
    (fun t => index ≤ t.zswapStartIndex)

/-- Over this database the stream ends and has yielded these transactions. -/
def StreamYields (db : WalletDb) (walletId : Uuid) (index : Nat) (batchSize : NonZeroU32)
    (transactions : List RegularTransaction) : Prop :=
  ∃ queries, db.getRelevantTransactions walletId index batchSize queries = (transactions, true)

/-- An open session, a start index that fits the cast and page borders where the
last range is not empty and ends before the next one starts; or nothing to
read. -/
def StreamReads (db : WalletDb) (walletId : Uuid) (index : Nat) (batchSize : NonZeroU32) : Prop :=
  if db.sessionOpen walletId then
    if index < 2 ^ 63 then
      Paging.BordersMeet RegularTransaction.zswapStartIndex RegularTransaction.zswapEndIndex
        batchSize.val (relevantFrom db walletId index)
    else db.walletTransactions walletId = []
  else relevantFrom db walletId index = []

instance StreamReads.decidable (db : WalletDb) (walletId : Uuid) (index : Nat)
    (batchSize : NonZeroU32) : Decidable (StreamReads db walletId index batchSize) :=
  inferInstanceAs (Decidable (if db.sessionOpen walletId then
    if index < 2 ^ 63 then
      Paging.BordersMeet RegularTransaction.zswapStartIndex RegularTransaction.zswapEndIndex
        batchSize.val (relevantFrom db walletId index)
    else db.walletTransactions walletId = []
  else relevantFrom db walletId index = []))

variable {db : WalletDb} {walletId : Uuid} {index : Nat} {batchSize : NonZeroU32}

def startColumn (t : RegularTransaction) : Int := t.zswapStartIndex

/-- The cursor behind a transaction as the query compares it. -/
def nextCursor (t : RegularTransaction) : Int := Sql.asI64 t.zswapEndIndex

theorem streamYields_iff_delivers (connected : db.sessionOpen walletId)
    (transactions : List RegularTransaction) :
    StreamYields db walletId index batchSize transactions ↔
      Paging.Delivers (Paging.page startColumn batchSize.val
        (orderBy RegularTransaction.id (db.walletTransactions walletId)))
        nextCursor (asI64 index) transactions := by
  have same : ∀ cursor, db.relevantTransactionsPage walletId batchSize cursor =
      Paging.page startColumn batchSize.val
        (orderBy RegularTransaction.id (db.walletTransactions walletId))
        (asI64 cursor) := by
    intro cursor
    rw [WalletDb.relevantTransactionsPage, if_pos connected, orderBy_filter]
    rfl
  have moved : ∀ t : RegularTransaction, asI64 t.zswapEndIndex = nextCursor t := fun _ => rfl
  simp only [StreamYields, WalletDb.getRelevantTransactions, Paging.Delivers,
    Paging.pages_map asI64 same moved]

theorem streamYields_of_closed (closed : db.sessionOpen walletId = false)
    (transactions : List RegularTransaction) :
    StreamYields db walletId index batchSize transactions ↔ transactions = [] := by
  refine Paging.delivers_of_empty ?_
  simp [WalletDb.relevantTransactionsPage, closed]

section

variable (ranges : ZswapRanges db.transactions)

include ranges

theorem walletTransactions_column {t : RegularTransaction}
    (member : t ∈ db.walletTransactions walletId) :
    t.zswapStartIndex ≤ t.zswapEndIndex ∧ t.zswapEndIndex < 2 ^ 63 := by
  obtain ⟨row, stored, _, regular⟩ := mem_walletTransactions.mp member
  have columns := (toRegular_some regular).2
  exact ⟨ranges.within row stored _ columns, ranges.column row stored _ columns⟩

theorem orderBy_starts : (orderBy RegularTransaction.id (db.walletTransactions walletId)).Pairwise
      (fun a b => startColumn a ≤ startColumn b) := by
  refine List.Pairwise.imp_of_mem ?_
    (orderBy_strict _ _ (walletTransactions_unique ranges.unique walletId))
  intro a b a_member b_member less
  obtain ⟨s, s_stored, _, s_regular⟩ := mem_walletTransactions.mp (mem_orderBy.mp a_member)
  obtain ⟨t, t_stored, _, t_regular⟩ := mem_walletTransactions.mp (mem_orderBy.mp b_member)
  obtain ⟨s_id, s_columns⟩ := toRegular_some s_regular
  obtain ⟨t_id, t_columns⟩ := toRegular_some t_regular
  exact Int.ofNat_le.mpr (ranges.starts s s_stored t t_stored (by omega) _ s_columns _ t_columns)

theorem orderBy_nodup : (orderBy RegularTransaction.id (db.walletTransactions walletId)).Nodup := by
  have strict := orderBy_strict _ _ (walletTransactions_unique ranges.unique walletId)
  refine strict.imp fun less equal => ?_
  rw [equal] at less
  exact absurd less (lt_irrefl _)

/-- The borders of the yielded rows, as the query compares their columns. -/
theorem bordersMeet_columns :
    Paging.BordersMeet startColumn nextCursor batchSize.val (relevantFrom db walletId index) ↔
      Paging.BordersMeet RegularTransaction.zswapStartIndex RegularTransaction.zswapEndIndex
        batchSize.val (relevantFrom db walletId index) := by
  have column : ∀ (k : Nat), ∀ t ∈ (relevantFrom db walletId index)[k]?,
      nextCursor t = t.zswapEndIndex := by
    intro k t found
    have member := List.mem_of_mem_filter (List.mem_of_getElem? found)
    exact asI64_of_lt (walletTransactions_column ranges (mem_orderBy.mp member)).2
  refine forall_congr' fun k => imp_congr_right fun _ => imp_congr_right fun _ =>
    forall_congr' fun last => imp_congr_right fun found => ?_
  simp only [column k last found, startColumn, Int.ofNat_lt, Int.ofNat_le]

end

/-- The stream yields the wallet's relevant transactions from the index on, each
once and in id order, and ends, if and only if `StreamReads`. -/
theorem relevant_stream_exact_iff (db : WalletDb) (ranges : ZswapRanges db.transactions)
    (walletId : Uuid) (index : Nat) (word : index < 2 ^ 64) (batchSize : NonZeroU32) :
    StreamYields db walletId index batchSize (relevantFrom db walletId index) ↔
      StreamReads db walletId index batchSize := by
  unfold StreamReads
  split
  next connected =>
    rw [streamYields_iff_delivers connected]
    split
    next fits =>
      have from_eq : relevantFrom db walletId index = Paging.rowsFrom startColumn
          (Sql.orderBy RegularTransaction.id (db.walletTransactions walletId))
          (Sql.asI64 index) := by
        simp [relevantFrom, Paging.rowsFrom, startColumn, Sql.asI64_of_lt fits]
      rw [← bordersMeet_columns ranges, from_eq]
      exact Paging.delivers_rowsFrom_iff (orderBy_starts ranges) (orderBy_nodup ranges)
        batchSize.pos _
    next large =>
      have negative := Sql.asI64_neg (not_lt.mp large) word
      have nothing : relevantFrom db walletId index = [] := by
        rw [relevantFrom, List.filter_eq_nil_iff]
        intro t member
        have column := walletTransactions_column ranges (Sql.mem_orderBy.mp member)
        simp only [decide_eq_true_eq]
        omega
      have everything : Paging.rowsFrom startColumn
          (Sql.orderBy RegularTransaction.id (db.walletTransactions walletId))
          (Sql.asI64 index) =
          Sql.orderBy RegularTransaction.id (db.walletTransactions walletId) := by
        rw [Paging.rowsFrom, List.filter_eq_self]
        intro t _
        exact decide_eq_true (negative.le.trans (Int.natCast_nonneg _))
      rw [nothing]
      constructor
      · intro delivers
        have same := Paging.delivers_suffix (orderBy_starts ranges) (orderBy_nodup ranges)
          batchSize.pos List.nil_suffix delivers
        rw [everything] at same
        exact Sql.orderBy_eq_nil.mp same.symm
      · intro empty
        refine (Paging.delivers_of_empty ?_).mpr rfl
        rw [Paging.page, everything, Sql.orderBy_eq_nil.mpr empty, List.take_nil]
  next closed => exact streamYields_of_closed (by simpa using closed) _

def sampleWallet : WalletRow := ⟨1, 7, 0, 0, 2, 0, some 1⟩

/-- Two relevant transactions with ranges of one and two commitments. -/
def sampleRelevant : WalletDb where
  transactions := [sampleTransaction 1 [7] 0 1, sampleTransaction 2 [7] 1 3]
  wallets := [sampleWallet]
  relevantTransactions := [⟨1, 1⟩, ⟨1, 2⟩]

theorem relevant_stream_exact_sample :
    StreamYields sampleRelevant 1 0 (.ofNat 1) (relevantFrom sampleRelevant 1 0) :=
  (relevant_stream_exact_iff sampleRelevant
    ⟨by decide, by decide, by decide, by decide, by decide⟩ 1 0 (by decide) _).mpr
    (by decide +kernel)

/-- One relevant transaction that added no zswap commitment. -/
def emptyRange : WalletDb where
  transactions := [sampleTransaction 1 [7] 0 0]
  wallets := [sampleWallet]
  relevantTransactions := [⟨1, 1⟩]

/-- Its empty range leaves the cursor where it is, so the stream never ends. -/
theorem empty_range_read_for_ever :
    ZswapRanges emptyRange.transactions ∧
      ∀ transactions, ¬ StreamYields emptyRange 1 0 (.ofNat 1) transactions := by
  refine ⟨⟨by decide, by decide, by decide, by decide, by decide⟩, fun transactions => ?_⟩
  have page : (emptyRange.relevantTransactionsPage 1 (.ofNat 1) 0).getLast? =
      (sampleTransaction 1 [7] 0 0).toRegular := by decide +kernel
  exact Paging.not_delivers_of_stuck page rfl

end MidnightIndexer.Guarantees
