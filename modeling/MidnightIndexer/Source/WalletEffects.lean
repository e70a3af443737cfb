import MidnightIndexer.Lib.Outcome
import MidnightIndexer.Source.WalletIndexer

/-!
# Effects of the wallet operations

What each successful operation does to the tables, derived from its execution.
An indexing step scans an interval of ids next to the interval it has already
scanned: the backward arm an interval that ends right below
`first_indexed_transaction_id`, the forward arm one that begins right above
`last_indexed_transaction_id`. The rows it inserts are exactly the relevant
transactions of that interval, unless a cast has changed the query.
-/

namespace MidnightIndexer.Source

open Lib List

/-- Ids are assigned in commit order and fit their column. -/
structure OrderedTransactions (transactions : List TransactionRow) : Prop where
  increasing : transactions.Pairwise (fun a b => a.id < b.id)
  column : ∀ t ∈ transactions, t.id < 2 ^ 63

variable {transactions page : List TransactionRow} {key : ViewingKey} {db after : WalletDb}
  {backend : Sql.Backend} {start : Nat} {batch : NonZeroUsize} {env : WalletEnv} {call : IndexCall}
  {published : Bool}

theorem OrderedTransactions.unique (ordered : OrderedTransactions transactions) :
    (transactions.map TransactionRow.id).Nodup := by
  rw [Nodup, pairwise_map]
  exact ordered.increasing.imp fun h => Nat.ne_of_lt h

theorem OrderedTransactions.filter_unique (ordered : OrderedTransactions transactions)
    (p : TransactionRow → Bool) : ((transactions.filter p).map TransactionRow.id).Nodup :=
  ordered.unique.sublist (filter_sublist.map _)

/-- A commit is refused or appends a row above all stored ones. -/
theorem commitTransaction_cases (row : TransactionRow) (db : WalletDb) :
    commitTransaction row db = db ∨ row.id < 2 ^ 63 ∧ (∀ t ∈ db.transactions, t.id < row.id) ∧
      commitTransaction row db = { db with transactions := db.transactions ++ [row] } := by
  unfold commitTransaction
  split
  next fits => exact .inr ⟨fits.1, fits.2, rfl⟩
  next => exact .inl rfl

theorem OrderedTransactions.append (ordered : OrderedTransactions transactions)
    {row : TransactionRow} (column : row.id < 2 ^ 63) (above : ∀ t ∈ transactions, t.id < row.id) :
    OrderedTransactions (transactions ++ [row]) := by
  constructor
  · rw [pairwise_append]
    refine ⟨ordered.increasing, by simp, ?_⟩
    intro a member b last
    rw [mem_singleton.mp last]
    exact above a member
  · intro t member
    rcases mem_append.mp member with early | late
    · exact ordered.column t early
    · rw [mem_singleton.mp late]
      exact column

namespace WalletEnv

variable (env : WalletEnv)

/-- The transaction is a regular one and its check against the key succeeds
with `true`. -/
def isRelevant (key : ViewingKey) (t : TransactionRow) : Bool :=
  t.isRegular && match env.codec.relevant t.raw t.protocolVersion key with
    | .ok relevant => relevant
    | .error _ => false

theorem selectRelevant_success {batch relevant : List TransactionRow}
    (success : env.selectRelevant key batch = .ok relevant) (regular : ∀ t ∈ batch, t.isRegular) :
    relevant = batch.filter (env.isRelevant key) := by
  induction batch generalizing relevant with
  | nil =>
    cases success
    rfl
  | cons t rest ih =>
    unfold selectRelevant at success
    have regular_head := regular t (by simp)
    split at success
    · cases success
    next keep checked =>
      split at success
      · cases success
      next others tail =>
        cases success
        have tail_eq := ih tail (fun s member => regular s (by simp [member]))
        have head_eq : env.isRelevant key t = keep := by simp [isRelevant, regular_head, checked]
        rw [filter_cons, head_eq, tail_eq]

end WalletEnv

theorem insertRelevant_success {walletId : Uuid}
    (success : insertRelevant walletId transactions db = .ok after) :
    after = { db with relevantTransactions :=
      db.relevantTransactions ++ transactions.map (fun t => RelevantRow.mk walletId t.id) } ∧
    after.relevantTransactions.Nodup := by
  simp only [insertRelevant] at success
  split at success
  next fresh =>
    cases success
    exact ⟨rfl, fresh⟩
  next => cases success

variable (ordered : OrderedTransactions db.transactions)

include ordered in
/-- A descending page over `[start, stop)` covers the ids from its last one up
to `stop`; only a limit of zero can leave rows of that interval out. -/
theorem getTransactionsInRange_covers {stop : Nat} (gap : start < stop) (column : stop < 2 ^ 63)
    (success : getTransactionsInRange backend start stop batch db = .ok page) :
    let first := (page.getLast?.map TransactionRow.id).getD start
    start ≤ first ∧ first < stop ∧
    (∀ t ∈ page, t ∈ db.transactions ∧ t.isRegular ∧ first ≤ t.id ∧ t.id < stop) ∧
    (Sql.asI32 batch.val ≠ 0 ∨ first ≠ start →
      ∀ t ∈ db.transactions, t.isRegular → first ≤ t.id → t.id < stop → t ∈ page) := by
  unfold getTransactionsInRange at success
  rw [Sql.asI64_of_lt column, Sql.asI64_of_lt (gap.trans column)] at success
  have selected : ∀ t, t ∈ db.transactions.filter (fun t => (start : Int) ≤ t.id ∧
      (t.id : Int) < stop ∧ t.isRegular) ↔
      t ∈ db.transactions ∧ start ≤ t.id ∧ t.id < stop ∧ t.isRegular := by
    simp
  rcases Sql.page_success_desc (ordered.filter_unique _) success with
    ⟨rfl, exhausted⟩ | ⟨last, final, chosen, page_iff⟩
  · refine ⟨le_refl _, gap, by simp, ?_⟩
    intro nonzero t member regular low high
    have none_left := exhausted (nonzero.resolve_right (by simp))
    have inside := (selected t).mpr ⟨member, low, high, regular⟩
    rw [none_left] at inside
    cases inside
  · obtain ⟨_, low, high, _⟩ := (selected last).mp chosen
    simp only [final, Option.map_some, Option.getD_some]
    refine ⟨low, high, ?_, ?_⟩
    · intro t member
      obtain ⟨inside, above⟩ := (page_iff t).mp member
      obtain ⟨stored, _, below, regular⟩ := (selected t).mp inside
      exact ⟨stored, regular, above, below⟩
    · intro _ t member regular above below
      exact (page_iff t).mpr ⟨(selected t).mpr ⟨member, low.trans above, below, regular⟩,
        above⟩

include ordered in
/-- An ascending page from `start` covers the ids up to its last one. -/
theorem getTransactions_covers {last : TransactionRow} (column : start < 2 ^ 63)
    (success : getTransactions backend start batch db = .ok page)
    (final : page.getLast? = some last) : last ∈ db.transactions ∧ start ≤ last.id ∧
    ∀ t, t ∈ page ↔ t ∈ db.transactions ∧ t.isRegular ∧ start ≤ t.id ∧ t.id ≤ last.id := by
  unfold getTransactions at success
  rw [Sql.asI64_of_lt column] at success
  rcases Sql.page_success (ordered.filter_unique _) success with
    ⟨rfl, _⟩ | ⟨last', final', chosen, page_iff⟩
  · cases final
  · cases final.symm.trans final'
    simp only [mem_filter, Int.ofNat_le, decide_eq_true_eq] at chosen page_iff
    refine ⟨chosen.1, chosen.2.1, fun t => ?_⟩
    rw [page_iff]
    constructor
    · rintro ⟨⟨stored, low, regular⟩, high⟩
      exact ⟨stored, regular, low, high⟩
    · rintro ⟨stored, regular, low, high⟩
      exact ⟨⟨stored, low, regular⟩, high⟩

/-- The step appended rows of this wallet for the listed transactions, each of
them committed and relevant, and announced them if there are any. -/
structure Inserted (env : WalletEnv) (wallet : WalletRow) (relevant : List TransactionRow)
    (db after : WalletDb) (published : Bool) : Prop where
  transactions : after.transactions = db.transactions
  rows : after.relevantTransactions = db.relevantTransactions ++
    relevant.map (fun t => RelevantRow.mk wallet.id t.id)
  sound : ∀ t ∈ relevant, t ∈ db.transactions ∧ env.isRelevant wallet.viewingKey t
  unique : after.relevantTransactions.Nodup
  announced : published = !relevant.isEmpty

/-- The listed transactions are all relevant ones with ids in `[low, high)`. -/
def Covers (env : WalletEnv) (key : ViewingKey) (db : WalletDb) (low high : Nat)
    (relevant : List TransactionRow) : Prop :=
  ∀ t, t ∈ relevant ↔
    t ∈ db.transactions ∧ env.isRelevant key t ∧ low ≤ t.id ∧ t.id < high

/-- The batch size reaches the query as a limit other than zero, or the gap it
is used on has no relevant transaction. -/
def LimitScans (env : WalletEnv) (wallet : WalletRow) (batch : NonZeroUsize) (db : WalletDb) :
    Prop :=
  Sql.asI32 batch.val ≠ 0 ∨ ∀ t ∈ db.transactions, env.isRelevant wallet.viewingKey t →
    ¬ (wallet.wantedStartIndex ≤ t.id ∧ t.id < wallet.firstIndexedTransactionId)

def moveFirst (first : Nat) (wallet : WalletRow) : WalletRow :=
  { wallet with firstIndexedTransactionId := first }

def moveLast (last : Nat) (wallet : WalletRow) : WalletRow :=
  { wallet with lastIndexedTransactionId := last }

/-- Effect of the backward arm: the cursor moves down to `first`, and what it
passes is covered. -/
structure BackwardEffect (env : WalletEnv) (wallet : WalletRow) (batch : NonZeroUsize)
    (db after : WalletDb) (published : Bool) (first : Nat) (relevant : List TransactionRow) :
    Prop where
  low : wallet.wantedStartIndex ≤ first
  high : first < wallet.firstIndexedTransactionId
  inserted : Inserted env wallet relevant db after published
  wallets : after.wallets = Table.update WalletRow.id wallet.id (moveFirst first) db.wallets
  bounds : ∀ t ∈ relevant, first ≤ t.id ∧ t.id < wallet.firstIndexedTransactionId
  covers : LimitScans env wallet batch db →
    Covers env wallet.viewingKey db first wallet.firstIndexedTransactionId relevant

/-- Effect of the forward arm: the cursor moves up to `last`, and what it
passes is covered. The start of the query must fit the cast. -/
structure ForwardEffect (env : WalletEnv) (wallet : WalletRow)
    (db after : WalletDb) (published : Bool) (last : Nat) (relevant : List TransactionRow) :
    Prop where
  column : last < 2 ^ 63
  inserted : Inserted env wallet relevant db after published
  wallets : after.wallets =
    Table.update WalletRow.viewingKey wallet.viewingKey (moveLast last) db.wallets
  covers : wallet.lastIndexedTransactionId + 1 < 2 ^ 63 →
    wallet.lastIndexedTransactionId < last ∧
    Covers env wallet.viewingKey db (wallet.lastIndexedTransactionId + 1) (last + 1) relevant

include ordered in
theorem indexBackward_effects {wallet : WalletRow}
    (gap : wallet.wantedStartIndex < wallet.firstIndexedTransactionId)
    (column : wallet.firstIndexedTransactionId < 2 ^ 63)
    (success : env.indexBackward wallet call db = .ok (after, published)) : ∃ first relevant,
      BackwardEffect env wallet call.batch db after published first relevant := by
  unfold WalletEnv.indexBackward at success
  obtain ⟨page, queried, relevant, selected, saved, stored, success⟩ := bind₃_success success
  cases success
  obtain ⟨low, high, sound, covers⟩ :=
    getTransactionsInRange_covers ordered gap column (mapError_success queried)
  have relevant_eq := env.selectRelevant_success selected (fun t member => (sound t member).2.1)
  have relevant_iff : ∀ t, t ∈ relevant ↔ t ∈ page ∧ env.isRelevant wallet.viewingKey t := by
    simp [relevant_eq]
  obtain ⟨rfl, unique⟩ := insertRelevant_success (mapError_success stored)
  refine ⟨_, relevant, low, high, ⟨rfl, rfl, ?_, unique, rfl⟩, rfl, ?_, ?_⟩
  · intro t member
    obtain ⟨on_page, keep⟩ := (relevant_iff t).mp member
    exact ⟨(sound t on_page).1, keep⟩
  · intro t member
    exact (sound t ((relevant_iff t).mp member).1).2.2
  · intro scans t
    rw [relevant_iff]
    constructor
    · rintro ⟨member, keep⟩
      obtain ⟨inside, _, above, below⟩ := sound t member
      exact ⟨inside, keep, above, below⟩
    · rintro ⟨inside, keep, above, below⟩
      refine ⟨covers ?_ t inside (Bool.and_eq_true_iff.mp keep).1 above below, keep⟩
      rcases scans with nonzero | nothing
      · exact .inl nonzero
      · exact absurd ⟨low.trans above, below⟩ (nothing t inside keep)

theorem getTransactions_sound (success : getTransactions backend start batch db = .ok page)
    (t : TransactionRow) (member : t ∈ page) : t ∈ db.transactions ∧ t.isRegular := by
  obtain ⟨n, rfl, _⟩ := Sql.limit_success success
  have inside := Sql.mem_orderBy.mp (mem_of_mem_take member)
  simp only [mem_filter, decide_eq_true_eq] at inside
  exact ⟨inside.1, inside.2.2⟩

include ordered in
theorem indexForward_effects {wallet : WalletRow}
    (found : db.walletByKey wallet.viewingKey = some wallet)
    (success : env.indexForward wallet call db = .ok (after, published)) :
    (after = db ∧ published = false) ∨
    ∃ last relevant, ForwardEffect env wallet db after published last relevant := by
  unfold WalletEnv.indexForward at success
  obtain ⟨page, queried, success⟩ := bind_success success
  have queried := mapError_success queried
  split at success
  next =>
    cases success
    exact .inl ⟨rfl, rfl⟩
  next last final =>
    obtain ⟨relevant, selected, saved, stored, success⟩ := bind₂_success success
    cases success
    have sound := getTransactions_sound queried
    have relevant_eq := env.selectRelevant_success selected (fun t member => (sound t member).2)
    have relevant_iff : ∀ t, t ∈ relevant ↔ t ∈ page ∧ env.isRelevant wallet.viewingKey t := by
      simp [relevant_eq]
    have upsert := mapError_success stored
    simp only [saveRelevantTransactions, found] at upsert
    obtain ⟨rfl, unique⟩ := insertRelevant_success upsert
    have last_stored := (sound last (mem_of_getLast? final)).1
    refine .inr ⟨last.id, relevant, ordered.column last last_stored,
      ⟨rfl, rfl, ?_, unique, rfl⟩, rfl, ?_⟩
    · intro t member
      obtain ⟨on_page, keep⟩ := (relevant_iff t).mp member
      exact ⟨(sound t on_page).1, keep⟩
    · intro column
      obtain ⟨_, above, page_iff⟩ := getTransactions_covers ordered column queried final
      refine ⟨above, fun t => ?_⟩
      rw [relevant_iff, page_iff, Nat.lt_succ_iff]
      constructor
      · rintro ⟨⟨member, _, low, high⟩, keep⟩
        exact ⟨member, keep, low, high⟩
      · rintro ⟨member, keep, low, high⟩
        exact ⟨⟨member, (Bool.and_eq_true_iff.mp keep).1, low, high⟩, keep⟩

/-- A successful call did nothing or took one of the two arms on the row it
found. -/
theorem indexWallet_success (success : env.indexWallet call db = .ok (after, published)) :
    (after = db ∧ published = false) ∨ ∃ wallet, db.walletById call.walletId = some wallet ∧
      ((wallet.wantedStartIndex < wallet.firstIndexedTransactionId ∧
          env.indexBackward wallet call db = .ok (after, published)) ∨
        (wallet.firstIndexedTransactionId ≤ wallet.wantedStartIndex ∧
          wallet.lastIndexedTransactionId < call.maxTransactionId ∧
          env.indexForward wallet call db = .ok (after, published))) := by
  unfold WalletEnv.indexWallet at success
  split at success
  · cases success
    exact .inl ⟨rfl, rfl⟩
  · split at success
    · cases success
    next wallet found =>
      split at success
      next gap => exact .inr ⟨wallet, found, .inl ⟨gap, success⟩⟩
      next closed =>
        split at success
        next behind => exact .inr ⟨wallet, found, .inr ⟨not_lt.mp closed, behind, success⟩⟩
        next =>
          cases success
          exact .inl ⟨rfl, rfl⟩

/-- Indexing reads the transactions and does not change them. -/
theorem indexWallet_transactions (success : env.indexWallet call db = .ok (after, published)) :
    after.transactions = db.transactions := by
  rcases indexWallet_success success with ⟨rfl, _⟩ | ⟨wallet, _, ⟨_, scanned⟩ | ⟨_, _, scanned⟩⟩
  · rfl
  · obtain ⟨_, _, _, _, _, stored, scanned⟩ := bind₃_success scanned
    cases scanned
    rw [(insertRelevant_success (mapError_success stored)).1]
  · obtain ⟨_, _, scanned⟩ := bind_success scanned
    split at scanned
    · cases scanned
      rfl
    · obtain ⟨_, _, _, stored, scanned⟩ := bind₂_success scanned
      cases scanned
      have upsert := mapError_success stored
      unfold saveRelevantTransactions at upsert
      split at upsert
      · rw [(insertRelevant_success upsert).1]
      · split at upsert
        · cases upsert
        · rw [(insertRelevant_success upsert).1]

/-- A successful connect changes one row or adds one. -/
theorem connectWallet_success {id : Uuid} {startIndex : Option Nat} {now : Int}
    {session : SessionId} (success : connectWallet id key startIndex now session db = .ok after) :
    startIndex.getD 0 < 2 ^ 63 ∧ ((∃ wallet, db.walletByKey key = some wallet ∧ after = { db with
        wallets := Table.update WalletRow.viewingKey key
          (reconnect (startIndex.getD 0) now session) db.wallets }) ∨
      (db.walletByKey key = none ∧ (∀ w ∈ db.wallets, w.id ≠ id) ∧ after = { db with
        wallets := db.wallets ++ [newWallet id key (startIndex.getD 0) now session] })) := by
  simp only [connectWallet] at success
  split at success
  · cases success
  next fits =>
    split at success
    · cases success
    · refine ⟨not_le.mp fits, ?_⟩
      split at success
      next wallet found =>
        cases success
        exact .inl ⟨wallet, found, rfl⟩
      next missing =>
        split at success
        · cases success
        next fresh =>
          cases success
          exact .inr ⟨missing, by simpa using fresh, rfl⟩

/-- A connect writes no other table. -/
theorem connectWallet_frame {id : Uuid} {startIndex : Option Nat} {now : Int}
    {session : SessionId} (success : connectWallet id key startIndex now session db = .ok after) :
    after.transactions = db.transactions ∧
      after.relevantTransactions = db.relevantTransactions := by
  rcases (connectWallet_success success).2 with ⟨_, _, rfl⟩ | ⟨_, _, rfl⟩ <;> exact ⟨rfl, rfl⟩

end MidnightIndexer.Source
