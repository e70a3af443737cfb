import MidnightIndexer.Source.LiveFeeds

/-!
# What a live subscription delivers

A feed reads rows of the database that are ordered by their key and that commits
only add to, under higher keys (`Reads`). Then the rows delivered are at any time
the first of those from the start cursor on, whichever way the commits, the events
and the polls are interleaved: the page in hand continues what was delivered, and
both cursors are behind what was read.
-/

namespace MidnightIndexer.Guarantees.LiveDelivery

open Lib Lib.Follow List Source Source.IndexerApi LiveFeed
open Paging (rowsFrom)
open LiveFeed (Move)

variable {ε ρ ι : Type} {feed : LiveFeed ε ρ ι} {backend : Sql.Backend}
  {rows : ChainDb → List ρ} {size start : Nat} {s t : LiveState ε ρ ι}

/-- The feed pages through the rows and makes an item of each. -/
structure Reads (feed : LiveFeed ε ρ ι) (backend : Sql.Backend) (rows : ChainDb → List ρ)
    (size : Nat) : Prop where
  positive : 0 < size
  serial : ∀ db, Serial feed.key (2 ^ 63) (rows db)
  page : ∀ db cursor, cursor < 2 ^ 63 →
    feed.page db cursor = Paging.page feed.key size (rows db) cursor
  item : ∀ db, ∀ row ∈ rows db, ∀ made, feed.item db row = .ok made →
    ∃ item, made = some item ∧ feed.row item = row
  grows : ∀ db block, rows db <+: rows (db.commit backend block)

/-- The subscription has delivered the first rows from `start` on, and its cursors
are where they belong. -/
def Follows (feed : LiveFeed ε ρ ι) (rows : ChainDb → List ρ) (start : Nat)
    (s : LiveState ε ρ ι) : Prop :=
  match s.phase with
  | .opening => False
  | .streaming _ cursor buffer =>
    feed.rowsDelivered s ++ buffer <+: rowsFrom feed.key (rows s.db) start ∧
      s.id = behind feed.key start (feed.rowsDelivered s) ∧
      cursor = behind feed.key start (feed.rowsDelivered s ++ buffer)
  | .waiting =>
    feed.rowsDelivered s <+: rowsFrom feed.key (rows s.db) start ∧
      s.id = behind feed.key start (feed.rowsDelivered s)
  | .failed _ | .done => feed.rowsDelivered s <+: rowsFrom feed.key (rows s.db) start

theorem Follows.delivered (follows : Follows feed rows start s) :
    feed.rowsDelivered s <+: rowsFrom feed.key (rows s.db) start := by
  unfold Follows at follows
  split at follows
  · exact follows.elim
  · exact (prefix_append _ _).trans follows.1
  · exact follows.1
  · exact follows
  · exact follows

theorem Follows.opened (follows : Follows feed rows start s) : s.phase ≠ .opening := by
  intro phase
  simp only [Follows, phase] at follows

theorem Follows.commit (reads : Reads feed backend rows size) (follows : Follows feed rows start s)
    (block : ChainBlock) : Follows feed rows start { s with db := s.db.commit backend block } := by
  have grown := rowsFrom_grows feed.key (reads.grows s.db block) start
  unfold Follows at follows ⊢
  split at follows
  next phase => exact follows.elim
  next phase =>
    simp only [phase]
    exact ⟨follows.1.trans grown, follows.2⟩
  next phase =>
    simp only [phase]
    exact ⟨follows.1.trans grown, follows.2⟩
  next phase =>
    simp only [phase]
    exact follows.trans grown
  next phase =>
    simp only [phase]
    exact follows.trans grown

theorem Follows.queue (follows : Follows feed rows start s) (queue : List ε) :
    Follows feed rows start { s with queue := queue } := follows

theorem buffer_mem {taken rest : List ρ} {row : ρ} {all : List ρ}
    (reads : taken ++ row :: rest <+: rowsFrom feed.key all start) : row ∈ all :=
  (mem_rowsFrom.mp (reads.subset (by simp))).1

variable {db : ChainDb} {cursor : Nat} {address : ChainIndexer.ByteVec}
  (reads : Reads feed backend rows size) (small : start < 2 ^ 63)

include reads small in
theorem delivered_behind_lt {taken : List ρ}
    (delivered : taken <+: rowsFrom feed.key (rows db) start) :
    behind feed.key start taken < 2 ^ 63 :=
  behind_lt (reads.serial db) small fun _ member => (mem_rowsFrom.mp (delivered.subset member)).1

include reads small in
theorem Follows.move (move : Move feed s t) (follows : Follows feed rows start s) :
    Follows feed rows start t := by
  cases move with
  | begin phase => exact absurd phase follows.opened
  | @deliver _ _ row rest item phase made =>
    simp only [Follows, phase] at follows
    obtain ⟨continued, _, cursor⟩ := follows
    obtain ⟨_, same, origin⟩ := reads.item s.db row (buffer_mem continued) _ made
    cases same
    have taken : (s.delivered ++ [item]).map feed.row = feed.rowsDelivered s ++ [row] := by
      simp [rowsDelivered, origin]
    simp only [Follows, rowsDelivered, taken]
    rw [append_cons] at continued cursor
    exact ⟨continued, (behind_concat row).symm, cursor⟩
  | pass phase made =>
    simp only [Follows, phase] at follows
    obtain ⟨_, same, _⟩ := reads.item s.db _ (buffer_mem follows.1) _ made
    cases same
  | fail phase made =>
    simp only [Follows, phase] at follows
    exact (prefix_append _ _).trans follows.1
  | @fetch _ cursor last phase final =>
    simp only [Follows, phase, append_nil] at follows
    obtain ⟨delivered, kept, cursor_eq⟩ := follows
    have page := reads.page s.db cursor (cursor_eq ▸ delivered_behind_lt reads small delivered)
    refine ⟨?_, kept, (behind_append_of_getLast final).symm⟩
    rw [page, cursor_eq]
    exact reads_page (reads.serial s.db).increasing delivered
  | @exhaust lastRound cursor phase empty =>
    simp only [Follows, phase, append_nil] at follows
    cases lastRound with
    | true => exact follows.1
    | false => exact ⟨follows.1, follows.2.1⟩
  | take phase queued concerned =>
    simp only [Follows, phase] at follows
    simp only [Follows, append_nil]
    exact ⟨follows.1, follows.2, follows.2⟩
  | ignore | idle => exact follows

include reads small in
theorem Follows.exhausted {lastRound : Bool} (phase : s.phase = .streaming lastRound cursor [])
    (empty : feed.page s.db cursor = []) (follows : Follows feed rows start s) :
    feed.rowsDelivered s = rowsFrom feed.key (rows s.db) start := by
  simp only [Follows, phase, append_nil] at follows
  obtain ⟨delivered, _, rfl⟩ := follows
  rw [reads.page s.db _ (delivered_behind_lt reads small delivered)] at empty
  exact reads_all (reads.serial s.db).increasing reads.positive delivered empty

theorem follows_opened (nothing : s.delivered = []) (phase : s.phase = .opening) :
    Follows feed rows (feed.opening s.db s.id).1 (feed.poll s) := by
  have opened : feed.poll s = { s with
      id := (feed.opening s.db s.id).1
      phase := .streaming (feed.opening s.db s.id).2 (feed.opening s.db s.id).1 [] } := by
    simp only [poll, phase]
  rw [opened]
  simp [Follows, rowsDelivered, nothing]

theorem follows_start (db : ChainDb) (start : Nat) :
    Follows feed rows start (LiveFeed.start db start) := by
  simp [Follows, LiveFeed.start, LiveFeed.rowsDelivered]

include reads small in
theorem Follows.step (follows : Follows feed rows start s) (input : LiveInput ε) :
    Follows feed rows start (feed.step backend s input) := by
  cases input with
  | commit block => exact follows.commit reads block
  | notify event =>
    rw [LiveFeed.step]
    split
    · exact follows.queue _
    · exact follows
  | poll => exact follows.move reads small (poll_move feed s)

include reads small in
/-- Whatever the interleaving, the rows delivered are those from the start cursor
on up to the last one delivered. -/
theorem live_exact (follows : Follows feed rows start s) (inputs : List (LiveInput ε)) :
    TakenExactly feed.key (rows (run (feed.step backend) s inputs).db) start
      (feed.rowsDelivered (run (feed.step backend) s inputs)) := by
  have keep : ∀ s input, Follows feed rows start s →
      Follows feed rows start (feed.step backend s input) :=
    fun _ input follows => follows.step reads small input
  exact reads_exact (reads.serial _).increasing (run_keeps keep s inputs follows).delivered

/-! ## The subscriptions -/

theorem pageFrom_eq {key : ρ → Nat} {table : List ρ} (serial : Serial key (2 ^ 63) table)
    (batchSize : NonZeroU32) (fits : cursor < 2 ^ 63) :
    pageFrom key batchSize table cursor = Paging.page key batchSize.val table cursor := by
  have selected : (table.filter fun row => Sql.asI64 cursor ≤ key row) =
      rowsFrom key table cursor := by
    rw [Sql.asI64_of_lt fits, rowsFrom]
    apply filter_congr
    intro row _
    simp
  rw [pageFrom, selected, Paging.page,
    Sql.orderBy_eq_of_perm (Perm.refl _) (rowsFrom_strict serial.increasing cursor)]

theorem commit_blocks (backend : Sql.Backend) (db : ChainDb) (block : ChainBlock) :
    db.blocks <+: (db.commit backend block).blocks := by
  rcases db.commit_cases backend block with same | ⟨_, grown, _⟩
  · exact same.symm ▸ prefix_rfl
  · exact grown ▸ prefix_append _ _

theorem table_grows {table : List ChainBlock → List ρ}
    (append : ∀ front back, table (front ++ back) = table front ++ table back)
    (backend : Sql.Backend) (db : ChainDb) (block : ChainBlock) :
    table db.blocks <+: table (db.commit backend block).blocks := by
  obtain ⟨more, grown⟩ := commit_blocks backend db block
  rw [← grown, append]
  exact prefix_append _ _

theorem reads_of_rows {feed : LiveFeed ε ρ ρ} (batchSize : NonZeroU32)
    (serial : ∀ db, Serial feed.key (2 ^ 63) (rows db))
    (page : ∀ db cursor, feed.page db cursor = pageFrom feed.key batchSize (rows db) cursor)
    (item : ∀ db row made, feed.item db row = .ok made → made = some row) (same : feed.row = id)
    (grows : ∀ db block, rows db <+: rows (db.commit backend block)) :
    Reads feed backend rows batchSize.val where
  positive := batchSize.pos
  serial := serial
  page db cursor fits := (page db cursor).trans (pageFrom_eq (serial db) batchSize fits)
  item db row _ made found := ⟨row, item db row made found, by rw [same, id]⟩
  grows := grows

theorem blocks_serial (db : ChainDb) : Serial ChainBlock.height (2 ^ 63) db.blocks := by
  refine ⟨db.ordered.heights.increasing, fun block member => ?_⟩
  have bound := db.ordered.heights.successor block member
  omega

theorem blocks_reads (backend : Sql.Backend) (batchSize : NonZeroU32) :
    Reads (blocks batchSize) backend ChainDb.blocks batchSize.val := by
  apply reads_of_rows batchSize blocks_serial (fun _ _ => rfl) _ rfl (commit_blocks backend)
  intro db block made found
  cases found
  rfl

def eventsWhere (p : LedgerEventRow → Bool) (db : ChainDb) : List LedgerEventRow :=
  (ledgerEventRows db.blocks).filter p

theorem eventsWhere_serial (p : LedgerEventRow → Bool) (db : ChainDb) :
    Serial (fun row => row.id) (2 ^ 63) (eventsWhere p db) :=
  db.ordered.ledgerEvents.sublist filter_sublist

theorem eventsWhere_grows (p : LedgerEventRow → Bool) (db : ChainDb) (block : ChainBlock) :
    eventsWhere p db <+: eventsWhere p (db.commit backend block) :=
  (table_grows ledgerEventRows_append backend db block).filter p

theorem ledgerEvents_reads (backend : Sql.Backend) (grouping : LedgerEventGrouping)
    (expected : LedgerEventVariant → Bool) (name : String) (batchSize : NonZeroU32) :
    Reads (ledgerEvents grouping expected name batchSize) backend
      (eventsWhere fun row => row.grouping = grouping) batchSize.val := by
  apply reads_of_rows batchSize (eventsWhere_serial _) (fun _ _ => rfl) _ rfl (eventsWhere_grows _)
  intro db row made found
  dsimp only [ledgerEvents] at found
  split at found
  · cases found
    rfl
  · cases found

/-! ## `unshieldedTransactions` -/

instance touches_decidable (utxos : List ChainIndexer.UnshieldedUtxoRow)
    (address : ChainIndexer.ByteVec) (id : Nat) : Decidable (Touches utxos address id) :=
  inferInstanceAs (Decidable (∃ row ∈ utxos, row.owner = address ∧
    (row.creatingTransactionId = id ∨ row.spendingTransactionId = some id)))

/-- The transactions that create or spend UTXOs of the address. -/
def transactionsOf (address : ChainIndexer.ByteVec) (db : ChainDb) : List TransactionRow :=
  (transactionRows db.blocks).filter fun t => Touches db.utxos address t.id

theorem mem_transactionIdsByAddress {utxos : List ChainIndexer.UnshieldedUtxoRow} {id : Nat} :
    id ∈ transactionIdsByAddress utxos address cursor ↔
      Touches utxos address id ∧ Sql.asI64 cursor ≤ id := by
  simp only [transactionIdsByAddress, Touches, mem_append, mem_map, mem_filter,
    mem_filterMap, decide_eq_true_eq, Option.filter_eq_some_iff]
  constructor
  · intro found
    rcases found with ⟨row, ⟨member, owner, low⟩, rfl⟩ | ⟨row, ⟨member, owner⟩, spent, low⟩
    · exact ⟨⟨row, member, owner, .inl rfl⟩, low⟩
    · exact ⟨⟨row, member, owner, .inr spent⟩, low⟩
  · intro found
    obtain ⟨⟨row, member, owner, created | spent⟩, low⟩ := found
    · exact .inl ⟨row, ⟨member, owner, created ▸ low⟩, created⟩
    · exact .inr ⟨row, ⟨member, owner⟩, spent, low⟩

theorem transactionsOf_serial (address : ChainIndexer.ByteVec) (db : ChainDb) :
    Serial TransactionRow.id (2 ^ 63) (transactionsOf address db) :=
  db.ordered.transactions.sublist filter_sublist

theorem transactionsByUnshieldedAddress_eq (db : ChainDb) (address : ChainIndexer.ByteVec)
    (batchSize : NonZeroU32) (cursor : Nat) :
    transactionsByUnshieldedAddress db address batchSize cursor =
      pageFrom TransactionRow.id batchSize (transactionsOf address db) cursor := by
  rw [transactionsByUnshieldedAddress, pageFrom, transactionsOf, filter_filter]
  congr 2
  apply filter_congr
  intro t _
  simp [mem_transactionIdsByAddress, and_comm]

theorem makeUnshieldedTransaction_touched {t : TransactionRow}
    (member : t ∈ transactionsOf address db) :
    ∃ item, makeUnshieldedTransaction db address t = some item ∧ item.transaction = t := by
  have bound := (transactionsOf_serial address db).successor t member
  have small : t.id < 2 ^ 63 := by omega
  obtain ⟨row, inside, owner, named⟩ := of_decide_eq_true (mem_filter.mp member).2
  refine ⟨⟨t, _, _⟩, if_pos ?_, rfl⟩
  rcases named with created | spent
  · have listed : row ∈ utxosCreatedBy db address t.id := by
      simp [utxosCreatedBy, Sql.asI64_of_lt small, inside, owner, created]
    simp [ne_nil_of_mem listed]
  · have listed : row ∈ utxosSpentBy db address t.id := by
      simp [utxosSpentBy, Sql.asI64_of_lt small, inside, owner, spent]
    simp [ne_nil_of_mem listed]

theorem mem_transactionRows {block : ChainBlock} {t : ChainTransaction}
    (member : t ∈ block.transactions) : ⟨t.id, t.hash, block.height⟩ ∈ transactionRows [block] := by
  simp only [transactionRows, flatMap_singleton, mem_map]
  exact ⟨t, member, rfl⟩

/-- The block's transactions are new, so they change nothing for the old ones. -/
theorem transactionsOf_committed {block : ChainBlock} (address : ChainIndexer.ByteVec)
    (ordered : Ordered (db.blocks ++ [block]))
    (grown : (db.commit backend block).blocks = db.blocks ++ [block])
    (saved : saveUtxos backend db.utxos block.transactions = .ok (db.commit backend block).utxos) :
    transactionsOf address (db.commit backend block) = transactionsOf address db ++
      (transactionRows [block]).filter fun t =>
        Touches (db.commit backend block).utxos address t.id := by
  have ids := ordered.transactions.increasing
  rw [transactionRows_append, pairwise_append] at ids
  have old : ((transactionRows db.blocks).filter fun t =>
      Touches (db.commit backend block).utxos address t.id) = transactionsOf address db := by
    apply filter_congr
    intro t member
    have other : ∀ u ∈ block.transactions, u.id ≠ t.id :=
      fun u new => Nat.ne_of_gt (ids.2.2 t member _ (mem_transactionRows new))
    rw [decide_eq_decide]
    exact touches_saveUtxos db.keys saved other
  rw [← old, transactionsOf, grown, transactionRows_append, filter_append]

theorem transactionsOf_grows (address : ChainIndexer.ByteVec) (db : ChainDb) (block : ChainBlock) :
    transactionsOf address db <+: transactionsOf address (db.commit backend block) := by
  rcases db.commit_cases backend block with same | ⟨ordered, grown, saved⟩
  · exact same.symm ▸ prefix_rfl
  · rw [transactionsOf_committed address ordered grown saved]
    exact prefix_append _ _

theorem unshieldedTransactions_reads (backend : Sql.Backend) (address : ChainIndexer.ByteVec)
    (batchSize : NonZeroU32) :
    Reads (unshieldedTransactions address batchSize) backend (transactionsOf address)
      batchSize.val where
  positive := batchSize.pos
  serial := transactionsOf_serial address
  page db cursor fits :=
    (transactionsByUnshieldedAddress_eq db address batchSize cursor).trans
      (pageFrom_eq (transactionsOf_serial address db) batchSize fits)
  item := by
    intro db t member made same
    obtain ⟨item, found, origin⟩ := makeUnshieldedTransaction_touched member
    cases same
    exact ⟨item, found, origin⟩
  grows := transactionsOf_grows address

/-! ## The result -/

theorem rowsDelivered_of_id {feed : LiveFeed ε ρ ρ} (same : feed.row = id) (s : LiveState ε ρ ρ) :
    feed.rowsDelivered s = s.delivered := by
  rw [rowsDelivered, same, map_id]

theorem ledgerEvents_exact (backend : Sql.Backend) (grouping : LedgerEventGrouping)
    (expected : LedgerEventVariant → Bool) (name : String) (batchSize : NonZeroU32) (db : ChainDb)
    {id : Option UInt64} (small : (id.getD 1).toNat < 2 ^ 63)
    (inputs : List (LiveInput BlockIndexed)) :
    let s := run ((ledgerEvents grouping expected name batchSize).step backend)
      (startLedgerEvents db id) inputs
    TakenExactly (fun row => row.id) (eventsWhere (fun row => row.grouping = grouping) s.db)
      (id.getD 1).toNat s.delivered := by
  have exact := live_exact (ledgerEvents_reads backend grouping expected name batchSize) small
    (follows_start db _) inputs
  rwa [rowsDelivered_of_id rfl] at exact

/-- Each of the four subscriptions has at any time delivered exactly the rows from
its start cursor up to the last row delivered, in key order. -/
theorem live_subscriptions_exact (backend : Sql.Backend) (db : ChainDb) (batchSize : NonZeroU32) :
    (∀ address transactionId inputs, (Option.getD transactionId 0).toNat < 2 ^ 63 →
      let s := run ((unshieldedTransactions address batchSize).step backend)
        (startUnshieldedTransactions db transactionId) inputs
      TakenExactly TransactionRow.id (transactionsOf address s.db)
        (transactionId.getD 0).toNat (s.delivered.map UnshieldedTransaction.transaction)) ∧
    (∀ height inputs, height < 2 ^ 63 →
      let s := run ((blocks batchSize).step backend) (LiveFeed.start db height) inputs
      TakenExactly ChainBlock.height s.db.blocks height s.delivered) ∧
    (∀ id inputs, (Option.getD id 1).toNat < 2 ^ 63 →
      let s := run ((zswapLedgerEvents batchSize).step backend) (startLedgerEvents db id) inputs
      TakenExactly (fun row => row.id) (eventsWhere (fun row => row.grouping = .zswap) s.db)
        (id.getD 1).toNat s.delivered) ∧
    (∀ id inputs, (Option.getD id 1).toNat < 2 ^ 63 →
      let s := run ((dustLedgerEvents batchSize).step backend) (startLedgerEvents db id) inputs
      TakenExactly (fun row => row.id) (eventsWhere (fun row => row.grouping = .dust) s.db)
        (id.getD 1).toNat s.delivered) := by
  refine ⟨fun address transactionId inputs small => ?_, fun height inputs small => ?_,
    fun id inputs small => ?_, fun id inputs small => ?_⟩
  · exact live_exact (unshieldedTransactions_reads backend address batchSize) small
      (follows_start db _) inputs
  · have exact := live_exact (blocks_reads backend batchSize) small (follows_start db _) inputs
    rwa [rowsDelivered_of_id rfl] at exact
  · exact ledgerEvents_exact backend .zswap zswapLedgerEvent "zswap" batchSize db small inputs
  · exact ledgerEvents_exact backend .dust dustLedgerEvent "dust" batchSize db small inputs

/-- A block with one transaction: a UTXO for the address 1, a zswap event and a
dust event. -/
def firstBlock : ChainBlock where
  height := 1
  hash := [1]
  transactions := [{
    id := 1
    hash := [7]
    contractActions := []
    ledgerEvents := [⟨1, .zswapOutput, .zswap, none, .zswapOutput, []⟩,
      ⟨2, .paramChange, .dust, none, .paramChange, []⟩]
    createdUtxos := [⟨[1], [], 5, [3], 0, none, [], false⟩]
    spentUtxos := [] }]

def sampleInputs : List (LiveInput BlockIndexed) :=
  [.poll, .commit firstBlock, .notify ⟨1⟩, .poll, .poll, .poll]

theorem live_subscriptions_exact_sample :
    TakenExactly (fun row : LedgerEventRow => row.id)
      (eventsWhere (fun row => row.grouping = .zswap)
        (run ((zswapLedgerEvents (.ofNat 2)).step .sqlite)
          (startLedgerEvents .empty none) sampleInputs).db) 1
      (run ((zswapLedgerEvents (.ofNat 2)).step .sqlite)
        (startLedgerEvents .empty none) sampleInputs).delivered ∧
    ((run ((zswapLedgerEvents (.ofNat 2)).step .sqlite)
      (startLedgerEvents .empty none) sampleInputs).delivered.map (fun row => row.id) = [1]) ∧
    (run ((unshieldedTransactions [1] (.ofNat 2)).step .sqlite)
      (startUnshieldedTransactions .empty none)
      [.poll, .commit firstBlock, .notify ⟨[1]⟩, .poll, .poll, .poll]).delivered.map
        (fun item => item.transaction.id) = [1] :=
  ⟨(live_subscriptions_exact .sqlite .empty (.ofNat 2)).2.2.1 none sampleInputs (by decide),
    by decide, by decide⟩

end MidnightIndexer.Guarantees.LiveDelivery
