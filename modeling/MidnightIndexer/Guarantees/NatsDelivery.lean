import MidnightIndexer.Guarantees.LiveDelivery
import MidnightIndexer.Source.NatsSubscription

/-!
# What the NATS subscriber loses

Between the last query for existing transactions and the moment the NATS
subscription takes effect the subscription is blind: what is committed and published
then is delivered with the next event for the address, if there ever is one. In a
run without such a publish nothing is lost.

A UTXO is determined by its intent hash and output index, and so is its owner
(`ownerOf`): what a transaction spends is listed under the owner of the row it
marks.
-/

namespace MidnightIndexer.Guarantees.NatsDelivery

open Lib Lib.Follow List LiveDelivery Source Source.IndexerApi NatsState
open ChainIndexer (ByteVec UtxoKey UnshieldedUtxo UnshieldedUtxoRow)
open Paging (rowsFrom)
open LiveFeed (Move)

variable {ownerOf : UtxoKey → ByteVec} {address : ByteVec} {batchSize : NonZeroU32}
  {backend : Sql.Backend} {start : Nat} {db : ChainDb} {s : NatsState}

/-! ## Owners -/

def OwnedRows (ownerOf : UtxoKey → ByteVec) (rows : List UnshieldedUtxoRow) : Prop :=
  ∀ row ∈ rows, row.owner = ownerOf row.key

def OwnedTransaction (ownerOf : UtxoKey → ByteVec) (t : ChainTransaction) : Prop :=
  ∀ utxo ∈ t.createdUtxos ++ t.spentUtxos, utxo.owner = ownerOf utxo.key

variable {rows : List UnshieldedUtxoRow} {block : ChainBlock}

theorem OwnedRows.after {t : ChainTransaction} (owned : OwnedRows ownerOf rows)
    (listed : OwnedTransaction ownerOf t) : OwnedRows ownerOf (t.afterUtxos rows) := by
  intro row member
  obtain ⟨before, inside, rfl⟩ := ChainIndexer.mem_markSpent.mp member
  have same : before.owner = ownerOf before.key := by
    rcases mem_append.mp inside with old | new
    · exact owned before old
    · obtain ⟨utxo, created, rfl⟩ := mem_map.mp new
      exact listed utxo (mem_append_left _ created)
  split
  · exact same
  · exact same

/-- Who is touched is the owner of something created or spent. -/
theorem touched_owner (address : ByteVec) {after : List UnshieldedUtxoRow}
    {transactions : List ChainTransaction} (unique : (rows.map UnshieldedUtxoRow.key).Nodup)
    (saved : saveUtxos backend rows transactions = .ok after) (owned : OwnedRows ownerOf rows)
    (listed : ∀ t ∈ transactions, OwnedTransaction ownerOf t) :
    OwnedRows ownerOf after ∧ ∀ id, Touches after address id → Touches rows address id ∨
      ∃ t ∈ transactions, ∃ utxo ∈ t.createdUtxos ++ t.spentUtxos, utxo.owner = address := by
  induction transactions generalizing rows with
  | nil =>
    cases saved
    exact ⟨owned, fun id touched => .inl touched⟩
  | cons t rest ih =>
    obtain ⟨unique_after, saved⟩ := saveUtxos_cons unique saved
    obtain ⟨owned_after, later⟩ := ih unique_after saved (owned.after (listed t mem_cons_self))
      fun u member => listed u (mem_cons_of_mem _ member)
    refine ⟨owned_after, fun id touched => ?_⟩
    rcases later id touched with first | ⟨u, member, found⟩
    · rcases touches_afterUtxos first with before | ⟨_, created | ⟨row, old, owner, spent⟩⟩
      · exact .inl before
      · obtain ⟨utxo, member, owner⟩ := created
        exact .inr ⟨t, mem_cons_self, utxo, mem_append_left _ member, owner⟩
      · obtain ⟨utxo, member, same⟩ := mem_map.mp spent
        refine .inr ⟨t, mem_cons_self, utxo, mem_append_right _ member, ?_⟩
        rw [listed t mem_cons_self utxo (mem_append_right _ member), same, ← owned row old, owner]
    · exact .inr ⟨u, mem_cons_of_mem _ member, found⟩

theorem mem_affectedAddresses : address ∈ block.affectedAddresses ↔ ∃ t ∈ block.transactions,
      ∃ utxo ∈ t.createdUtxos ++ t.spentUtxos, utxo.owner = address := by
  simp only [ChainBlock.affectedAddresses, mem_dedup, mem_map, mem_flatMap]
  constructor
  · intro found
    obtain ⟨utxo, ⟨t, member, inside⟩, owner⟩ := found
    exact ⟨t, member, utxo, inside, owner⟩
  · intro found
    obtain ⟨t, member, utxo, inside, owner⟩ := found
    exact ⟨utxo, ⟨t, member, inside⟩, owner⟩

/-- A commit adds nothing for the address, or an event for it follows. -/
theorem commit_affects (backend : Sql.Backend) (address : ByteVec)
    (owned : OwnedRows ownerOf db.utxos)
    (listed : ∀ t ∈ block.transactions, OwnedTransaction ownerOf t) :
    transactionsOf address (db.commit backend block) = transactionsOf address db ∨
      ((db.commit backend block).blocks ≠ db.blocks ∧ address ∈ block.affectedAddresses) := by
  rcases db.commit_cases backend block with same | ⟨ordered, grown, saved⟩
  · exact .inl (by rw [same])
  · by_cases affected : address ∈ block.affectedAddresses
    · exact .inr ⟨by rw [grown]; simp, affected⟩
    · refine .inl ?_
      have ids := ordered.transactions.increasing
      rw [transactionRows_append, pairwise_append] at ids
      have nothing : ((transactionRows [block]).filter fun t =>
          Touches (db.commit backend block).utxos address t.id) = [] := by
        rw [filter_eq_nil_iff]
        intro t new touched
        rcases (touched_owner address db.keys saved owned listed).2 t.id
          (of_decide_eq_true touched) with
          before | found
        · obtain ⟨old, member, same⟩ := mem_map.mp (db.references address t.id before)
          have less := ids.2.2 old member t new
          exact absurd same (Nat.ne_of_lt less)
        · exact affected (mem_affectedAddresses.mpr found)
      rw [transactionsOf_committed address ordered grown saved, nothing, append_nil]

/-! ## The run -/

/-- Nothing is published for the address while the subscription is blind. -/
def NotBlind (ownerOf : UtxoKey → ByteVec) (address : ByteVec) (s : NatsState) : NatsInput → Prop
  | .commit block => ∀ t ∈ block.transactions, OwnedTransaction ownerOf t
  | .publish affected =>
    s.live.phase = .waiting → s.established = false → affected ≠ address
  | .establish => True
  | .poll => True

/-- Between two streams everything has been delivered, or an event for the address
is on its way. -/
structure Tracking (ownerOf : UtxoKey → ByteVec) (address : ByteVec) (batchSize : NonZeroU32)
    (start : Nat) (s : NatsState) : Prop where
  owned : OwnedRows ownerOf s.live.db.utxos
  follows : Follows (unshieldedTransactions address batchSize) (transactionsOf address) start s.live
  caughtUp : s.live.phase = .waiting →
    s.live.delivered.map UnshieldedTransaction.transaction =
      rowsFrom TransactionRow.id (transactionsOf address s.live.db) start ∨
    address ∈ s.unpublished ∨ ⟨address⟩ ∈ s.live.queue

theorem OwnedRows.commit (owned : OwnedRows ownerOf db.utxos)
    (listed : ∀ t ∈ block.transactions, OwnedTransaction ownerOf t) :
    OwnedRows ownerOf (db.commit backend block).utxos := by
  rcases db.commit_cases backend block with same | ⟨_, _, saved⟩
  · rw [same]
    exact owned
  · exact (touched_owner [] db.keys saved owned listed).1

theorem Tracking.commit (inv : Tracking ownerOf address batchSize start s)
    (listed : ∀ t ∈ block.transactions, OwnedTransaction ownerOf t) :
    Tracking ownerOf address batchSize start (s.commit backend block) := by
  refine ⟨inv.owned.commit listed,
    inv.follows.commit (unshieldedTransactions_reads backend address batchSize) block,
    fun phase => ?_⟩
  have kept : address ∈ s.unpublished → address ∈ (s.commit backend block).unpublished := by
    intro member
    dsimp only [NatsState.commit]
    split
    · exact member
    · exact mem_append_left _ member
  rcases commit_affects backend address inv.owned listed with
    same | ⟨grown, affected⟩
  · rcases inv.caughtUp phase with all | waiting | queued
    · exact .inl (all.trans (by simp only [NatsState.commit, same]))
    · exact .inr (.inl (kept waiting))
    · exact .inr (.inr queued)
  · refine .inr (.inl ?_)
    dsimp only [NatsState.commit]
    rw [if_neg grown]
    exact mem_append_right _ affected

theorem Tracking.publish (inv : Tracking ownerOf address batchSize start s) {affected : ByteVec}
    (seen : s.live.phase = .waiting → s.established = false → affected ≠ address) :
    Tracking ownerOf address batchSize start (s.publish affected) := by
  unfold NatsState.publish
  split
  · cases established : s.established with
    | true =>
      refine ⟨inv.owned, inv.follows.queue _, fun phase => ?_⟩
      rcases inv.caughtUp phase with all | waiting | queued
      · exact .inl all
      · by_cases same : affected = address
        · exact .inr (.inr (by simp [same]))
        · exact .inr (.inl ((mem_erase_of_ne (Ne.symm same)).mpr waiting))
      · exact .inr (.inr (mem_append_left _ queued))
    | false =>
      refine ⟨inv.owned, inv.follows, fun phase => ?_⟩
      rcases inv.caughtUp phase with all | waiting | queued
      · exact .inl all
      · have other := seen phase established
        exact .inr (.inl ((mem_erase_of_ne (Ne.symm other)).mpr waiting))
      · exact .inr (.inr queued)
  · exact inv

theorem Tracking.poll (small : start < 2 ^ 63) (inv : Tracking ownerOf address batchSize start s) :
    Tracking ownerOf address batchSize start
      { s with live := (unshieldedTransactions address batchSize).poll s.live } := by
  have reads := unshieldedTransactions_reads .sqlite address batchSize
  have move := LiveFeed.poll_move (unshieldedTransactions address batchSize) s.live
  have follows := inv.follows.move reads small move
  refine ⟨move.db_eq ▸ inv.owned, follows, ?_⟩
  dsimp only
  generalize (unshieldedTransactions address batchSize).poll s.live = live at move follows ⊢
  cases move with
  | begin phase => exact absurd phase inv.follows.opened
  | deliver phase _ | pass phase _ | fail phase _ | fetch phase _ | take phase _ _ =>
    nofun
  | @exhaust lastRound cursor phase empty =>
    intro _
    have all := inv.follows.exhausted reads small phase empty
    exact .inl all
  | @ignore event queue phase queued other =>
    intro waiting
    refine (inv.caughtUp waiting).imp_right (Or.imp_right fun expected => ?_)
    rw [queued, mem_cons] at expected
    refine expected.resolve_left fun same => ?_
    rw [← same] at other
    simp [unshieldedTransactions] at other
  | idle => exact inv.caughtUp

theorem Tracking.step (small : start < 2 ^ 63) (inv : Tracking ownerOf address batchSize start s)
    (input : NatsInput) (seen : NotBlind ownerOf address s input) :
    Tracking ownerOf address batchSize start
      (s.step (unshieldedTransactions address batchSize) backend input) := by
  cases input with
  | commit block => exact inv.commit seen
  | publish affected => exact inv.publish seen
  | establish =>
    rw [NatsState.step, NatsState.establish]
    split
    · exact ⟨inv.owned, inv.follows, inv.caughtUp⟩
    · exact inv
  | poll => exact inv.poll small

/-- Every event has been published and every event received has been processed. -/
def Quiet (s : NatsState) : Prop :=
  s.live.phase = .waiting ∧ s.live.queue = [] ∧ s.unpublished = []

/-- No event is received before the subscription takes effect. -/
def Unheard (s : NatsState) : Prop := s.established = false → s.live.queue = []

variable {feed : LiveFeed UnshieldedUtxoIndexed TransactionRow UnshieldedTransaction}

theorem Unheard.step (unheard : Unheard s) (input : NatsInput) :
    Unheard (s.step feed backend input) := by
  cases input with
  | commit block => exact unheard
  | publish affected =>
    rw [NatsState.step, NatsState.publish]
    split
    · intro blind
      dsimp only at blind
      simp only [blind, Bool.false_eq_true, if_false]
      exact unheard blind
    · exact unheard
  | establish =>
    rw [NatsState.step, NatsState.establish]
    split
    · nofun
    · exact unheard
  | poll =>
    intro blind
    have move := LiveFeed.poll_move feed s.live
    have silent := unheard blind
    dsimp only [NatsState.step]
    generalize feed.poll s.live = live at move
    cases move with
    | take _ queued _ | ignore _ queued _ =>
      simp [silent] at queued
    | _ => exact silent

/-- A last event that is published while the subscription is blind is forgotten. -/
theorem run_blind_publish (phase : s.live.phase = .waiting) (blind : s.established = false)
    (silent : s.live.queue = []) (left : s.unpublished = [address]) :
    run (step feed backend) s [.publish address, .establish, .poll] =
      { s with unpublished := [], established := true } := by
  have published : s.publish address = { s with unpublished := [] } := by
    simp [publish, left, blind]
  have idle : feed.poll s.live = s.live := by
    simp only [LiveFeed.poll, phase, silent]
  simp only [run_cons, run_nil, step, published, establish, phase, if_true, idle]

/-- If nothing is published for the address while the subscription is blind, then at
rest every transaction that touches the address has been delivered. A last event
that is published while it is blind leaves the subscription at rest with what it
had. -/
theorem nats_delivers_unless_blind (backend : Sql.Backend) (ownerOf : UtxoKey → ByteVec)
    (address : ByteVec) (batchSize : NonZeroU32) (db : ChainDb) (transactionId : Option UInt64)
    (inputs : List NatsInput) :
    let step := NatsState.step (unshieldedTransactions address batchSize) backend
    let s := run step (.start db transactionId) inputs
    (OwnedRows ownerOf db.utxos →
      Guarded step (NotBlind ownerOf address) (.start db transactionId) inputs →
      Quiet s → ∀ t ∈ transactionRows s.live.db.blocks, Touches s.live.db.utxos address t.id →
        (transactionId.getD 0).toNat ≤ t.id →
          t ∈ s.live.delivered.map UnshieldedTransaction.transaction) ∧
    (s.live.phase = .waiting → s.established = false → s.unpublished = [address] →
      let later := run step s [.publish address, .establish, .poll]
      Quiet later ∧ later.established = true ∧ later.live.db = s.live.db ∧
        later.live.delivered = s.live.delivered) := by
  intro step s
  constructor
  · intro owned seen quiet t member touched from_start
    -- No transaction has an id beyond the column.
    have bound := s.live.db.ordered.transactions.successor t member
    have small : (transactionId.getD 0).toNat < 2 ^ 63 := by omega
    have keep : ∀ s input, Tracking ownerOf address batchSize (transactionId.getD 0).toNat s →
        NotBlind ownerOf address s input →
        Tracking ownerOf address batchSize (transactionId.getD 0).toNat (step s input) :=
      fun _ input inv seen => inv.step small input seen
    have initially : Tracking ownerOf address batchSize (transactionId.getD 0).toNat
        (.start db transactionId) :=
      ⟨owned, follows_start db _, nofun⟩
    have inv : Tracking ownerOf address batchSize _ s := run_invariant keep _ inputs initially seen
    obtain ⟨phase, queue, unpublished⟩ := quiet
    have all := (inv.caughtUp phase).resolve_right (by simp [queue, unpublished])
    rw [all]
    exact mem_rowsFrom.mpr ⟨List.mem_filter.mpr ⟨member, by simpa using touched⟩, from_start⟩
  · intro phase blind left
    have keep : ∀ s input, Unheard s → Unheard (step s input) :=
      fun _ input unheard => unheard.step input
    have unheard : Unheard s := run_keeps keep _ inputs fun _ => rfl
    have silent := unheard blind
    rw [run_blind_publish phase blind silent left]
    exact ⟨⟨phase, silent, rfl⟩, rfl, rfl, rfl⟩

/-- The subscription takes effect before the event is published. -/
def seenInputs : List NatsInput :=
  [.poll, .commit firstBlock, .establish, .publish [1], .poll, .poll, .poll, .poll]

theorem nats_delivers_sample :
    let s := run (NatsState.step (unshieldedTransactions [1] (.ofNat 2)) .postgres)
      (.start .empty none) seenInputs
    Quiet s ∧ ⟨1, [7], 1⟩ ∈ s.live.delivered.map UnshieldedTransaction.transaction := by
  have owned : OwnedRows (fun _ => [1]) ChainDb.empty.utxos :=
    fun row member => (List.not_mem_nil member).elim
  have seen : Guarded (NatsState.step (unshieldedTransactions [1] (.ofNat 2)) .postgres)
      (NotBlind (fun _ => [1]) [1]) (.start .empty none) seenInputs := by
    refine ⟨trivial, ?_, trivial, ?_, trivial, trivial, trivial, trivial, trivial⟩
    · simp [NotBlind, OwnedTransaction, firstBlock]
    · intro _ blind
      exact absurd blind (by decide)
  have quiet : Quiet (run (NatsState.step (unshieldedTransactions [1] (.ofNat 2)) .postgres)
      (.start .empty none) seenInputs) := ⟨by decide, by decide, by decide⟩
  exact ⟨quiet, (nats_delivers_unless_blind .postgres (fun _ => [1]) [1] (.ofNat 2) .empty none
    seenInputs).1 owned seen quiet _ (by decide) (by decide) (by decide)⟩

/-- A block is committed and published after the last query and before the
subscription takes effect: its transaction is not delivered. -/
theorem blind_publish_lost :
    let s := run (NatsState.step (unshieldedTransactions [1] (.ofNat 2)) .postgres)
      (.start .empty none) [.poll, .commit firstBlock, .publish [1], .establish, .poll]
    Quiet s ∧ s.established = true ∧
      (∃ t ∈ transactionRows s.live.db.blocks, Touches s.live.db.utxos [1] t.id ∧ t.id = 1) ∧
      s.live.delivered = [] :=
  ⟨⟨by decide, by decide, by decide⟩, by decide, by decide, by decide⟩

end MidnightIndexer.Guarantees.NatsDelivery
