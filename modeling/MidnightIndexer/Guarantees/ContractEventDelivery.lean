import MidnightIndexer.Guarantees.LiveDelivery

/-!
# What `contractEvents` delivers

With `toBlock` the subscription looks at the height before each drain, so when it
ends the last drain has seen every block up to `toBlock`. Blocks that are committed
later are above and hold no matching event.
-/

namespace MidnightIndexer.Guarantees.ContractEventDelivery

open Lib Lib.Follow List LiveDelivery Source Source.IndexerApi
open Paging (rowsFrom)
open LiveFeed (Move)

/-- What the filter asks for. -/
structure Matches (filter : ContractEventFilter) (row : LedgerEventRow) : Prop where
  grouping : row.grouping = .contract
  contractAddress : row.contractAddress = some filter.contractAddress
  variants : filter.variants = [] ∨ row.variant ∈ filter.variants
  fromBlock : ∀ height ∈ filter.fromBlock, height.toNat ≤ row.blockHeight
  toBlock : ∀ height ∈ filter.toBlock, row.blockHeight ≤ height.toNat
  transactionHash : ∀ hash ∈ filter.transactionHash, row.transactionHash = hash
  fieldPrefixes : ∀ field ∈ filter.fieldPrefixes,
    ∃ value, (field.1, value) ∈ row.indexedFields ∧ field.2 <+: value

theorem selects_iff {filter : ContractEventFilter} {row : LedgerEventRow} :
    filter.selects row = true ↔ Matches filter row := by
  have starts : ∀ bytes value : ChainIndexer.ByteVec,
      value.take bytes.length = bytes ↔ bytes <+: value :=
    fun bytes value => by rw [List.prefix_iff_eq_take, eq_comm]
  simp only [ContractEventFilter.selects, Bool.and_eq_true, Bool.or_eq_true, decide_eq_true_eq,
    List.isEmpty_iff, List.contains_iff_mem, Option.all_eq_true, List.all_eq_true,
    List.any_eq_true, starts]
  constructor
  · intro selected
    obtain ⟨⟨⟨⟨⟨⟨grouping, address⟩, variants⟩, low⟩, high⟩, hash⟩, fields⟩ := selected
    refine ⟨grouping, address, variants, low, high, hash, fun field member => ?_⟩
    obtain ⟨⟨name, value⟩, found, same, starting⟩ := fields field member
    exact ⟨value, same ▸ found, starting⟩
  · intro matching
    refine ⟨⟨⟨⟨⟨⟨matching.grouping, matching.contractAddress⟩, matching.variants⟩,
      matching.fromBlock⟩, matching.toBlock⟩, matching.transactionHash⟩, fun field member => ?_⟩
    obtain ⟨value, found, starting⟩ := matching.fieldPrefixes field member
    exact ⟨(field.1, value), found, rfl, starting⟩

variable {filter : ContractEventFilter} {batchSize : NonZeroU32} {backend : Sql.Backend}
  {start : Nat} {s t : LiveState BlockIndexed LedgerEventRow LedgerEventRow}

theorem contractEvents_reads (backend : Sql.Backend) (filter : ContractEventFilter)
    (batchSize : NonZeroU32) :
    Reads (contractEvents filter batchSize) backend (eventsWhere filter.selects)
      batchSize.val := by
  apply reads_of_rows batchSize (eventsWhere_serial _) (fun _ _ => rfl) _ rfl (eventsWhere_grows _)
  intro db row made found
  dsimp only [contractEvents] at found
  split at found
  · cases found
    rfl
  · cases found

/-! ## The end of the range -/

/-- The chain has reached `toBlock`. -/
def Closed (filter : ContractEventFilter) (db : ChainDb) : Prop :=
  ∃ toBlock ∈ filter.toBlock, ∃ block ∈ db.blocks, toBlock.toNat ≤ block.height

variable {db : ChainDb}

theorem Closed.commit (closed : Closed filter db) (block : ChainBlock) :
    Closed filter (db.commit backend block) := by
  obtain ⟨toBlock, bound, old, member, reached⟩ := closed
  exact ⟨toBlock, bound, old, (commit_blocks backend db block).subset member, reached⟩

theorem Closed.events (closed : Closed filter db) (block : ChainBlock) :
    eventsWhere filter.selects (db.commit backend block) = eventsWhere filter.selects db := by
  rcases db.commit_cases backend block with same | ⟨ordered, grown, _⟩
  · rw [same]
  · obtain ⟨toBlock, bound, old, member, reached⟩ := closed
    have above := ordered.above old member
    have nothing : (ledgerEventRows [block]).filter filter.selects = [] := by
      rw [filter_eq_nil_iff]
      intro row new selected
      have low := (selects_iff.mp selected).toBlock toBlock bound
      rw [ledgerEventRow_height new] at low
      omega
    rw [eventsWhere, grown, ledgerEventRows_append, filter_append, nothing, append_nil, eventsWhere]

theorem reachedToBlock_closed (reached : filter.reachedToBlock db = true) : Closed filter db := by
  unfold ContractEventFilter.reachedToBlock at reached
  split at reached
  · cases reached
  next toBlock bound =>
    obtain ⟨height, latest, low⟩ := Option.any_eq_true _ _ |>.mp reached
    obtain ⟨block, member, rfl⟩ := ChainDb.latestHeight_mem latest
    exact ⟨toBlock, bound, block, member, of_decide_eq_true low⟩

/-! ## The run -/

/-- A subscription that follows its events, and ends only behind a closed range. -/
structure Delivering (filter : ContractEventFilter) (batchSize : NonZeroU32) (start : Nat)
    (s : LiveState BlockIndexed LedgerEventRow LedgerEventRow) : Prop where
  follows : (s.phase = .opening ∧ s.delivered = [] ∧ s.id = start) ∨
    Follows (contractEvents filter batchSize) (eventsWhere filter.selects) start s
  queue : ∀ event ∈ s.queue, ∃ block ∈ s.db.blocks, block.height = event.height
  closing : ∀ cursor buffer, s.phase = .streaming true cursor buffer → Closed filter s.db
  ended : s.phase = .done → Closed filter s.db ∧
    s.delivered = rowsFrom (fun row => row.id) (eventsWhere filter.selects s.db) start

theorem Delivering.commit (inv : Delivering filter batchSize start s) (block : ChainBlock) :
    Delivering filter batchSize start { s with db := s.db.commit backend block } where
  follows := inv.follows.imp id fun follows =>
    follows.commit (contractEvents_reads backend filter batchSize) block
  queue event queued := by
    obtain ⟨old, member, same⟩ := inv.queue event queued
    exact ⟨old, (commit_blocks backend s.db block).subset member, same⟩
  closing cursor buffer phase := (inv.closing cursor buffer phase).commit block
  ended phase := by
    obtain ⟨closed, all⟩ := inv.ended phase
    exact ⟨closed.commit block, by rw [closed.events block]; exact all⟩

theorem Delivering.notify (inv : Delivering filter batchSize start s) {event : BlockIndexed}
    (published : event.published s.db = true) :
    Delivering filter batchSize start { s with queue := s.queue ++ [event] } where
  follows := inv.follows
  queue other queued := by
    rcases mem_append.mp queued with old | new
    · exact inv.queue other old
    · rw [mem_singleton.mp new]
      simpa [BlockIndexed.published] using published
  closing := inv.closing
  ended := inv.ended

theorem lastRound_closed {event : BlockIndexed}
    (last : (contractEvents filter batchSize).lastRound event = true)
    (published : ∃ block ∈ db.blocks, block.height = event.height) : Closed filter db := by
  obtain ⟨toBlock, bound, reached⟩ := Option.any_eq_true _ _ |>.mp last
  obtain ⟨block, member, same⟩ := published
  exact ⟨toBlock, bound, block, member, same ▸ of_decide_eq_true reached⟩

theorem Delivering.poll (small : start < 2 ^ 63) (inv : Delivering filter batchSize start s) :
    Delivering filter batchSize start ((contractEvents filter batchSize).poll s) := by
  have reads := contractEvents_reads .sqlite filter batchSize
  have move := LiveFeed.poll_move (contractEvents filter batchSize) s
  have follows : Follows (contractEvents filter batchSize) (eventsWhere filter.selects) start
      ((contractEvents filter batchSize).poll s) := by
    rcases inv.follows with ⟨phase, nothing, rfl⟩ | follows
    · exact follows_opened nothing phase
    · exact follows.move reads small move
  generalize (contractEvents filter batchSize).poll s = t at move follows ⊢
  cases move with
  | begin phase =>
    refine ⟨.inr follows, inv.queue, fun cursor buffer same => ?_, nofun⟩
    exact reachedToBlock_closed (LivePhase.streaming.inj same).1
  | deliver phase _ | pass phase _ | fetch phase _ =>
    refine ⟨.inr follows, inv.queue, fun cursor buffer same => ?_, nofun⟩
    cases same
    exact inv.closing _ _ phase
  | fail phase made =>
    exact ⟨.inr follows, inv.queue, nofun, nofun⟩
  | @exhaust lastRound cursor phase empty =>
    refine ⟨.inr follows, inv.queue, fun _ _ same => (by cases lastRound <;> cases same),
      fun done => ?_⟩
    cases lastRound with
    | false => cases done
    | true =>
      have before := inv.follows.resolve_left fun opening => by
        rw [phase] at opening
        cases opening.1
      have all := before.exhausted reads small phase empty
      rw [rowsDelivered_of_id rfl] at all
      exact ⟨inv.closing _ _ phase, all⟩
  | @take event queue phase queued concerned =>
    have published : ∀ other ∈ event :: queue, ∃ block ∈ s.db.blocks, block.height = other.height :=
      queued ▸ inv.queue
    refine ⟨.inr follows, fun other later => published other (mem_cons_of_mem _ later),
      fun cursor buffer same => ?_, nofun⟩
    exact lastRound_closed (LivePhase.streaming.inj same).1 (published event mem_cons_self)
  | @ignore event queue phase queued other =>
    have published : ∀ other ∈ event :: queue, ∃ block ∈ s.db.blocks, block.height = other.height :=
      queued ▸ inv.queue
    exact ⟨.inr follows, fun other later => published other (mem_cons_of_mem _ later),
      inv.closing, inv.ended⟩
  | idle => exact inv

theorem Delivering.step (small : start < 2 ^ 63) (inv : Delivering filter batchSize start s)
    (input : LiveInput BlockIndexed) :
    Delivering filter batchSize start ((contractEvents filter batchSize).step backend s input) := by
  cases input with
  | commit block => exact inv.commit block
  | notify event =>
    rw [LiveFeed.step]
    split
    next published => exact inv.notify published
    next => exact inv
  | poll => exact inv.poll small

def pausedAt (height : Nat) : ChainBlock where
  height := height
  hash := [1]
  transactions := [{
    id := height
    hash := [7]
    contractActions := []
    ledgerEvents := [⟨height, .paused, .contract, some [9], .paused, []⟩]
    createdUtxos := []
    spentUtxos := [] }]

/-- The contract's events up to block 1. -/
def upToOne : ContractEventFilter where
  contractAddress := [9]
  variants := []
  fieldPrefixes := []
  fromBlock := none
  toBlock := some 1
  transactionHash := none

end MidnightIndexer.Guarantees.ContractEventDelivery
