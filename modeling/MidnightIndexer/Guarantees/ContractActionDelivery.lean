import MidnightIndexer.Guarantees.LiveDelivery

/-!
# What `contractActions` delivers

The subscription starts at the first action of any contract at or above the
resolved height, and ids increase with the height. Without such an action it
starts at id 0 and delivers everything the contract has ever done.
-/

namespace MidnightIndexer.Guarantees.ContractActionDelivery

open Lib Lib.Follow List LiveDelivery Source Source.IndexerApi LiveFeed
open Paging (rowsFrom)
open LiveFeed (Move)

variable {address : ChainIndexer.ByteVec} {height start : Nat} {batchSize : NonZeroU32}
  {backend : Sql.Backend} {db : ChainDb}
  {s t : LiveState BlockIndexed ContractActionRow ContractActionRow}

def actionsOf (address : ChainIndexer.ByteVec) (db : ChainDb) : List ContractActionRow :=
  (contractActionRows db.blocks).filter fun row => row.address = address

variable {row : ContractActionRow}

theorem mem_actionsOf :
    row ∈ actionsOf address db ↔ row ∈ contractActionRows db.blocks ∧ row.address = address := by
  simp [actionsOf]

theorem actionsOf_serial (address : ChainIndexer.ByteVec) (db : ChainDb) :
    Serial (fun row => row.id) (2 ^ 63) (actionsOf address db) :=
  db.ordered.contractActions.sublist filter_sublist

theorem actionsOf_grows (address : ChainIndexer.ByteVec) (db : ChainDb) (block : ChainBlock) :
    actionsOf address db <+: actionsOf address (db.commit backend block) :=
  (table_grows contractActionRows_append backend db block).filter _

theorem contractActions_reads (backend : Sql.Backend) (address : ChainIndexer.ByteVec)
    (height : Nat) (batchSize : NonZeroU32) :
    Reads (contractActions address height batchSize) backend (actionsOf address)
      batchSize.val := by
  apply reads_of_rows batchSize (actionsOf_serial address) (fun _ _ => rfl) _ rfl
    (actionsOf_grows address)
  intro db row made found
  cases found
  rfl

/-! ## Ids and heights -/

theorem actionRows_heights (db : ChainDb) :
    (contractActionRows db.blocks).Pairwise fun a b => a.blockHeight ≤ b.blockHeight := by
  have placed : ∀ block : ChainBlock, ∀ row ∈ block.transactions.flatMap fun t =>
      t.contractActions.map fun action => (⟨action, block.height⟩ : ContractActionRow),
      row.blockHeight = block.height :=
    fun block row member => contractActionRow_height (by simpa [contractActionRows] using member)
  rw [contractActionRows, pairwise_flatMap]
  constructor
  · intro block _
    refine pairwise_of_forall_mem_list fun a a_row b b_row => ?_
    rw [placed block a a_row, placed block b b_row]
  · apply db.ordered.heights.increasing.imp
    intro low high less a a_row b b_row
    rw [placed low a a_row, placed high b b_row]
    exact less.le

theorem height_le_of_id_le {a b : ContractActionRow} (a_row : a ∈ contractActionRows db.blocks)
    (b_row : b ∈ contractActionRows db.blocks) (less : a.id ≤ b.id) :
    a.blockHeight ≤ b.blockHeight :=
  db.ordered.contractActions.related (actionRows_heights db) (fun _ => Nat.le_refl _) a_row b_row
    less

/-- The action found separates the actions below the height from the others. -/
theorem firstAction_some {id : Nat} (found : getContractActionIdByBlockHeight db height = some id) :
    (∃ row ∈ contractActionRows db.blocks, row.id = id) ∧
      ∀ row ∈ contractActionRows db.blocks, id ≤ row.id ↔ height ≤ row.blockHeight := by
  obtain ⟨first, head, rfl⟩ := Option.map_eq_some_iff.mp found
  have unique := (db.ordered.contractActions.sublist
    (filter_sublist (p := fun row => height ≤ row.blockHeight))).unique
  obtain ⟨selected, least⟩ := Sql.orderBy_head head
  obtain ⟨first_row, reached⟩ := mem_filter.mp selected
  have reached : height ≤ first.blockHeight := of_decide_eq_true reached
  refine ⟨⟨first, first_row, rfl⟩, fun row member => ⟨fun later => ?_, fun high => ?_⟩⟩
  · exact reached.trans (height_le_of_id_le first_row member later)
  · exact least row (mem_filter.mpr ⟨member, by simpa using high⟩)

theorem firstAction_none (nothing : getContractActionIdByBlockHeight db height = none) :
    ∀ row ∈ contractActionRows db.blocks, row.blockHeight < height := by
  rw [getContractActionIdByBlockHeight, Option.map_eq_none_iff, head?_eq_none_iff,
    Sql.orderBy_eq_nil, filter_eq_nil_iff] at nothing
  intro row member
  simpa using nothing row member

/-! ## The run -/

/-- All actions in later blocks will be wanted. -/
def Placed (height : Nat) (db : ChainDb) : Prop :=
  (∃ block ∈ db.blocks, block.height = height) ∨ height = 0

/-- There is an action at or above the height, or the contract has none below. -/
def StartKnown (address : ChainIndexer.ByteVec) (height : Nat) (db : ChainDb) : Prop :=
  (∃ row ∈ contractActionRows db.blocks, height ≤ row.blockHeight) ∨
    ∀ row ∈ actionsOf address db, height ≤ row.blockHeight

/-- The start id separates the contract's actions by the height, and will do so for
the actions to come. -/
structure Separates (address : ChainIndexer.ByteVec) (height start : Nat) (db : ChainDb) : Prop where
  small : start < 2 ^ 63
  known : start = 0 ∨ ∃ row ∈ contractActionRows db.blocks, row.id = start
  exact : ∀ row ∈ actionsOf address db, start ≤ row.id ↔ height ≤ row.blockHeight

theorem startKnown_separates (known : StartKnown address height db) :
    Separates address height ((getContractActionIdByBlockHeight db height).getD 0) db := by
  cases found : getContractActionIdByBlockHeight db height with
  | some id =>
    obtain ⟨⟨row, member, rfl⟩, separated⟩ := firstAction_some found
    have bound := db.ordered.contractActions.successor row member
    refine ⟨?_, .inr ⟨row, member, rfl⟩, fun row member => ?_⟩
    · simp only [Option.getD_some]
      omega
    · exact separated row (mem_actionsOf.mp member).1
  | none =>
    have low := firstAction_none found
    have high := known.resolve_left fun ⟨row, member, reached⟩ => by
      have := low row member
      omega
    exact ⟨by simp, .inl rfl, fun row member => iff_of_true (by simp) (high row member)⟩

theorem Placed.commit (placed : Placed height db) (block : ChainBlock) :
    Placed height (db.commit backend block) :=
  placed.imp_left fun ⟨old, member, same⟩ =>
    ⟨old, (commit_blocks backend db block).subset member, same⟩

theorem commit_actionRow (placed : Placed height db) {block : ChainBlock}
    (member : row ∈ contractActionRows (db.commit backend block).blocks) :
    row ∈ contractActionRows db.blocks ∨
      (height ≤ row.blockHeight ∧ ∀ old ∈ contractActionRows db.blocks, old.id < row.id) := by
  rcases db.commit_cases backend block with same | ⟨ordered, grown, _⟩
  · exact .inl (same ▸ member)
  · have ids := ordered.contractActions.increasing
    rw [contractActionRows_append, pairwise_append] at ids
    rw [grown, contractActionRows_append, mem_append] at member
    refine member.imp_right fun new => ⟨?_, fun old old_row => ids.2.2 old old_row row new⟩
    rw [contractActionRow_height new]
    rcases placed with ⟨old, old_block, rfl⟩ | rfl
    · exact (ordered.above old old_block).le
    · exact Nat.zero_le _

theorem actionRows_subset (block : ChainBlock) (member : row ∈ contractActionRows db.blocks) :
    row ∈ contractActionRows (db.commit backend block).blocks :=
  (table_grows contractActionRows_append backend db block).subset member

theorem StartKnown.commit (placed : Placed height db) (known : StartKnown address height db)
    (block : ChainBlock) : StartKnown address height (db.commit backend block) := by
  rcases known with ⟨row, member, reached⟩ | high
  · exact .inl ⟨row, actionRows_subset block member, reached⟩
  · refine .inr fun row member => ?_
    obtain ⟨inside, named⟩ := mem_actionsOf.mp member
    rcases commit_actionRow placed inside with old | ⟨new, _⟩
    · exact high row (mem_actionsOf.mpr ⟨old, named⟩)
    · exact new

theorem Separates.commit (placed : Placed height db) (separates : Separates address height start db)
    (block : ChainBlock) : Separates address height start (db.commit backend block) := by
  refine ⟨separates.small, separates.known.imp_right fun ⟨row, member, same⟩ =>
    ⟨row, actionRows_subset block member, same⟩, fun row member => ?_⟩
  obtain ⟨inside, named⟩ := mem_actionsOf.mp member
  rcases commit_actionRow placed inside with old | ⟨new, later⟩
  · exact separates.exact row (mem_actionsOf.mpr ⟨old, named⟩)
  · refine iff_of_true ?_ new
    rcases separates.known with rfl | ⟨first, first_row, rfl⟩
    · exact Nat.zero_le _
    · exact (later first first_row).le

/-- A subscription that has not begun and will find its start, or that follows the
contract's actions from a start id that separates them. -/
structure Delivering (address : ChainIndexer.ByteVec) (height : Nat) (batchSize : NonZeroU32)
    (s : LiveState BlockIndexed ContractActionRow ContractActionRow) : Prop where
  placed : Placed height s.db
  follows : (s.phase = .opening ∧ s.delivered = [] ∧ StartKnown address height s.db) ∨
    ∃ start, Separates address height start s.db ∧
      Follows (contractActions address height batchSize) (actionsOf address) start s

theorem Delivering.step (inv : Delivering address height batchSize s)
    (input : LiveInput BlockIndexed) : Delivering address height batchSize
      ((contractActions address height batchSize).step backend s input) := by
  have reads := contractActions_reads backend address height batchSize
  cases input with
  | commit block =>
    refine ⟨inv.placed.commit block, ?_⟩
    rcases inv.follows with ⟨phase, nothing, known⟩ | ⟨start, separates, follows⟩
    · exact .inl ⟨phase, nothing, known.commit inv.placed block⟩
    · exact .inr ⟨start, separates.commit inv.placed block, follows.commit reads block⟩
  | notify event =>
    rw [LiveFeed.step]
    split
    · exact ⟨inv.placed, inv.follows⟩
    · exact inv
  | poll =>
    have move := poll_move (contractActions address height batchSize) s
    have same_db := move.db_eq
    refine ⟨same_db ▸ inv.placed, .inr ?_⟩
    rcases inv.follows with ⟨phase, nothing, known⟩ | ⟨start, separates, follows⟩
    · refine ⟨_, ?_, follows_opened nothing phase⟩
      rw [LiveFeed.step, same_db]
      exact startKnown_separates known
    · exact ⟨start, same_db ▸ separates, follows.move reads separates.small move⟩

/-- The subscription has emitted the contract's actions from the height on, up to
the last one emitted, in id order; and a stream only ends when all are emitted. -/
structure EmitsActions (address : ChainIndexer.ByteVec) (height : Nat) (batchSize : NonZeroU32)
    (s : LiveState BlockIndexed ContractActionRow ContractActionRow) : Prop where
  increasing : s.delivered.Pairwise fun a b => a.id < b.id
  exact : ∀ row, row ∈ s.delivered ↔ row ∈ contractActionRows s.db.blocks ∧
    row.address = address ∧ height ≤ row.blockHeight ∧
    ∃ last ∈ s.delivered.getLast?, row.id ≤ last.id
  complete : ∀ lastRound cursor, s.phase = .streaming lastRound cursor [] →
    (contractActions address height batchSize).page s.db cursor = [] →
    ∀ row ∈ contractActionRows s.db.blocks, row.address = address → height ≤ row.blockHeight →
      row ∈ s.delivered

theorem Delivering.emits (inv : Delivering address height batchSize s) :
    EmitsActions address height batchSize s := by
  rcases inv.follows with ⟨phase, nothing, _⟩ | ⟨start, separates, follows⟩
  · refine ⟨by simp [nothing], by simp [nothing], fun lastRound cursor same => ?_⟩
    simp [phase] at same
  · have delivered := follows.delivered
    rw [rowsDelivered_of_id rfl] at delivered
    have exact := reads_exact (actionsOf_serial address s.db).increasing delivered
    refine ⟨exact.1, fun row => ?_, fun lastRound cursor phase empty row member named high => ?_⟩
    · rw [exact.mem_iff]
      constructor
      · intro emitted
        obtain ⟨inside, reached, last⟩ := emitted
        obtain ⟨member, named⟩ := mem_actionsOf.mp inside
        exact ⟨member, named, (separates.exact row inside).mp reached, last⟩
      · intro wanted
        obtain ⟨member, named, high, last⟩ := wanted
        have inside := mem_actionsOf.mpr ⟨member, named⟩
        exact ⟨inside, (separates.exact row inside).mpr high, last⟩
    · have all := follows.exhausted (contractActions_reads .sqlite address height batchSize)
        separates.small phase empty
      rw [rowsDelivered_of_id rfl] at all
      have inside := mem_actionsOf.mpr ⟨member, named⟩
      rw [all]
      exact mem_rowsFrom.mpr ⟨inside, (separates.exact row inside).mpr high⟩

/-- Without an action at or above the height the first action delivered is the
contract's very first. -/
theorem first_delivered (backend : Sql.Backend) (batchSize : NonZeroU32)
    (low : ∀ row ∈ contractActionRows db.blocks, row.blockHeight < height)
    {first : ContractActionRow} {rest : List ContractActionRow}
    (actions : actionsOf address db = first :: rest) :
    (run ((contractActions address height batchSize).step backend) (startContractActions db)
      [.poll, .poll, .poll]).delivered = [first] := by
  have nothing : getContractActionIdByBlockHeight db height = none := by
    cases found : getContractActionIdByBlockHeight db height with
    | none => rfl
    | some id =>
      obtain ⟨⟨row, member, rfl⟩, separated⟩ := firstAction_some found
      have high := (separated row member).mp (Nat.le_refl _)
      exact absurd (low row member) (Nat.not_lt.mpr high)
  have page : (contractActions address height batchSize).page db 0 =
      first :: rest.take (batchSize.val - 1) := by
    rw [(contractActions_reads backend address height batchSize).page db 0 (by omega),
      Paging.page, rowsFrom, actions, filter_eq_self.mpr (by simp),
      take_cons batchSize.pos]
  have opened : (contractActions address height batchSize).poll (startContractActions db) =
      ⟨db, [], 0, .streaming false 0 [], []⟩ := by
    simp only [poll, startContractActions, contractActions, nothing, Option.getD_none]
  obtain ⟨last, final⟩ : ∃ last, (first :: rest.take (batchSize.val - 1)).getLast? = some last :=
    ⟨_, getLast?_cons⟩
  have fetched : (contractActions address height batchSize).poll
      ⟨db, [], 0, .streaming false 0 [], []⟩ =
      ⟨db, [], 0, .streaming false (last.id + 1) (first :: rest.take (batchSize.val - 1)), []⟩ := by
    simp only [poll, page, final]
    rfl
  simp only [run_cons, run_nil, step, opened, fetched]
  rfl

/-- In every run the contract's actions from the resolved height on are emitted, if
and only if there is an action of any contract at or above that height to start
from, or the contract has no action below. -/
theorem contractActions_exact_iff (backend : Sql.Backend) (db : ChainDb)
    (address : ChainIndexer.ByteVec) (batchSize : NonZeroU32) (offset : Option BlockOffset)
    (height : Nat) (resolved : resolveHeight db offset = .ok height) :
    (∀ inputs, EmitsActions address height batchSize
      (run ((contractActions address height batchSize).step backend) (startContractActions db)
        inputs)) ↔
    (∃ row ∈ contractActionRows db.blocks, height ≤ row.blockHeight) ∨
      ∀ row ∈ contractActionRows db.blocks, row.address = address → height ≤ row.blockHeight := by
  constructor
  · intro emits
    by_contra unknown
    obtain ⟨low, below⟩ := not_or.mp unknown
    have low : ∀ row ∈ contractActionRows db.blocks, row.blockHeight < height :=
      fun row member => Nat.lt_of_not_le fun high => low ⟨row, member, high⟩
    cases actions : actionsOf address db with
    | nil =>
      refine below fun row member named => ?_
      have listed := mem_actionsOf.mpr ⟨member, named⟩
      rw [actions] at listed
      exact (List.not_mem_nil listed).elim
    | cons first rest =>
      have emitted := first_delivered backend batchSize low actions
      have inside : first ∈ contractActionRows db.blocks :=
        (mem_actionsOf.mp (actions ▸ List.mem_cons_self)).1
      have high := ((emits [.poll, .poll, .poll]).exact first).mp (by rw [emitted]; simp)
      exact absurd (low first inside) (Nat.not_lt.mpr high.2.2.1)
  · intro known inputs
    have keep : ∀ s input, Delivering address height batchSize s → Delivering address height
        batchSize ((contractActions address height batchSize).step backend s input) :=
      fun _ input inv => inv.step input
    have start_known : StartKnown address height db :=
      known.imp_right fun high row member =>
        high row (mem_actionsOf.mp member).1 (mem_actionsOf.mp member).2
    have initially : Delivering address height batchSize (startContractActions db) :=
      ⟨resolveHeight_ok resolved, .inl ⟨rfl, rfl, start_known⟩⟩
    exact (run_keeps keep _ inputs initially).emits

/-- An action of contract 9 in block 1, and no action in block 2. -/
def quietBlocks : List ChainBlock :=
  [⟨1, [1], [⟨1, [7], [⟨1, [9]⟩], [], [], []⟩]⟩, ⟨2, [2], []⟩]

def quietDb : ChainDb := quietBlocks.foldl (ChainDb.commit .sqlite) .empty

theorem contractActions_exact_sample :
    EmitsActions [9] 1 (.ofNat 2)
      (run ((contractActions [9] 1 (.ofNat 2)).step .sqlite) (startContractActions quietDb)
        [.poll, .poll, .poll]) ∧
    (run ((contractActions [9] 1 (.ofNat 2)).step .sqlite) (startContractActions quietDb)
      [.poll, .poll, .poll]).delivered.map (fun row => row.id) = [1] :=
  ⟨(contractActions_exact_iff .sqlite quietDb [9] (.ofNat 2) (some (.height 1)) 1 rfl).mpr
    (.inl (by decide)) _, by decide⟩

/-- Subscribing at the latest block, which has no action, replays block 1. -/
theorem latest_block_replays :
    resolveHeight quietDb none = .ok 2 ∧
    (run ((contractActions [9] 2 (.ofNat 2)).step .sqlite) (startContractActions quietDb)
      [.poll, .poll, .poll]).delivered.map (fun row => (row.id, row.blockHeight)) = [(1, 1)] ∧
    ¬ EmitsActions [9] 2 (.ofNat 2)
      (run ((contractActions [9] 2 (.ofNat 2)).step .sqlite) (startContractActions quietDb)
        [.poll, .poll, .poll]) := by
  refine ⟨rfl, by decide, fun emits => ?_⟩
  have high := (emits.exact ⟨⟨1, [9]⟩, 1⟩).mp (by decide)
  exact absurd high.2.2.1 (by decide)

end MidnightIndexer.Guarantees.ContractActionDelivery
