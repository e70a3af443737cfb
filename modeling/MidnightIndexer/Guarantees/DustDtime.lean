import MidnightIndexer.Guarantees.DustSnapshot

/-!
# The dtime updates of a dust snapshot

indexer-api/src/infra/api/v4/subscription/dust_generations.rs:218-249 and
indexer-api/src/infra/storage/dust_generations.rs:202-346. The client names a height up
to which it has the updates. The subscription looks up the block of that height and
takes the id 0 if there is none, which selects the updates from the start. So a height
that is not stored, above the tip for one, replays what the client already has.

Updates are read in pages behind an event id. Were an event to match more than one of
the owner's generations, a page could end between its rows and lose the others.
-/

namespace MidnightIndexer.Guarantees.DustDtime

open DustPages Lib List Source Source.ChainIndexer Source.IndexerApi TryStream
open CollapsedUpdates (leafCrates leafTrees)

/-- The updates of the owner's generations above a height, up to the snapshot. A height
of 0 selects all of them. -/
def updatesAbove (db : DustDb) (owner : ByteVec) (height : Nat) (block : DustBlock) :
    List (DustEventRow × GenerationRow) :=
  (dtimeRows db).filter fun row => row.2.owner = owner ∧
    ∃ recorded ∈ db.blocks, recorded.id = row.1.blockId ∧
      (height = 0 ∨ height < recorded.height) ∧ recorded.height ≤ block.height

def dtimeUpdate? : DustGenerationsEvent → Option DustGenerationDtimeUpdateEntry
  | .dtimeUpdate update => some update
  | _ => none

/-- Exactly these updates, in the order of their events. -/
def DtimeExact (db : DustDb) (owner : ByteVec) (height : Nat) (block : DustBlock)
    (events : List DustGenerationsEvent) : Prop :=
  (updatesAbove db owner height block).mapM decodeDtimeRow = .ok (events.filterMap dtimeUpdate?)

/-- The cutoff is 0 or the height of a stored block, or no update up to the snapshot is
recorded at or below it. -/
def CutoffKnown (db : DustDb) (owner : ByteVec) (height : Nat) (block : DustBlock) : Prop :=
  height = 0 ∨ (∃ stored ∈ db.blocks, stored.height = height) ∨
    ∀ row ∈ updatesAbove db owner 0 block, ∀ recorded ∈ db.blocks,
      recorded.id = row.1.blockId → height < recorded.height

/-- No page ends between two rows of one event. -/
def PagesWhole (batchSize : NonZeroU32) (rows : List (DustEventRow × GenerationRow)) : Prop :=
  Paging.BordersMeet eventId (fun row => eventId row + 1) batchSize.val rows

variable {db : DustDb} {owner : ByteVec} {config : DustGenerationsConfig} {block : DustBlock}

/-! ## Heights and ids -/

theorem blocks_related {a b : DustBlock} (a_stored : a ∈ db.blocks) (b_stored : b ∈ db.blocks) :
    (a.id < b.id ↔ a.height < b.height) ∧ (a.id = b.id ↔ a.height = b.height) := by
  obtain ⟨i, i_inside, rfl⟩ := getElem_of_mem a_stored
  obtain ⟨j, j_inside, rfl⟩ := getElem_of_mem b_stored
  have along := pairwise_iff_getElem.mp db.blocksOrdered
  rcases Nat.lt_trichotomy i j with before | rfl | after
  · have less := along i j i_inside j_inside before
    omega
  · simp
  · have less := along j i j_inside i_inside after
    omega

variable {height cutoff : Nat} {row : DustEventRow × GenerationRow}

theorem updatesAbove_eq (stored : block ∈ db.blocks)
    (same : ∀ recorded ∈ db.blocks, cutoff < recorded.id ↔ height = 0 ∨ height < recorded.height) :
    updatesBetween db owner cutoff block.id = updatesAbove db owner height block := by
  apply filter_congr
  intro row member
  obtain ⟨_, recorded, listed, found⟩ := db.eventColumns row.1 (mem_dtimeRows member).1
  rw [decide_eq_decide, ← found]
  have order := blocks_related stored listed
  constructor
  · rintro ⟨above, below, owned⟩
    exact ⟨owned, recorded, listed, rfl, (same recorded listed).mp above, by omega⟩
  · rintro ⟨owned, other, other_listed, id, above, below⟩
    have heights := (blocks_related other_listed listed).2.mp id
    refine ⟨?_, by omega, owned⟩
    rw [← id]
    exact (same other other_listed).mpr above

/-! ## Pages -/

section

variable {cutoff : Nat} (cutoffFits : cutoff < 2 ^ 63) (stored : block ∈ db.blocks) {queries : Nat}
  (completed : (getDustGenerationDtimeUpdates db owner config.batchSize cutoff block.id queries
    0).outcome = .ok ())

include cutoffFits stored completed

/-- A read that completes has taken rows of the range, and one at least of each event. -/
theorem dtime_taken : ∃ taken, Paging.Delivers (Paging.page eventId config.batchSize.val
        (updatesBetween db owner cutoff block.id)) (fun row => eventId row + 1) 1 taken ∧
      taken.mapM decodeDtimeRow = .ok (getDustGenerationDtimeUpdates db owner config.batchSize
        cutoff block.id queries 0).items ∧ taken.Sublist (updatesBetween db owner cutoff block.id) ∧
      ∀ row ∈ updatesBetween db owner cutoff block.id, ∃ x ∈ taken, eventId x = eventId row := by
  obtain ⟨taken, delivers, decoded⟩ :=
    dtime_read cutoffFits (db.blockColumns block stored).2.1 completed
  obtain ⟨others, again, part, covers⟩ := Paging.delivers_exists
    (updatesBetween_ordered db owner cutoff block.id) config.batchSize.pos 1
  cases delivers.unique again
  rw [updatesBetween_from] at part covers
  exact ⟨taken, delivers, decoded, part, covers⟩

/-- It returns the whole range exactly if its pages are whole. -/
theorem dtime_all_iff : (updatesBetween db owner cutoff block.id).mapM decodeDtimeRow =
        .ok (getDustGenerationDtimeUpdates db owner config.batchSize cutoff block.id queries
          0).items ↔ PagesWhole config.batchSize (updatesBetween db owner cutoff block.id) := by
  obtain ⟨taken, delivers, decoded, part, _⟩ := dtime_taken cutoffFits stored completed
  let rows := updatesBetween db owner cutoff block.id
  have whole : Paging.Delivers (Paging.page eventId config.batchSize.val rows)
      (fun row => eventId row + 1) 1 (Paging.rowsFrom eventId rows 1) ↔
      PagesWhole config.batchSize (Paging.rowsFrom eventId rows 1) :=
    Paging.delivers_rowsFrom_iff (updatesBetween_ordered db owner cutoff block.id)
      ((dtimeRows_nodup db).filter _) config.batchSize.pos 1
  rw [updatesBetween_from] at whole
  rw [← whole]
  constructor
  · intro all
    have lengths : taken.length = (updatesBetween db owner cutoff block.id).length :=
      (mapM_length decoded).trans (mapM_length all).symm
    rw [part.eq_of_length lengths] at delivers
    exact delivers
  · intro all
    rw [← delivers.unique all]
    exact decoded

end

/-! ## The subscription -/

theorem cutoff_stored {height : UInt64} (found : cutoffBlockId db height = .ok cutoff)
    (known : height.toNat = 0 ∨ ∃ stored ∈ db.blocks, stored.height = height.toNat) :
    ∀ recorded ∈ db.blocks, cutoff < recorded.id ↔
      height.toNat = 0 ∨ height.toNat < recorded.height := by
  intro recorded listed
  have positive := (db.blockColumns recorded listed).1
  unfold cutoffBlockId at found
  by_cases zero : height = 0
  · rw [if_pos zero] at found
    cases found
    exact iff_of_true positive (.inl (zero ▸ rfl))
  · have nonzero : height.toNat ≠ 0 := fun value => zero (UInt64.toNat_inj.mp value)
    obtain ⟨stored, member, same⟩ := known.resolve_left nonzero
    rw [if_neg zero] at found
    split at found
    · cases result : db.blocks.find? (·.height = height.toNat) with
      | none =>
        have missing := find?_eq_none.mp result stored member
        exact absurd (decide_eq_true same) missing
      | some other =>
        rw [result] at found
        cases found
        have other_height : other.height = height.toNat := by simpa using find?_some result
        have order := blocks_related (mem_of_find?_eq_some result) listed
        change other.id < recorded.id ↔ _
        omega
    · cases found

theorem cutoff_missing {height : UInt64} (found : cutoffBlockId db height = .ok cutoff)
    (nonzero : height.toNat ≠ 0) (missing : ¬ ∃ stored ∈ db.blocks, stored.height = height.toNat) :
    cutoff = 0 := by
  have unequal : height ≠ 0 := fun zero => nonzero (zero ▸ rfl)
  unfold cutoffBlockId at found
  rw [if_neg unequal] at found
  split at found
  · have nothing : db.blocks.find? (·.height = height.toNat) = none := by
      refine find?_eq_none.mpr fun stored member same => missing ⟨stored, member, ?_⟩
      simpa using same
    rw [nothing] at found
    cases found
    rfl
  · cases found

theorem mem_updatesAbove :
    row ∈ updatesAbove db owner height block ↔ row ∈ dtimeRows db ∧ row.2.owner = owner ∧
      ∃ recorded ∈ db.blocks, recorded.id = row.1.blockId ∧
        (height = 0 ∨ height < recorded.height) ∧ recorded.height ≤ block.height := by
  rw [updatesAbove, mem_filter, decide_eq_true_eq]

/-- Nothing is recorded at or below the height exactly if it leaves nothing out. -/
theorem updatesAbove_zero_of_none
    (above : ∀ row ∈ updatesAbove db owner 0 block, ∀ recorded ∈ db.blocks,
      recorded.id = row.1.blockId → height < recorded.height) :
    updatesAbove db owner 0 block = updatesAbove db owner height block := by
  apply filter_congr
  intro row member
  rw [decide_eq_decide]
  constructor
  · rintro ⟨owned, recorded, listed, id, start, below⟩
    have higher := above row (mem_updatesAbove.mpr
      ⟨member, owned, recorded, listed, id, start, below⟩) recorded listed id
    exact ⟨owned, recorded, listed, id, .inr higher, below⟩
  · rintro ⟨owned, recorded, listed, id, _, below⟩
    exact ⟨owned, recorded, listed, id, .inl rfl, below⟩

theorem recorded_above (nonzero : height ≠ 0) {x : DustEventRow × GenerationRow}
    (row_stored : row ∈ dtimeRows db) (selected : x ∈ updatesAbove db owner height block)
    (same : eventId x = eventId row) {recorded : DustBlock} (listed : recorded ∈ db.blocks)
    (id : recorded.id = row.1.blockId) : height < recorded.height := by
  obtain ⟨x_stored, _, other, other_listed, other_id, above, _⟩ := mem_updatesAbove.mp selected
  have event : x.1 = row.1 := inj_on_of_nodup_map db.eventsOrdered.unique
    (mem_dtimeRows x_stored).1 (mem_dtimeRows row_stored).1 same
  have heights := (blocks_related other_listed listed).2.mp (by rw [other_id, id, event])
  have higher := above.resolve_left nonzero
  omega

theorem dtime_exact_iff {height : UInt64} (stored : block ∈ db.blocks)
    (found : cutoffBlockId db height = .ok cutoff) {queries : Nat}
    (completed : (getDustGenerationDtimeUpdates db owner config.batchSize cutoff block.id queries
      0).outcome = .ok ()) : (updatesAbove db owner height.toNat block).mapM decodeDtimeRow =
        .ok (getDustGenerationDtimeUpdates db owner config.batchSize cutoff block.id queries
          0).items ↔ CutoffKnown db owner height.toNat block ∧
        PagesWhole config.batchSize (updatesAbove db owner height.toNat block) := by
  have fits := cutoffBlockId_lt found
  have all_iff := dtime_all_iff fits stored completed
  by_cases known : height.toNat = 0 ∨ ∃ stored ∈ db.blocks, stored.height = height.toNat
  · rw [updatesAbove_eq stored (cutoff_stored found known)] at all_iff
    rw [all_iff, and_iff_right]
    exact known.imp_right .inl
  · obtain ⟨nonzero, missing⟩ := not_or.mp known
    cases cutoff_missing found nonzero missing
    have from_start : updatesBetween db owner 0 block.id = updatesAbove db owner 0 block :=
      updatesAbove_eq stored fun recorded listed =>
        iff_of_true (db.blockColumns recorded listed).1 (.inl rfl)
    have none_iff : CutoffKnown db owner height.toNat block ↔
        ∀ row ∈ updatesAbove db owner 0 block, ∀ recorded ∈ db.blocks,
          recorded.id = row.1.blockId → height.toNat < recorded.height := by
      rw [CutoffKnown, or_iff_right nonzero, or_iff_right missing]
    rw [none_iff]
    rw [from_start] at all_iff
    constructor
    · intro exact_updates
      have above : ∀ row ∈ updatesAbove db owner 0 block, ∀ recorded ∈ db.blocks,
          recorded.id = row.1.blockId → height.toNat < recorded.height := by
        intro row member recorded listed id
        obtain ⟨taken, _, decoded, _, covers⟩ := dtime_taken fits stored completed
        rw [from_start] at covers
        obtain ⟨y, y_taken, y_event⟩ := covers row member
        have ids : taken.map eventId = (updatesAbove db owner height.toNat block).map eventId :=
          (mapM_map decoded fun _ _ => decodeDtimeRow_id).symm.trans
            (mapM_map exact_updates fun _ _ => decodeDtimeRow_id)
        have listed_id : eventId y ∈ (updatesAbove db owner height.toNat block).map eventId :=
          ids ▸ mem_map_of_mem y_taken
        obtain ⟨x, selected, same⟩ := mem_map.mp listed_id
        exact recorded_above nonzero (mem_updatesAbove.mp member).1 selected
          (same.trans y_event) listed id
      rw [← updatesAbove_zero_of_none above] at exact_updates ⊢
      exact ⟨above, all_iff.mp exact_updates⟩
    · rintro ⟨above, whole⟩
      rw [← updatesAbove_zero_of_none above] at whole ⊢
      exact all_iff.mpr whole

section

variable {crates : LedgerCrates} {trees : TreeCrates crates} {ledger : LedgerState crates}
  {protocolVersion : ProtocolVersion}

theorem emitEntries_dtime (cursor : Nat) (entries : List DustGenerationEntry) :
    ∀ event ∈ (emitEntries trees ledger protocolVersion cursor entries).items,
      dtimeUpdate? event = none := by
  induction entries generalizing cursor with
  | nil => exact fun _ member => absurd member not_mem_nil
  | cons entry rest ih =>
    refine forall_items_bind forall_items_lift fun update => ?_
    refine forall_items_bind (fun event member => ?_) fun _ => ih _
    rw [mem_singleton.mp member]
    rfl

theorem emitSnapshot_dtime (queries : Nat) :
    (emitSnapshot trees db owner config ledger protocolVersion queries).items.filterMap
      dtimeUpdate? = [] := by
  rw [filterMap_eq_nil_iff]
  refine forall_items_bind (emitEntries_dtime _ _) fun cursor => ?_
  refine forall_items_bind forall_items_lift fun _ => ?_
  refine forall_items_bind forall_items_lift fun update event member => ?_
  rw [mem_singleton.mp member]
  rfl

theorem emitDtimeUpdates_read {height : UInt64} {queries : Nat}
    (completed : (emitDtimeUpdates db owner config block height queries).outcome = .ok ()) :
    ∃ cutoff, cutoffBlockId db height = .ok cutoff ∧
      (getDustGenerationDtimeUpdates db owner config.batchSize cutoff block.id queries 0).outcome =
        .ok () ∧
      (emitDtimeUpdates db owner config block height queries).items.filterMap dtimeUpdate? =
        (getDustGenerationDtimeUpdates db owner config.batchSize cutoff block.id queries
          0).items := by
  obtain ⟨cutoff, found, read, items⟩ := bind_completed completed
  refine ⟨cutoff, found, read, ?_⟩
  rw [emitDtimeUpdates, items, lift, nil_append, filterMap_map]
  exact filterMap_some

/-! The loops are the only part that does not end with an error of its own. -/

theorem snapshotUpdate_ends (message : String) (first last : Nat) :
    snapshotUpdate trees ledger protocolVersion message first last ≠ .error .unfinished := by
  unfold snapshotUpdate
  dsimp only
  split <;> simp

theorem emitEntries_ends (cursor : Nat) (entries : List DustGenerationEntry) :
    (emitEntries trees ledger protocolVersion cursor entries).outcome ≠ .error .unfinished := by
  induction entries generalizing cursor with
  | nil => simp [emitEntries, Pure.pure, TryStream.pure]
  | cons entry rest ih =>
    refine bind_ne_error ?_ fun update => bind_ne_error ?_ fun _ => ih _
    · change makeCollapsedUpdate _ _ _ _ _ ≠ _
      unfold makeCollapsedUpdate
      split
      · simp
      · exact snapshotUpdate_ends _ _ _
    · simp [yield]

theorem emitSnapshot_ends (trees : TreeCrates crates) (db : DustDb) (owner : ByteVec)
    (config : DustGenerationsConfig) (ledger : LedgerState crates)
    (protocolVersion : ProtocolVersion) : ∃ enough, ∀ queries ≥ enough,
      (emitSnapshot trees db owner config ledger protocolVersion queries).outcome ≠
        .error .unfinished := by
  obtain ⟨enough, complete⟩ := entries_complete db owner config.batchSize
    (generationsEnd ledger - 1)
  refine ⟨enough, fun queries more => ?_⟩
  refine bind_ne_error (emitEntries_ends _ _) fun cursor => ?_
  refine bind_ne_error ?_ fun _ => bind_ne_error ?_ fun update => ?_
  · rw [lift, complete queries more]
    simp
  · change (if generationsEnd ledger = 0 then Except.ok none else _) ≠ _
    split
    · simp
    · unfold makeFinalCollapsedUpdate
      split
      · simp
      · exact snapshotUpdate_ends _ _ _
  · simp [yield]

theorem resolveSnapshot_ends (rootLoadable : ByteVec → LedgerVersion → Option Bool)
    (db : DustDb) (config : DustGenerationsConfig) (blockHash : ByteVec) :
    resolveSnapshot crates rootLoadable db config blockHash ≠ .error .unfinished := by
  refine bind_ne_error ?_ fun block => ?_
  · cases db.blocks.find? (·.hash = blockHash) <;> simp [okOr]
  · dsimp only
    split
    · simp
    · refine bind_ne_error ?_ fun loadable => ?_
      · cases rootLoadable block.ledgerStateKey block.protocolVersion.ledgerVersion <;> simp [okOr]
      · split
        · refine bind_ne_error ?_ fun ledger => ?_
          · cases LedgerState.load crates block.ledgerStateKey
              block.protocolVersion.ledgerVersion <;> simp [Except.mapError]
          · simp [Pure.pure, Except.pure]
        · simp

theorem decodeDtimeRow_ends (row : DustEventRow × GenerationRow) :
    decodeDtimeRow row ≠ .error .unfinished := by
  refine bind_ne_error ?_ fun qdo => ?_
  · cases row.2.qdo <;> simp [okOr]
  · split <;> simp [Pure.pure, Except.pure]

theorem emitDtimeUpdates_ends (stored : block ∈ db.blocks) (owner : ByteVec)
    (config : DustGenerationsConfig) (height : UInt64) : ∃ enough, ∀ queries ≥ enough,
      (emitDtimeUpdates db owner config block height queries).outcome ≠ .error .unfinished := by
  by_cases small : height.toNat < 2 ^ 32
  · obtain ⟨enough, complete⟩ := emitDtimeUpdates_complete stored small owner config
    refine ⟨enough, fun queries more => ?_⟩
    rcases complete queries more with done | ⟨row, _, _, e, failed, outcome⟩
    · rw [done]
      simp
    · rw [outcome]
      intro same
      cases same
      exact decodeDtimeRow_ends row failed
  · refine ⟨0, fun queries _ => ?_⟩
    have nonzero : height ≠ 0 := by
      rintro rfl
      exact small (Nat.two_pow_pos 32)
    rw [emitDtimeUpdates, cutoffBlockId, if_neg nonzero, if_neg small]
    exact fun same => nomatch same

end

/-- Generations with night UTXO hashes of their own: an event has one row. -/
theorem pagesWhole_of_unique (unique : (db.generations.map GenerationRow.nightUtxoHash).Nodup)
    (batchSize : NonZeroU32) (height : Nat) (block : DustBlock) :
    PagesWhole batchSize (updatesAbove db owner height block) := by
  have single : ∀ event : DustEventRow, (event.generations db).Pairwise fun _ _ => False := by
    intro event
    unfold DustEventRow.generations
    split
    next hash _ _ _ =>
      have apart := (pairwise_map.mp unique).filter (fun row => row.nightUtxoHash = hash)
      refine apart.imp_of_mem fun a_member b_member differ => differ ?_
      have a_hash := of_decide_eq_true (mem_filter.mp a_member).2
      have b_hash := of_decide_eq_true (mem_filter.mp b_member).2
      exact a_hash.trans b_hash.symm
    next => exact .nil
  have strict : (dtimeRows db).Pairwise fun a b => eventId a < eventId b := by
    rw [dtimeRows, pairwise_flatMap]
    constructor
    · intro event _
      rw [pairwise_map]
      exact (single event).imp fun impossible => impossible.elim
    · refine db.eventsOrdered.increasing.imp fun less a a_row b b_row => ?_
      obtain ⟨_, _, rfl⟩ := mem_map.mp a_row
      obtain ⟨_, _, rfl⟩ := mem_map.mp b_row
      exact less
  exact Paging.bordersMeet_of_strict (strict.sublist filter_sublist)

/-- The sample's subscription at the second block behind a height. -/
def sampleDtimeStream (height : UInt64) : TryStream ApiError DustGenerationsEvent Unit :=
  dustGenerations leafTrees (fun _ _ => some true) DustSnapshot.sampleDustDb
    DustSnapshot.sampleDustConfig [7] [2] height 5

end MidnightIndexer.Guarantees.DustDtime
