import MidnightIndexer.Guarantees.CollapsedUpdates
import MidnightIndexer.Guarantees.DustPages
import MidnightIndexer.Lib.Tiling

/-!
# What a dust snapshot covers

indexer-api/src/infra/api/v4/subscription/dust_generations.rs:198-323. An entry stands
for its own index, a collapsed update for its range. The entries and updates of a
snapshot tile the indices of the generation tree at the block. A tree without leaves
has no last index; the query for the entries then asks for index 0, and an owner
whose entry a later block put there gets an entry that is not in the tree.
-/

namespace MidnightIndexer.Guarantees.DustSnapshot

open DustPages Lib Lib.Follow Lib.Tiling List Source Source.ChainIndexer Source.IndexerApi
open TryStream
open DustGenerationEntry
open CollapsedUpdates (leafCrates leafTrees)

def updateSegments (update : Option MerkleTreeCollapsedUpdate) : List Segment :=
  update.toList.map fun update => (update.startIndex.toNat, update.endIndex.toNat + 1)

/-- The indices an event stands for. -/
def eventSegments : DustGenerationsEvent → List Segment
  | .dtimeUpdate _ => []
  | .item entry update =>
    updateSegments update ++ [(entry.generationMtIndex, entry.generationMtIndex + 1)]
  | .progress _ update => updateSegments update

/-- Every index before the end once and in order, and no other one. -/
def Covers (events : List DustGenerationsEvent) (endIndex : Nat) : Prop :=
  indices (events.flatMap eventSegments) = List.range endIndex

instance (events : List DustGenerationsEvent) (endIndex : Nat) : Decidable (Covers events endIndex) :=
  inferInstanceAs (Decidable (indices _ = List.range endIndex))

def UniqueIndices (db : DustDb) : Prop :=
  (db.generations.filterMap fun row => row.qdo.map QdoColumns.generationIndex).Nodup

/-- The ledger makes an update for each range of the tree. -/
def UpdatesSucceed {crates : LedgerCrates} (trees : TreeCrates crates)
    (ledger : LedgerState crates) : Prop :=
  ∀ first last : UInt64, first ≤ last → last.toNat < generationsEnd ledger →
    ∃ update, dustGenerationsCollapsedUpdate trees ledger first last = .ok update

variable {crates : LedgerCrates} {trees : TreeCrates crates} {ledger : LedgerState crates}
  {protocolVersion : ProtocolVersion} {db : DustDb} {owner : ByteVec}
  {config : DustGenerationsConfig}

/-! ## Updates -/

variable {last cursor endIndex : Nat} {update : Option MerkleTreeCollapsedUpdate}
  {entries : List DustGenerationEntry}

theorem snapshotUpdate_segments {message : String} {first : Nat} (firstFits : first < 2 ^ 64)
    (lastFits : last < 2 ^ 64)
    (made : snapshotUpdate trees ledger protocolVersion message first last = .ok update) :
    updateSegments update = [(first, last + 1)] := by
  unfold snapshotUpdate at made
  dsimp only at made
  split at made
  · cases made
    simp [updateSegments, UInt64.toNat_ofNat_of_lt' firstFits, UInt64.toNat_ofNat_of_lt' lastFits]
  · cases made

theorem snapshotUpdate_succeeds (succeed : UpdatesSucceed trees ledger) (message : String)
    {first : Nat} (ordered : first ≤ last) (inside : last < generationsEnd ledger) :
    ∃ update, snapshotUpdate trees ledger protocolVersion message first last = .ok update := by
  have word : generationsEnd ledger < 2 ^ 64 := UInt64.toNat_lt _
  have last_value := UInt64.toNat_ofNat_of_lt' (lt_trans inside word)
  have first_value := UInt64.toNat_ofNat_of_lt' (lt_of_le_of_lt ordered (lt_trans inside word))
  obtain ⟨update, made⟩ := succeed (UInt64.ofNat first) (UInt64.ofNat last)
    (UInt64.le_iff_toNat_le.mpr (by rw [first_value, last_value]; exact ordered))
    (by rw [last_value]; exact inside)
  unfold snapshotUpdate
  dsimp only
  rw [made]
  exact ⟨_, rfl⟩

theorem makeCollapsedUpdate_tiles {entryIndex : Nat} (reached : cursor ≤ entryIndex)
    (fits : entryIndex < 2 ^ 64)
    (made : makeCollapsedUpdate trees ledger protocolVersion cursor entryIndex = .ok update) :
    Tiles cursor (updateSegments update) entryIndex := by
  unfold makeCollapsedUpdate at made
  split at made
  next nothing =>
    cases made
    change cursor = entryIndex
    omega
  next gap =>
    rw [snapshotUpdate_segments (by omega) (by omega) made,
      show entryIndex - 1 + 1 = entryIndex by omega]
    exact .singleton reached

theorem makeFinalCollapsedUpdate_tiles (nonempty : endIndex ≠ 0) (reached : cursor ≤ endIndex)
    (fits : endIndex < 2 ^ 64)
    (made : makeFinalCollapsedUpdate trees ledger protocolVersion cursor (endIndex - 1) =
      .ok update) : Tiles cursor (updateSegments update) endIndex := by
  unfold makeFinalCollapsedUpdate at made
  split at made
  next nothing =>
    cases made
    change cursor = endIndex
    omega
  next gap =>
    rw [snapshotUpdate_segments (by omega) (by omega) made,
      show endIndex - 1 + 1 = endIndex by omega]
    exact .singleton reached

/-! ## Entries -/

/-- The entries and the updates before them tile the indices up to the last one. -/
theorem emitEntries_tiles {next : Nat}
    (strict : entries.Pairwise fun a b => a.generationMtIndex < b.generationMtIndex)
    (above : ∀ entry ∈ entries, cursor ≤ entry.generationMtIndex)
    (fits : ∀ entry ∈ entries, entry.generationMtIndex < 2 ^ 64)
    (done : (emitEntries trees ledger protocolVersion cursor entries).outcome = .ok next) :
    next = behind generationMtIndex cursor entries ∧
      Tiles cursor ((emitEntries trees ledger protocolVersion cursor entries).items.flatMap
        eventSegments) next := by
  induction entries generalizing cursor with
  | nil =>
    cases done
    exact ⟨rfl, rfl⟩
  | cons entry rest ih =>
    obtain ⟨later, strict⟩ := pairwise_cons.mp strict
    rw [emitEntries] at done ⊢
    cases made : makeCollapsedUpdate trees ledger protocolVersion cursor
      entry.generationMtIndex with
    | error e =>
      rw [made] at done
      cases done
    | ok update =>
      rw [made, lift_ok_bind] at done
      rw [lift_ok_bind]
      obtain ⟨position, tiles⟩ := ih strict later
        (fun entry member => fits entry (mem_cons_of_mem _ member)) done
      have gap := makeCollapsedUpdate_tiles (above entry mem_cons_self)
        (fits entry mem_cons_self) made
      refine ⟨?_, (gap.append (.singleton (Nat.le_succ _))).append tiles⟩
      rw [position, behind_cons]

theorem emitEntries_completes (succeed : UpdatesSucceed trees ledger)
    (protocolVersion : ProtocolVersion) (inside : ∀ entry ∈ entries,
      entry.generationMtIndex ≤ generationsEnd ledger) (cursor : Nat) :
    ∃ next, (emitEntries trees ledger protocolVersion cursor entries).outcome = .ok next := by
  induction entries generalizing cursor with
  | nil => exact ⟨cursor, rfl⟩
  | cons entry rest ih =>
    have bound := inside entry mem_cons_self
    have made : ∃ update, makeCollapsedUpdate trees ledger protocolVersion cursor
        entry.generationMtIndex = .ok update := by
      unfold makeCollapsedUpdate
      split
      · exact ⟨none, rfl⟩
      · exact snapshotUpdate_succeeds succeed _ (by omega) (by omega)
    obtain ⟨update, made⟩ := made
    rw [emitEntries, made]
    exact ih (fun entry member => inside entry (mem_cons_of_mem _ member))
      (entry.generationMtIndex + 1)

/-! ## The snapshot -/

theorem filterMap_sublist {α β : Type} {f g : α → Option β}
    (implied : ∀ a b, f a = some b → g a = some b) (rows : List α) :
    (rows.filterMap f).Sublist (rows.filterMap g) := by
  induction rows with
  | nil => exact .refl _
  | cons row rest ih =>
    cases found : f row with
    | none =>
      rw [filterMap_cons_none found, filterMap_cons]
      split
      · exact ih
      · exact ih.cons _
    | some value =>
      rw [filterMap_cons_some found, filterMap_cons_some (implied row value found)]
      exact ih.cons_cons _

theorem ownerEntries_strict (unique : UniqueIndices db) (owner : ByteVec) (endIndex : Nat) :
    (ownerEntries db owner endIndex).Pairwise fun a b =>
      a.generationMtIndex < b.generationMtIndex := by
  apply Sql.orderBy_strict
  refine Nodup.sublist (filter_sublist.map _) ?_
  refine Nodup.sublist ?_ unique
  rw [map_filterMap]
  apply filterMap_sublist
  intro row index found
  obtain ⟨entry, stored, rfl⟩ := Option.map_eq_some_iff.mp found
  exact (entry_columns stored).2

theorem entries_items (unique : UniqueIndices db) {batchSize : NonZeroU32} {queries : Nat}
    (completed :
      (getDustGenerationEntries db owner batchSize endIndex queries 0).outcome = .ok ()) :
    (getDustGenerationEntries db owner batchSize endIndex queries 0).items =
      ownerEntries db owner endIndex := by
  have strict := ownerEntries_strict unique owner endIndex
  have all : Paging.rowsFrom generationMtIndex
      (ownerEntries db owner endIndex) 0 = ownerEntries db owner endIndex := by
    rw [Paging.rowsFrom, filter_eq_self]
    intro entry _
    exact decide_eq_true (Nat.zero_le _)
  rw [← all]
  exact (entries_read completed).unique (Paging.delivers_keys strict batchSize.pos 0)

/-- A snapshot that completes tiles the indices of the tree. Without leaves it tiles
those of the owner's entries. -/
theorem emitSnapshot_tiles (unique : UniqueIndices db) {queries : Nat}
    (done : (emitSnapshot trees db owner config ledger protocolVersion queries).outcome = .ok ()) :
    Tiles 0 ((emitSnapshot trees db owner config ledger protocolVersion queries).items.flatMap
      eventSegments) (if generationsEnd ledger = 0 then
        behind generationMtIndex 0 (ownerEntries db owner 0) else generationsEnd ledger) := by
  have word : generationsEnd ledger < 2 ^ 64 := UInt64.toNat_lt _
  rw [emitSnapshot] at done ⊢
  obtain ⟨cursor, emitted, done, items⟩ := bind_completed done
  obtain ⟨_, completed, done, later⟩ := bind_completed done
  obtain ⟨update, final, _, last⟩ := bind_completed done
  have read := entries_items unique completed
  have strict := ownerEntries_strict unique owner (generationsEnd ledger - 1)
  have inside : ∀ entry ∈ ownerEntries db owner (generationsEnd ledger - 1),
      entry.generationMtIndex ≤ generationsEnd ledger - 1 :=
    fun entry member => ownerEntries_le (by omega) member
  rw [items, later, last]
  rw [read] at emitted ⊢
  obtain ⟨position, tiles⟩ := emitEntries_tiles strict (fun _ _ => Nat.zero_le _)
    (fun entry member => by have bound := inside entry member; omega) emitted
  simp only [flatMap_append, lift, yield, nil_append, flatMap_singleton, eventSegments]
  refine tiles.append ?_
  change (if generationsEnd ledger = 0 then Except.ok none else _) = _ at final
  by_cases empty : generationsEnd ledger = 0
  · rw [if_pos empty] at final ⊢
    cases final
    rw [position, empty]
    rfl
  · rw [if_neg empty] at final ⊢
    refine makeFinalCollapsedUpdate_tiles empty ?_ word final
    rw [position]
    rcases behind_cases generationMtIndex 0 (ownerEntries db owner (generationsEnd ledger - 1)) with
      ⟨_, start⟩ | ⟨entry, member, _, next⟩
    · omega
    · have bound := inside entry member
      omega

theorem emitSnapshot_completes (unique : UniqueIndices db) (succeed : UpdatesSucceed trees ledger)
    (owner : ByteVec) (config : DustGenerationsConfig) (protocolVersion : ProtocolVersion) :
    ∃ enough, ∀ queries ≥ enough,
      (emitSnapshot trees db owner config ledger protocolVersion queries).outcome = .ok () := by
  have word : generationsEnd ledger < 2 ^ 64 := UInt64.toNat_lt _
  obtain ⟨enough, complete⟩ := entries_complete db owner config.batchSize (generationsEnd ledger - 1)
  refine ⟨enough, fun queries more => ?_⟩
  have completed := complete queries more
  have inside : ∀ entry ∈ ownerEntries db owner (generationsEnd ledger - 1),
      entry.generationMtIndex ≤ generationsEnd ledger := by
    intro entry member
    have bound := ownerEntries_le (by omega) member
    omega
  obtain ⟨cursor, emitted⟩ := emitEntries_completes succeed protocolVersion inside 0
  have final : ∃ update, (if generationsEnd ledger = 0 then .ok none
      else makeFinalCollapsedUpdate trees ledger protocolVersion cursor
        (generationsEnd ledger - 1)) = .ok update := by
    split
    · exact ⟨none, rfl⟩
    · unfold makeFinalCollapsedUpdate
      split
      · exact ⟨none, rfl⟩
      · exact snapshotUpdate_succeeds succeed _ (by omega) (by omega)
  obtain ⟨update, made⟩ := final
  rw [← entries_items unique completed] at emitted
  rw [emitSnapshot, bind_of_ok emitted, completed, made]
  rfl

/-- A tiled range has the indices of the tree if it ends where the tree does. -/
theorem covers_iff_of_tiles {events : List DustGenerationsEvent}
    (tiles : Tiles 0 (events.flatMap eventSegments) last) :
    Covers events endIndex ↔ last = endIndex := by
  rw [Covers, tiles.indices, Nat.sub_zero, ← range_eq_range']
  constructor
  · intro same
    have lengths := congrArg length same
    rwa [length_range, length_range] at lengths
  · intro same
    rw [same]

/-- Only an entry at index 0 is selected when the tree has no leaves. -/
theorem behind_ownerEntries_zero (db : DustDb) (owner : ByteVec) :
    behind generationMtIndex 0 (ownerEntries db owner 0) = 0 ↔
      ∀ row ∈ db.generations, ∀ entry ∈ row.entry, entry.owner = owner →
        entry.generationMtIndex ≠ 0 := by
  have selected : ∀ entry, entry ∈ ownerEntries db owner 0 ↔
      entry ∈ db.generations.filterMap GenerationRow.entry ∧ entry.owner = owner ∧
        entry.generationMtIndex = 0 := by
    intro entry
    rw [mem_ownerEntries, Sql.asI64_of_lt (by omega), Int.ofNat_le, Nat.le_zero]
  rcases behind_cases generationMtIndex 0 (ownerEntries db owner 0) with
    ⟨nothing, start⟩ | ⟨entry, member, _, next⟩
  · refine iff_of_true start fun row stored entry found owned zero => ?_
    have listed := (selected entry).mpr ⟨mem_filterMap.mpr ⟨row, stored, found⟩, owned, zero⟩
    rw [nothing] at listed
    exact not_mem_nil listed
  · obtain ⟨listed, owned, zero⟩ := (selected entry).mp member
    obtain ⟨row, stored, found⟩ := mem_filterMap.mp listed
    exact iff_of_false (by omega) fun none_there => none_there row stored entry found owned zero

/-! ## The subscription -/

theorem emitDtimeUpdates_segments (block : DustBlock) (dtimeCutoffHeight : UInt64) (queries : Nat) :
    (emitDtimeUpdates db owner config block dtimeCutoffHeight queries).items.flatMap
      eventSegments = [] := by
  unfold emitDtimeUpdates
  cases cutoffBlockId db dtimeCutoffHeight with
  | error e => rfl
  | ok cutoff =>
    rw [lift_ok_bind, flatMap_map]
    exact flatMap_eq_nil_iff.mpr fun _ _ => rfl

section

variable {rootLoadable : ByteVec → LedgerVersion → Option Bool} {blockHash : ByteVec}
  {block : DustBlock}
  (resolved : resolveSnapshot crates rootLoadable db config blockHash = .ok (block, ledger))

include resolved

theorem dustGenerations_resolved (dtimeCutoffHeight : UInt64) (queries : Nat) :
    dustGenerations trees rootLoadable db config owner blockHash dtimeCutoffHeight queries = (do
      emitDtimeUpdates db owner config block dtimeCutoffHeight queries
      emitSnapshot trees db owner config ledger block.protocolVersion queries) := by
  rw [dustGenerations, resolved, lift_ok_bind]

end

/-! ## Samples -/

def sampleGeneration (id generationIndex : Nat) (nightUtxoHash : UInt8) : GenerationRow where
  id := id
  nightUtxoHash := [nightUtxoHash]
  owner := [7]
  value := 1
  ctime := 0
  merkleIndex := id
  transaction := some ⟨1, [31]⟩
  qdo := some ⟨generationIndex, [nightUtxoHash], 1⟩

/-- The tree is empty at the first block. The second one inserts four generations, and
the owner's are those at 0 and 2; it also updates the dtime of the first one. -/
def sampleDustDb : DustDb where
  blocks := [⟨1, [1], 10, .first .V1_0, []⟩, ⟨2, [2], 11, .first .V1_0, [5, 6, 7, 8]⟩]
  events := [⟨1, .dustGenerationDtimeUpdate [21] 3 [], ⟨1, [31]⟩, 2⟩]
  generations := [sampleGeneration 1 0 21, sampleGeneration 2 2 22]
  blocksOrdered := by decide
  blockColumns := by decide
  eventsOrdered := ⟨by decide, by decide⟩
  eventColumns := by decide
  generationIds := by decide
  indexColumn := by decide

def sampleDustConfig : DustGenerationsConfig := ⟨.ofNat 1, 100⟩

/-- A subscription of the owner that has no updates yet. -/
def sampleDustStream (blockHash : UInt8) (queries : Nat) :
    TryStream ApiError DustGenerationsEvent Unit :=
  dustGenerations leafTrees (fun _ _ => some true) sampleDustDb sampleDustConfig [7] [blockHash] 0
    queries

end MidnightIndexer.Guarantees.DustSnapshot
