import MidnightIndexer.Source.DustGenerations

/-!
# What the two paged reads of a dust snapshot return

Both reads are the loop of `Lib/TryPages` over ordered rows: the owner's entries up to
an index, and the dtime updates of the owner's generations in a range of blocks. No
bound value is beyond the signed range where it is compared, so the pages are those of
`Lib/Paging`. The loops end after finitely many queries whatever the keys are.
-/

namespace MidnightIndexer.Guarantees.DustPages

open Lib Lib.Follow List Source Source.ChainIndexer Source.IndexerApi Paging DustGenerationEntry

variable {db : DustDb} {owner : ByteVec} {batchSize : NonZeroU32}

/-! ## Entries -/

def nextEntry (entry : DustGenerationEntry) : Nat := entry.generationMtIndex + 1

/-- The owner's entries up to an index that is bound as a signed value. -/
def ownerEntries (db : DustDb) (owner : ByteVec) (endIndex : Nat) : List DustGenerationEntry :=
  Sql.orderBy DustGenerationEntry.generationMtIndex
    ((db.generations.filterMap GenerationRow.entry).filter fun entry =>
      entry.owner = owner ∧ entry.generationMtIndex ≤ Sql.asI64 endIndex)

variable {entry : DustGenerationEntry} {endIndex : Nat} {row : DustEventRow × GenerationRow}

theorem entry_columns {row : GenerationRow} (found : row.entry = some entry) :
    entry.owner = row.owner ∧
      row.qdo.map QdoColumns.generationIndex = some entry.generationMtIndex := by
  unfold GenerationRow.entry at found
  cases qdo : row.qdo with
  | none => simp [qdo] at found
  | some columns =>
    cases transaction : row.transaction with
    | none => simp [qdo, transaction] at found
    | some reference =>
      simp only [qdo, transaction, Option.bind_eq_bind, Option.bind_some, Option.pure_def,
        Option.some.injEq] at found
      rw [← found]
      exact ⟨rfl, rfl⟩

theorem entry_index_lt (stored : entry ∈ db.generations.filterMap GenerationRow.entry) :
    entry.generationMtIndex + 1 < 2 ^ 63 := by
  obtain ⟨row, member, found⟩ := mem_filterMap.mp stored
  obtain ⟨qdo, columns, same⟩ := Option.map_eq_some_iff.mp (entry_columns found).2
  rw [← same]
  exact db.indexColumn row member qdo columns

theorem mem_ownerEntries : entry ∈ ownerEntries db owner endIndex ↔
      entry ∈ db.generations.filterMap GenerationRow.entry ∧ entry.owner = owner ∧
        entry.generationMtIndex ≤ Sql.asI64 endIndex := by
  rw [ownerEntries, Sql.mem_orderBy, mem_filter, decide_eq_true_eq]

theorem ownerEntries_le (word : endIndex < 2 ^ 64)
    (member : entry ∈ ownerEntries db owner endIndex) : entry.generationMtIndex ≤ endIndex := by
  have bound := (mem_ownerEntries.mp member).2.2
  rcases Nat.lt_or_ge endIndex (2 ^ 63) with small | large
  · rw [Sql.asI64_of_lt small] at bound
    omega
  · have negative := Sql.asI64_neg large word
    omega

theorem entriesPage_eq (endIndex : Nat) {startIndex : Nat} (small : startIndex < 2 ^ 63) :
    entriesPage db owner batchSize endIndex startIndex = page generationMtIndex batchSize.val
        (ownerEntries db owner endIndex) startIndex := by
  rw [page, rowsFrom, ownerEntries, ← Sql.orderBy_filter, filter_filter, entriesPage]
  congr 2
  apply filter_congr
  intro entry _
  rw [Sql.asI64_of_lt small]
  simp only [← Bool.decide_and, Int.ofNat_le]
  congr 1
  exact propext ⟨fun h => ⟨h.2.1, h.1, h.2.2⟩, fun h => ⟨h.2.1, h.1, h.2.2⟩⟩

theorem mem_entriesPage {startIndex : Nat}
    (member : entry ∈ entriesPage db owner batchSize endIndex startIndex) :
    entry ∈ db.generations.filterMap GenerationRow.entry := by
  exact mem_of_mem_filter (Sql.mem_orderBy.mp (mem_of_mem_take member))

theorem entries_pages (endIndex queries : Nat) :
    pages (entriesPage db owner batchSize endIndex) nextEntry queries 0 =
      pages (page generationMtIndex batchSize.val
        (ownerEntries db owner endIndex)) nextEntry queries 0 := by
  apply pages_congr fun startIndex => startIndex < 2 ^ 63
  · intro startIndex small
    exact entriesPage_eq endIndex small
  · intro startIndex _ entry member
    exact entry_index_lt (mem_entriesPage member)
  · exact Nat.two_pow_pos 63

theorem entriesPage_behind {last : DustGenerationEntry}
    (stored : last ∈ db.generations.filterMap GenerationRow.entry)
    (ended : endIndex ≤ last.generationMtIndex) :
    entriesPage db owner batchSize endIndex (nextEntry last) = [] := by
  have small : nextEntry last < 2 ^ 63 := entry_index_lt stored
  rw [entriesPage_eq endIndex small, page, take_eq_nil_iff]
  refine .inr (filter_eq_nil_iff.mpr fun entry member => ?_)
  unfold nextEntry at small ⊢
  have bound := ownerEntries_le (by omega) member
  simp only [decide_eq_true_eq]
  omega

theorem entries_read {queries : Nat} (completed :
      (getDustGenerationEntries db owner batchSize endIndex queries 0).outcome = .ok ()) :
    Paging.Delivers (page generationMtIndex batchSize.val
      (ownerEntries db owner endIndex)) nextEntry 0
      (getDustGenerationEntries db owner batchSize endIndex queries 0).items := by
  have ends : ∀ startIndex last entry,
      (entriesPage db owner batchSize endIndex startIndex).getLast? = some last →
      (Except.ok last : Except ApiError _) = .ok entry →
      decide (endIndex ≤ entry.generationMtIndex) = true →
      entriesPage db owner batchSize endIndex (nextEntry last) = [] := by
    intro startIndex last entry final same stopped
    cases same
    exact entriesPage_behind (mem_entriesPage (mem_of_getLast? final)) (of_decide_eq_true stopped)
  obtain ⟨taken, ⟨enough, ended⟩, decoded⟩ := tryPages_ok
    (entriesPage db owner batchSize endIndex) Except.ok nextEntry
    (fun startIndex => (mapM_ok _).symm) (fun _ _ same => by cases same; rfl) ends completed
  rw [mapM_ok] at decoded
  rw [entries_pages] at ended
  cases decoded
  exact ⟨enough, ended⟩

theorem entries_complete (db : DustDb) (owner : ByteVec) (batchSize : NonZeroU32) (endIndex : Nat) :
    ∃ enough, ∀ queries ≥ enough,
      (getDustGenerationEntries db owner batchSize endIndex queries 0).outcome = .ok () := by
  obtain ⟨taken, ⟨enough, ended⟩, _⟩ := delivers_exists (Sql.orderBy_ordered generationMtIndex
      ((db.generations.filterMap GenerationRow.entry).filter fun entry =>
        entry.owner = owner ∧ entry.generationMtIndex ≤ Sql.asI64 endIndex)) batchSize.pos 0
  refine ⟨enough, fun queries more => ?_⟩
  have finished : (pages (entriesPage db owner batchSize endIndex) nextEntry queries 0).2 =
      true := by
    rw [entries_pages]
    exact congrArg Prod.snd (pages_of_le ended more)
  rcases tryPages_ends (entriesPage db owner batchSize endIndex) Except.ok nextEntry
    (fun startIndex => (mapM_ok _).symm) (fun _ _ same => by cases same; rfl) finished with
    done | ⟨_, _, failed, _⟩
  · exact done
  · cases failed

/-! ## Dtime updates -/

/-- The updates of the owner's generations that are recorded in blocks behind one id,
up to another. -/
def updatesBetween (db : DustDb) (owner : ByteVec) (cutoffBlockId upperBlockId : Nat) :
    List (DustEventRow × GenerationRow) :=
  (dtimeRows db).filter fun row =>
    cutoffBlockId < row.1.blockId ∧ row.1.blockId ≤ upperBlockId ∧ row.2.owner = owner

def eventId (row : DustEventRow × GenerationRow) : Nat := row.1.id

theorem dtimeRows_ordered (db : DustDb) :
    (dtimeRows db).Pairwise fun a b => eventId a ≤ eventId b := by
  rw [dtimeRows, pairwise_flatMap]
  constructor
  · intro event _
    rw [pairwise_map]
    exact pairwise_of_forall fun _ _ => Nat.le_refl _
  · refine db.eventsOrdered.increasing.imp fun less a a_row b b_row => ?_
    obtain ⟨_, _, rfl⟩ := mem_map.mp a_row
    obtain ⟨_, _, rfl⟩ := mem_map.mp b_row
    exact Nat.le_of_lt less

theorem generations_nodup (event : DustEventRow) (db : DustDb) : (event.generations db).Nodup := by
  have unique : db.generations.Nodup := Nodup.of_map _ db.generationIds
  unfold DustEventRow.generations
  split
  · exact unique.filter _
  · exact nodup_nil

theorem dtimeRows_nodup (db : DustDb) : (dtimeRows db).Nodup := by
  rw [dtimeRows, Nodup, pairwise_flatMap]
  constructor
  · intro event _
    exact (generations_nodup event db).map fun _ _ same => congrArg Prod.snd same
  · refine db.eventsOrdered.increasing.imp fun less a a_row b b_row same => ?_
    obtain ⟨_, _, rfl⟩ := mem_map.mp a_row
    obtain ⟨_, _, rfl⟩ := mem_map.mp b_row
    have equal := congrArg (fun row => row.1.id) same
    exact absurd equal (Nat.ne_of_lt less)

theorem mem_dtimeRows (member : row ∈ dtimeRows db) :
    row.1 ∈ db.events ∧ row.2 ∈ row.1.generations db := by
  obtain ⟨event, stored, listed⟩ := mem_flatMap.mp member
  obtain ⟨generation, joined, rfl⟩ := mem_map.mp listed
  exact ⟨stored, joined⟩

theorem updatesBetween_ordered (db : DustDb) (owner : ByteVec) (cutoff upper : Nat) :
    (updatesBetween db owner cutoff upper).Pairwise fun a b => eventId a ≤ eventId b :=
  (dtimeRows_ordered db).sublist filter_sublist

theorem updatesBetween_from (db : DustDb) (owner : ByteVec) (cutoff upper : Nat) :
    rowsFrom eventId (updatesBetween db owner cutoff upper) 1 =
      updatesBetween db owner cutoff upper := by
  rw [rowsFrom, filter_eq_self]
  intro row member
  have stored := (mem_dtimeRows (mem_of_mem_filter member)).1
  exact decide_eq_true (db.eventColumns row.1 stored).1

section

variable {cutoff upper : Nat} (cutoffFits : cutoff < 2 ^ 63) (upperFits : upper < 2 ^ 63)

include cutoffFits upperFits

theorem dtimePage_eq {afterEventId : Nat} (small : afterEventId < 2 ^ 63) :
    dtimePage db owner batchSize cutoff upper afterEventId =
      page eventId batchSize.val (updatesBetween db owner cutoff upper) (afterEventId + 1) := by
  have ordered : Sql.orderBy (fun row => row.1.id) (dtimeRows db) = dtimeRows db :=
    Sql.orderBy_of_ordered (dtimeRows_ordered db)
  rw [dtimePage, Sql.orderBy_filter, ordered, page, rowsFrom, updatesBetween, filter_filter]
  congr 1
  apply filter_congr
  intro row _
  rw [Sql.asI64_of_lt cutoffFits, Sql.asI64_of_lt upperFits, Sql.asI64_of_lt small, Bool.eq_iff_iff]
  simp only [Bool.and_eq_true, decide_eq_true_eq, Int.ofNat_le, Int.ofNat_lt, Nat.succ_le_iff]
  exact ⟨fun h => ⟨h.2.2.2, h.1, h.2.1, h.2.2.1⟩, fun h => ⟨h.2.1, h.2.2.1, h.2.2.2, h.1⟩⟩

theorem dtime_pages (queries : Nat) :
    pages (dtimePage db owner batchSize cutoff upper) eventId queries 0 =
      pages (page eventId batchSize.val (updatesBetween db owner cutoff upper))
        (fun row => eventId row + 1) queries 1 := by
  let shifted := fun afterEventId => page eventId batchSize.val
    (updatesBetween db owner cutoff upper) (afterEventId + 1)
  have same : pages (dtimePage db owner batchSize cutoff upper) eventId queries 0 =
      pages shifted eventId queries 0 := by
    apply pages_congr fun afterEventId => afterEventId < 2 ^ 63
    · intro afterEventId small
      exact dtimePage_eq cutoffFits upperFits small
    · intro afterEventId _ row member
      have stored := mem_of_mem_filter (Sql.mem_orderBy.mp (mem_of_mem_take member))
      have bound := db.eventsOrdered.successor row.1 (mem_dtimeRows stored).1
      exact Nat.lt_of_succ_lt bound
    · exact Nat.two_pow_pos 63
  rw [same]
  exact pages_map (fun afterEventId => afterEventId + 1) (fun _ => rfl) (fun _ => rfl) queries 0

omit cutoffFits upperFits in
theorem decodeDtimeRow_id {update : DustGenerationDtimeUpdateEntry}
    (decoded : decodeDtimeRow row = .ok update) : update.ledgerEventId = eventId row := by
  obtain ⟨_, _, found⟩ := bind_success decoded
  split at found
  · cases found
    rfl
  · cases found

/-- A read of the updates that completes has read their pages, and each row decodes. -/
theorem dtime_read {queries : Nat}
    (completed : (getDustGenerationDtimeUpdates db owner batchSize cutoff upper queries 0).outcome =
      .ok ()) : ∃ taken, Paging.Delivers
        (page eventId batchSize.val (updatesBetween db owner cutoff upper))
        (fun row => eventId row + 1) 1 taken ∧ taken.mapM decodeDtimeRow =
        .ok (getDustGenerationDtimeUpdates db owner batchSize cutoff upper queries 0).items := by
  obtain ⟨taken, ⟨enough, ended⟩, decoded⟩ := tryPages_ok
    (dtimePage db owner batchSize cutoff upper) decodeDtimeRow eventId (fun _ => rfl)
    (fun _ _ value => decodeDtimeRow_id value) (by intro _ _ _ _ _ stopped; cases stopped) completed
  rw [dtime_pages cutoffFits upperFits] at ended
  exact ⟨taken, ⟨enough, ended⟩, decoded⟩

/-- Enough queries complete the read of the updates, or a row does not decode. -/
theorem dtime_complete (db : DustDb) (owner : ByteVec) (batchSize : NonZeroU32) :
    ∃ enough, ∀ queries ≥ enough,
      (getDustGenerationDtimeUpdates db owner batchSize cutoff upper queries 0).outcome = .ok () ∨
        ∃ row ∈ dtimeRows db, row.2.owner = owner ∧ ∃ e, decodeDtimeRow row = .error e ∧
          (getDustGenerationDtimeUpdates db owner batchSize cutoff upper queries 0).outcome =
            .error e := by
  obtain ⟨taken, ⟨enough, ended⟩, _⟩ := delivers_exists
    (updatesBetween_ordered db owner cutoff upper) batchSize.pos 1
  refine ⟨enough, fun queries more => ?_⟩
  have finished : (pages (dtimePage db owner batchSize cutoff upper) eventId queries 0).2 =
      true := by
    rw [dtime_pages cutoffFits upperFits]
    exact congrArg Prod.snd (pages_of_le ended more)
  rcases tryPages_ends (dtimePage db owner batchSize cutoff upper) decodeDtimeRow eventId
    (fun _ => rfl) (fun _ _ value => decodeDtimeRow_id value) finished with
    done | ⟨after, e, failed, outcome⟩
  · exact .inl done
  · obtain ⟨row, listed, cause⟩ := mapM_failure failed
    have selected := Sql.mem_orderBy.mp (mem_of_mem_take listed)
    obtain ⟨stored, chosen⟩ := mem_filter.mp selected
    exact .inr ⟨row, stored, (of_decide_eq_true chosen).2.2.1, e, cause, outcome⟩

end

/-! ## The block and the cutoff of a snapshot -/

theorem resolveSnapshot_block {crates : LedgerCrates}
    {rootLoadable : ByteVec → LedgerVersion → Option Bool} {config : DustGenerationsConfig}
    {blockHash : ByteVec} {block : DustBlock} {ledger : LedgerState crates}
    (resolved : resolveSnapshot crates rootLoadable db config blockHash = .ok (block, ledger)) :
    db.blocks.find? (·.hash = blockHash) = some block := by
  obtain ⟨found, looked, resolved⟩ := bind_success resolved
  have stored : db.blocks.find? (·.hash = blockHash) = some found := by
    cases result : db.blocks.find? (·.hash = blockHash) with
    | none =>
      rw [result] at looked
      cases looked
    | some b =>
      rw [result] at looked
      cases looked
      rfl
  dsimp only at resolved
  split at resolved
  · cases resolved
  · obtain ⟨loadable, _, resolved⟩ := bind_success resolved
    split at resolved
    · obtain ⟨_, _, resolved⟩ := bind_success resolved
      cases resolved
      exact stored
    · cases resolved

theorem cutoffBlockId_lt {dtimeCutoffHeight : UInt64} {cutoff : Nat}
    (found : cutoffBlockId db dtimeCutoffHeight = .ok cutoff) : cutoff < 2 ^ 63 := by
  unfold cutoffBlockId at found
  split at found
  · cases found
    exact Nat.two_pow_pos 63
  · split at found
    · cases result : db.blocks.find? (·.height = dtimeCutoffHeight.toNat) with
      | none =>
        rw [result] at found
        cases found
        exact Nat.two_pow_pos 63
      | some block =>
        rw [result] at found
        cases found
        exact (db.blockColumns block (mem_of_find?_eq_some result)).2.1
    · cases found

/-- Enough queries complete the first part, or one of the owner's rows does not decode. -/
theorem emitDtimeUpdates_complete {block : DustBlock} (stored : block ∈ db.blocks)
    {dtimeCutoffHeight : UInt64} (small : dtimeCutoffHeight.toNat < 2 ^ 32) (owner : ByteVec)
    (config : DustGenerationsConfig) : ∃ enough, ∀ queries ≥ enough,
      (emitDtimeUpdates db owner config block dtimeCutoffHeight queries).outcome = .ok () ∨
        ∃ row ∈ dtimeRows db, row.2.owner = owner ∧ ∃ e, decodeDtimeRow row = .error e ∧
          (emitDtimeUpdates db owner config block dtimeCutoffHeight queries).outcome =
            .error e := by
  have found : ∃ cutoff, cutoffBlockId db dtimeCutoffHeight = .ok cutoff := by
    unfold cutoffBlockId
    split
    · exact ⟨0, rfl⟩
    · exact ⟨_, rfl⟩
  obtain ⟨cutoff, found⟩ := found
  obtain ⟨enough, complete⟩ := dtime_complete (cutoffBlockId_lt found)
    (db.blockColumns block stored).2.1 db owner config.batchSize
  refine ⟨enough, fun queries more => ?_⟩
  unfold emitDtimeUpdates
  rw [found]
  exact complete queries more

end MidnightIndexer.Guarantees.DustPages
