import MidnightIndexer.Lib.Replay
import MidnightIndexer.Source.ProcessEpoch

/-!
# What the loop over the registrations writes

The loop saves the pool, the identity and the history of each registration. The identities
and the history are writes that commute and may be repeated, as long as no two different ones
share a key. The pools have a closed form: stored rows are refreshed, new ones are added, and
a second save of a new one sets the time of its update.

The pools are asked for by their ids, and the client answers with metadata of that id
(spo-indexer/src/infra/spo_client.rs:358-370). The generated key of the history is left out.
-/

namespace MidnightIndexer.Guarantees.RegistrationOrder

open Lib List Source.SpoIndexer SpoStorage

/-! ## Identities and history -/

/-- One of the four keys is the same. -/
def Shares (a b : Spo) : Prop :=
  a.spoSk = b.spoSk ∨ a.mainchainPubkey = b.mainchainPubkey ∨ a.auraPubkey = b.auraPubkey ∨
    a.sidechainPubkey = b.sidechainPubkey

instance (a b : Spo) : Decidable (Shares a b) := by
  unfold Shares
  infer_instance

theorem Shares.symm {a b : Spo} (shares : Shares a b) : Shares b a := by
  rcases shares with same | same | same | same
  · exact .inl same.symm
  · exact .inr (.inl same.symm)
  · exact .inr (.inr (.inl same.symm))
  · exact .inr (.inr (.inr same.symm))

def addIdentity (identities : List Spo) (spo : Spo) : List Spo :=
  if identities.any fun si => Shares si spo then identities else identities ++ [spo]

def identityOf (entry : Entry) : Spo where
  spoSk := entry.spoSk
  sidechainPubkey := entry.spoSk
  poolId := entry.1
  auraPubkey := removeHexPrefix entry.2.aura
  mainchainPubkey := removeHexPrefix entry.2.mainchainPubKey

def statusOf (entry : Entry) : SpoStatus := if entry.2.isValid then .valid else .invalid

/-- The table `spo_history` after `save_spo_history` for a stored identity. -/
def addHistory (epochNo : Int) (entry : Entry) (history : List HistoryRow) : List HistoryRow :=
  Table.upsert (fun row => (row.spoSk, row.epochNo))
    ⟨entry.spoSk, epochNo, statusOf entry, epochNo, epochNo⟩
    (fun old => { old with validTo := epochNo, status := statusOf entry }) history

def writeEntry (epochNo : Int) (tables : List Spo × List HistoryRow) (entry : Entry) :
    List Spo × List HistoryRow :=
  let identities := addIdentity tables.1 (identityOf entry)
  (identities,
    if identities.any fun si => si.spoSk = entry.spoSk then addHistory epochNo entry tables.2
    else tables.2)

theorem addIdentity_perm {identities identities' : List Spo} (same : identities.Perm identities')
    (spo : Spo) : (addIdentity identities spo).Perm (addIdentity identities' spo) := by
  unfold addIdentity
  rw [same.any_eq]
  split
  · exact same
  · exact same.append_right _

/-- A row that is not asked for makes no difference. -/
theorem any_addIdentity {q : Spo → Bool} {spo : Spo} (other : q spo = false)
    (identities : List Spo) : (addIdentity identities spo).any q = identities.any q := by
  unfold addIdentity
  split
  · rfl
  · rw [any_append, any_cons, any_nil, other, Bool.or_false, Bool.or_false]

theorem addIdentity_comm {a b : Spo} (apart : ¬Shares a b) (identities : List Spo) :
    (addIdentity (addIdentity identities a) b).Perm (addIdentity (addIdentity identities b) a) := by
  have second : (addIdentity identities a).any (fun si => Shares si b) =
      identities.any fun si => Shares si b := any_addIdentity (decide_eq_false apart) _
  have first : (addIdentity identities b).any (fun si => Shares si a) =
      identities.any fun si => Shares si a :=
    any_addIdentity (decide_eq_false fun shares => apart shares.symm) _
  rw [addIdentity, second]
  conv_rhs => rw [addIdentity, first]
  unfold addIdentity
  split <;> split
  · exact Perm.refl _
  · exact Perm.refl _
  · exact Perm.refl _
  · rw [append_assoc, append_assoc]
    exact (Perm.swap b a []).append_left identities

theorem addIdentity_idem (identities : List Spo) (spo : Spo) :
    addIdentity (addIdentity identities spo) spo = addIdentity identities spo := by
  have taken : (addIdentity identities spo).any (fun si => Shares si spo) = true := by
    unfold addIdentity
    split
    next conflict => exact conflict
    next => simp [Shares]
  conv_lhs => rw [addIdentity, if_pos taken]

/-- Whether a registration has an identity does not depend on one with other keys. -/
theorem identified_addIdentity {entry : Entry} {other : Spo}
    (apart : ¬Shares other (identityOf entry)) (identities : List Spo) :
    (addIdentity (addIdentity identities other) (identityOf entry)).any
        (fun si => si.spoSk = entry.spoSk) =
      (addIdentity identities (identityOf entry)).any fun si => si.spoSk = entry.spoSk := by
  have conflicts : (addIdentity identities other).any (fun si => Shares si (identityOf entry)) =
      identities.any fun si => Shares si (identityOf entry) :=
    any_addIdentity (decide_eq_false apart) _
  have named : (addIdentity identities other).any (fun si => si.spoSk = entry.spoSk) =
      identities.any fun si => si.spoSk = entry.spoSk :=
    any_addIdentity (decide_eq_false fun same => apart (.inl same)) _
  rw [addIdentity, conflicts]
  conv_rhs => rw [addIdentity]
  split
  · exact named
  · rw [any_append, any_append, named]

theorem addHistory_comm {epochNo : Int} {a b : Entry} (apart : a.spoSk ≠ b.spoSk)
    (history : List HistoryRow) : (addHistory epochNo b (addHistory epochNo a history)).Perm
      (addHistory epochNo a (addHistory epochNo b history)) := by
  unfold addHistory
  refine Table.upsert_comm ?_ ?_ (fun same => apart (congrArg Prod.fst same)) history
  · exact fun _ => rfl
  · exact fun _ => rfl

theorem addHistory_idem (epochNo : Int) (entry : Entry) (history : List HistoryRow) :
    addHistory epochNo entry (addHistory epochNo entry history) =
      addHistory epochNo entry history := by
  unfold addHistory
  refine Table.upsert_idem ?_ ?_ rfl history
  · exact fun _ => rfl
  · exact fun _ => rfl

def SameTables (tables tables' : List Spo × List HistoryRow) : Prop :=
  tables.1.Perm tables'.1 ∧ tables.2.Perm tables'.2

/-- Registrations that share no key unless they are equal may be saved in any order and
number. -/
theorem writeEntry_laws (epochNo : Int) {entries : List Entry}
    (distinct : ∀ a ∈ entries, ∀ b ∈ entries, Shares (identityOf a) (identityOf b) → a = b) :
    Replay.Laws (writeEntry epochNo) SameTables fun entry => entry ∈ entries where
  equivalence := {
    refl := fun tables => ⟨Perm.refl _, Perm.refl _⟩
    symm := fun same => ⟨same.1.symm, same.2.symm⟩
    trans := fun first second => ⟨first.1.trans second.1, first.2.trans second.2⟩ }
  congr := by
    intro tables tables' entry same
    have identities := addIdentity_perm same.1 (identityOf entry)
    refine ⟨identities, ?_⟩
    unfold writeEntry
    dsimp only
    rw [identities.any_eq]
    split
    · exact Table.upsert_perm same.2
    · exact same.2
  commute := by
    intro tables a b first second
    by_cases equal : a = b
    · rw [equal]
      exact ⟨Perm.refl _, Perm.refl _⟩
    have apart : ¬Shares (identityOf a) (identityOf b) :=
      fun shares => equal (distinct a first b second shares)
    refine ⟨addIdentity_comm apart tables.1, ?_⟩
    unfold writeEntry
    dsimp only
    rw [identified_addIdentity apart, identified_addIdentity fun shares => apart shares.symm]
    split <;> split
    · exact addHistory_comm (fun same => apart (.inl same)) tables.2
    · exact Perm.refl _
    · exact Perm.refl _
    · exact Perm.refl _
  idem := by
    intro tables entry
    unfold writeEntry
    dsimp only
    rw [addIdentity_idem]
    refine ⟨Perm.refl _, ?_⟩
    dsimp only
    split
    · rw [addHistory_idem]
    · exact Perm.refl _

/-! ## Pools -/

section

variable (answers : Answers)

/-- The table `pool_metadata_cache` after `save_pool_meta` for a pool. -/
def savePoolRow (pools : List PoolMetadataRow) (id : Text) :
    Except SpoError (List PoolMetadataRow) :=
  let metadata := metadataOf answers id
  if pools.any fun old => old.poolId = metadata.poolId then
    .ok (Table.update (fun row => row.poolId) metadata.poolId
      (SpoStorage.refreshMetadata metadata answers.now) pools)
  else if pools.any fun old => old.hexId = metadata.hexId then .error .storage
  else .ok (pools ++ [⟨metadata, none⟩])

def refreshed (taken : List Text) (row : PoolMetadataRow) : PoolMetadataRow :=
  if row.poolId ∈ taken then
    SpoStorage.refreshMetadata (metadataOf answers row.poolId) answers.now row
  else row

def newRow (taken : List Text) (id : Text) : PoolMetadataRow :=
  ⟨metadataOf answers id, if taken.count id = 1 then none else some answers.now⟩

def newIds (stored : List PoolMetadataRow) (taken : List Text) : List Text :=
  taken.dedup.filter fun id => stored.all fun row => row.poolId ≠ id

def poolsAfter (stored : List PoolMetadataRow) (taken : List Text) : List PoolMetadataRow :=
  stored.map (refreshed answers taken) ++ (newIds stored taken).map (newRow answers taken)

/-- No new pool has the hexadecimal id of another row. -/
def Fits (stored : List PoolMetadataRow) (taken : List Text) : Prop :=
  ∀ id ∈ newIds stored taken, (∀ row ∈ stored, row.hexId ≠ (metadataOf answers id).hexId) ∧
    ∀ other ∈ newIds stored taken,
      (metadataOf answers other).hexId = (metadataOf answers id).hexId → other = id

variable {stored rows : List PoolMetadataRow} {taken taken' : List Text} {id : Text}

theorem mem_newIds : id ∈ newIds stored taken ↔ id ∈ taken ∧ ∀ row ∈ stored, row.poolId ≠ id := by
  simp only [newIds, mem_filter, mem_dedup, all_eq_true, decide_eq_true_eq]

theorem newIds_nodup (stored : List PoolMetadataRow) (taken : List Text) :
    (newIds stored taken).Nodup := (nodup_dedup taken).filter _

theorem Fits.of_subset {answers : Answers} (fits : Fits answers stored taken')
    (within : taken ⊆ taken') : Fits answers stored taken := by
  have larger : newIds stored taken ⊆ newIds stored taken' := fun id member => by
    obtain ⟨listed, unstored⟩ := mem_newIds.mp member
    exact mem_newIds.mpr ⟨within listed, unstored⟩
  intro id member
  obtain ⟨old, new⟩ := fits id (larger member)
  exact ⟨old, fun other known => new other (larger known)⟩

/-- A pool that is stored or was saved already adds no new one. -/
theorem newIds_cons_known (known : (∃ row ∈ stored, row.poolId = id) ∨ id ∈ taken) :
    newIds stored (id :: taken) = newIds stored taken := by
  unfold newIds
  by_cases again : id ∈ taken
  · rw [dedup_cons_of_mem again]
  · rw [dedup_cons_of_notMem again, filter_cons_of_neg]
    obtain ⟨row, member, same⟩ := known.resolve_right again
    intro unstored
    exact of_decide_eq_true (all_eq_true.mp unstored row member) same

theorem newIds_cons_fresh (unstored : ∀ row ∈ stored, row.poolId ≠ id) (fresh : id ∉ taken) :
    newIds stored (id :: taken) = id :: newIds stored taken := by
  unfold newIds
  rw [dedup_cons_of_notMem fresh, filter_cons_of_pos]
  exact all_eq_true.mpr fun row member => decide_eq_true (unstored row member)

theorem orOld_self (text : Text) : orOld text text = text := by
  unfold orOld
  split <;> rfl

theorem orOld_again (new old : Text) : orOld new (orOld new old) = orOld new old := by
  unfold orOld
  split <;> rfl

theorem refreshMetadata_again (metadata : PoolMetadata) (now : Int) (row : PoolMetadataRow) :
    refreshMetadata metadata now (refreshMetadata metadata now row) =
      refreshMetadata metadata now row := by
  unfold refreshMetadata
  simp only [orOld_again]

theorem refreshMetadata_new (metadata : PoolMetadata) (now : Int) (time : Option Int) :
    refreshMetadata metadata now ⟨metadata, time⟩ = ⟨metadata, some now⟩ := by
  unfold refreshMetadata
  simp only [orOld_self]

theorem refreshed_poolId (taken : List Text) (row : PoolMetadataRow) :
    (refreshed answers taken row).poolId = row.poolId := by
  unfold refreshed
  split <;> rfl

theorem refreshed_hexId (taken : List Text) (row : PoolMetadataRow) :
    (refreshed answers taken row).hexId = row.hexId := by
  unfold refreshed
  split <;> rfl

variable {answers}
variable (own : ∀ id metadata, answers.poolMetadata id = some metadata → metadata.poolId = id)

include own in
theorem metadataOf_poolId (id : Text) : (metadataOf answers id).poolId = id := by
  unfold metadataOf
  cases found : answers.poolMetadata id with
  | none => rfl
  | some metadata => exact own id metadata found

include own in
theorem any_poolsAfter : (poolsAfter answers stored taken).any (fun row => row.poolId = id) = true ↔
      (∃ row ∈ stored, row.poolId = id) ∨ id ∈ taken := by
  rw [poolsAfter, any_append, Bool.or_eq_true, any_map, any_map, any_eq_true, any_eq_true]
  simp only [Function.comp_apply, refreshed_poolId, newRow, metadataOf_poolId own,
    decide_eq_true_eq, exists_eq_right, mem_newIds]
  constructor
  · rintro (old | new)
    · exact .inl old
    · exact .inr new.1
  · rintro (old | new)
    · exact .inl old
    · by_cases known : ∃ row ∈ stored, row.poolId = id
      · exact .inl known
      · exact .inr ⟨new, fun row member same => known ⟨row, member, same⟩⟩

include own in
theorem update_poolsAfter (known : (∃ row ∈ stored, row.poolId = id) ∨ id ∈ taken) :
    Table.update (fun row => row.poolId) id (refreshMetadata (metadataOf answers id) answers.now)
        (poolsAfter answers stored taken) = poolsAfter answers stored (id :: taken) := by
  unfold poolsAfter Table.update
  rw [newIds_cons_known known, map_append, map_map, map_map]
  congr 1
  · refine map_congr_left fun row _ => ?_
    simp only [Function.comp_apply, refreshed_poolId]
    unfold refreshed
    by_cases here : row.poolId = id
    · rw [if_pos here, here, if_pos mem_cons_self]
      split
      · exact refreshMetadata_again _ _ row
      · rfl
    · rw [if_neg here]
      simp only [mem_cons, here, false_or]
  · refine map_congr_left fun other listed => ?_
    have saved := count_pos_iff.mpr (mem_newIds.mp listed).1
    simp only [Function.comp_apply, newRow, metadataOf_poolId own]
    by_cases here : other = id
    · subst here
      rw [if_pos rfl, refreshMetadata_new, count_cons_self, if_neg (by omega)]
    · rw [if_neg here, count_cons_of_ne (Ne.symm here)]

theorem append_poolsAfter (unstored : ∀ row ∈ stored, row.poolId ≠ id) (fresh : id ∉ taken) :
    (poolsAfter answers stored taken ++ [(⟨metadataOf answers id, none⟩ : PoolMetadataRow)]).Perm
      (poolsAfter answers stored (id :: taken)) := by
  have stored_same : stored.map (refreshed answers (id :: taken)) =
      stored.map (refreshed answers taken) := by
    refine map_congr_left fun row member => ?_
    unfold refreshed
    simp only [mem_cons, unstored row member, false_or]
  have new_same : (newIds stored taken).map (newRow answers (id :: taken)) =
      (newIds stored taken).map (newRow answers taken) := by
    refine map_congr_left fun other listed => ?_
    have different : id ≠ other := fun same => fresh (same ▸ (mem_newIds.mp listed).1)
    unfold newRow
    rw [count_cons_of_ne different]
  have first : newRow answers (id :: taken) id = ⟨metadataOf answers id, none⟩ := by
    unfold newRow
    rw [count_cons_self, count_eq_zero_of_not_mem fresh, if_pos rfl]
  unfold poolsAfter
  rw [newIds_cons_fresh unstored fresh, map_cons, stored_same, new_same, first, append_assoc]
  exact perm_append_singleton _ _ |>.append_left _

theorem any_hexId_poolsAfter {hexId : Text} :
    (poolsAfter answers stored taken).any (fun row => row.hexId = hexId) = true ↔
      (∃ row ∈ stored, row.hexId = hexId) ∨
        ∃ id ∈ newIds stored taken, (metadataOf answers id).hexId = hexId := by
  rw [poolsAfter, any_append, Bool.or_eq_true, any_map, any_map, any_eq_true, any_eq_true]
  simp only [Function.comp_apply, refreshed_hexId, decide_eq_true_eq]
  exact Iff.rfl

theorem Fits.cons_fresh (fits : Fits answers stored taken)
    (unstored : ∀ row ∈ stored, row.poolId ≠ id) (fresh : id ∉ taken)
    (free : ¬(poolsAfter answers stored taken).any
      (fun row => row.hexId = (metadataOf answers id).hexId) = true) :
    Fits answers stored (id :: taken) := by
  rw [any_hexId_poolsAfter, not_or] at free
  unfold Fits
  rw [newIds_cons_fresh unstored fresh]
  intro first listed
  rcases mem_cons.mp listed with rfl | before
  · refine ⟨fun row member same => free.1 ⟨row, member, same⟩, fun other known same => ?_⟩
    rcases mem_cons.mp known with here | earlier
    · exact here
    · exact absurd ⟨other, earlier, same⟩ free.2
  · refine ⟨(fits first before).1, fun other known same => ?_⟩
    rcases mem_cons.mp known with rfl | earlier
    · exact absurd ⟨first, before, same.symm⟩ free.2
    · exact (fits first before).2 other earlier same

include own in
/-- One more pool, unless it is new and its hexadecimal id is taken. -/
theorem savePoolRow_cases (before : rows.Perm (poolsAfter answers stored taken))
    (fits : Fits answers stored taken) : (∃ next, savePoolRow answers rows id = .ok next ∧
        next.Perm (poolsAfter answers stored (id :: taken)) ∧ Fits answers stored (id :: taken)) ∨
      ∃ e, savePoolRow answers rows id = .error e ∧ ¬Fits answers stored (id :: taken) := by
  unfold savePoolRow
  dsimp only
  rw [metadataOf_poolId own, before.any_eq, before.any_eq]
  split
  next present =>
    have known := (any_poolsAfter own).mp present
    rw [← update_poolsAfter own known]
    refine .inl ⟨_, rfl, before.map _, ?_⟩
    unfold Fits
    rwa [newIds_cons_known known]
  next absent =>
    rw [any_poolsAfter own, not_or] at absent
    have unstored : ∀ row ∈ stored, row.poolId ≠ id :=
      fun row member same => absent.1 ⟨row, member, same⟩
    split
    next conflict =>
      refine .inr ⟨_, rfl, fun fits => ?_⟩
      have new : id ∈ newIds stored (id :: taken) := mem_newIds.mpr ⟨mem_cons_self, unstored⟩
      rcases any_hexId_poolsAfter.mp conflict with ⟨row, member, same⟩ | ⟨other, listed, same⟩
      · exact (fits id new).1 row member same
      · obtain ⟨known, unstored⟩ := mem_newIds.mp listed
        have equal := (fits id new).2 other
          (mem_newIds.mpr ⟨mem_cons_of_mem id known, unstored⟩) same
        exact absent.2 (equal ▸ known)
    next free =>
      exact .inl ⟨_, rfl, (before.append_right _).trans (append_poolsAfter unstored absent.2),
        fits.cons_fresh unstored absent.2 free⟩

theorem poolsAfter_nil (stored : List PoolMetadataRow) : poolsAfter answers stored [] = stored := by
  have untouched : ∀ row ∈ stored, refreshed answers [] row = row := by
    intro row _
    unfold refreshed
    rw [if_neg not_mem_nil]
  unfold poolsAfter
  rw [map_congr_left untouched, map_id']
  exact append_nil stored

include own in
/-- The loop over the pools, by induction on those to come. -/
theorem savePools_cases (ids taken : List Text)
    (before : rows.Perm (poolsAfter answers stored taken)) (fits : Fits answers stored taken) :
    (∃ last, ids.foldlM (savePoolRow answers) rows = .ok last ∧
        last.Perm (poolsAfter answers stored (ids.reverse ++ taken)) ∧
        Fits answers stored (ids.reverse ++ taken)) ∨
      ∃ e, ids.foldlM (savePoolRow answers) rows = .error e ∧
        ¬Fits answers stored (ids.reverse ++ taken) := by
  induction ids generalizing taken rows with
  | nil => exact .inl ⟨rows, rfl, before, fits⟩
  | cons id rest ih =>
    rw [foldlM_cons, reverse_cons, append_assoc, singleton_append]
    rcases savePoolRow_cases own before fits with ⟨next, saved, after, now⟩ | ⟨e, failed, unfit⟩
    · rw [saved]
      exact ih (id :: taken) after now
    · rw [failed]
      exact .inr ⟨e, rfl, fun fits => unfit (fits.of_subset (subset_append_right _ _))⟩

/-! ## Pools in any order and number -/

variable (same : ∀ id, id ∈ taken ↔ id ∈ taken')

include same

theorem newIds_perm : (newIds stored taken).Perm (newIds stored taken') := by
  rw [perm_ext_iff_of_nodup (newIds_nodup _ _) (newIds_nodup _ _)]
  intro id
  rw [mem_newIds, mem_newIds, same]

theorem refreshed_same : refreshed answers taken = refreshed answers taken' := by
  funext row
  unfold refreshed
  simp only [same]

theorem poolsAfter_texts (stored : List PoolMetadataRow) :
    ((poolsAfter answers stored taken).map PoolMetadataRow.toPoolMetadata).Perm
      ((poolsAfter answers stored taken').map PoolMetadataRow.toPoolMetadata) := by
  have texts : ∀ saved, PoolMetadataRow.toPoolMetadata ∘ newRow answers saved =
      metadataOf answers := fun _ => rfl
  unfold poolsAfter
  simp only [refreshed_same same, map_append, map_map, texts]
  exact ((newIds_perm same).map _).append_left _

/-- The times of the new ones also on whether they are saved once. -/
theorem poolsAfter_times
    (once : ∀ id ∈ newIds stored taken, taken.count id = 1 ↔ taken'.count id = 1) :
    (poolsAfter answers stored taken).Perm (poolsAfter answers stored taken') := by
  have rows : (newIds stored taken).map (newRow answers taken) =
      (newIds stored taken).map (newRow answers taken') := by
    refine map_congr_left fun id member => ?_
    unfold newRow
    simp only [once id member]
  unfold poolsAfter
  rw [refreshed_same same, rows]
  exact ((newIds_perm same).map _).append_left _

end

/-! ## The loop over the registrations -/

theorem saveSpo_eq (storage : SpoStorage) (spo : Spo) :
    storage.saveSpo spo = { storage with identities := addIdentity storage.identities spo } := by
  unfold saveSpo addIdentity
  by_cases conflict : storage.identities.any (fun si => Shares si spo) = true
  · rw [if_pos conflict]
    exact if_pos conflict
  · rw [if_neg conflict]
    exact if_neg conflict

theorem saveSpoHistory_eq (storage : SpoStorage) (entry : Entry) (epochNo : UInt64) :
    storage.saveSpoHistory entry.spoSk epochNo (statusOf entry) = { storage with
        history := if storage.identities.any fun si => si.spoSk = entry.spoSk then
          addHistory (Sql.asI64 epochNo.toNat) entry storage.history else storage.history } := by
  unfold saveSpoHistory hasIdentity
  dsimp only
  split <;> rfl

theorem savePoolMeta_eq (answers : Answers) (storage : SpoStorage) (id : Text) :
    storage.savePoolMeta (metadataOf answers id) answers.now =
      (savePoolRow answers storage.poolMetadata id).map fun pools =>
        { storage with poolMetadata := pools } := by
  unfold savePoolMeta savePoolRow
  dsimp only
  split
  · rfl
  · split <;> rfl

def withTables (storage : SpoStorage) (tables : List Spo × List HistoryRow)
    (pools : List PoolMetadataRow) : SpoStorage :=
  { storage with poolMetadata := pools, identities := tables.1, history := tables.2 }

theorem saveEntry_eq (answers : Answers) (epochNo : UInt32) (storage : SpoStorage) (entry : Entry) :
    saveEntry answers epochNo storage entry =
      (savePoolRow answers storage.poolMetadata entry.1).map (withTables storage
        (writeEntry (Sql.asI64 epochNo.toUInt64.toNat) (storage.identities, storage.history)
          entry)) := by
  unfold saveEntry
  rw [savePoolMeta_eq]
  cases savePoolRow answers storage.poolMetadata entry.1 with
  | error e => rfl
  | ok pools =>
    change Except.ok ((saveSpo _ (identityOf entry)).saveSpoHistory entry.spoSk
      epochNo.toUInt64 (statusOf entry)) = _
    rw [saveSpo_eq, saveSpoHistory_eq]
    rfl

/-- The loop writes the pools and the two other tables independently of each other. -/
theorem saveEntries_eq (answers : Answers) (epochNo : UInt32) (entries : List Entry)
    (storage : SpoStorage) : entries.foldlM (saveEntry answers epochNo) storage =
      ((entries.map Prod.fst).foldlM (savePoolRow answers) storage.poolMetadata).map
        (withTables storage (entries.foldl (writeEntry (Sql.asI64 epochNo.toUInt64.toNat))
          (storage.identities, storage.history))) := by
  induction entries generalizing storage with
  | nil => rfl
  | cons entry rest ih =>
    rw [foldlM_cons, saveEntry_eq, map_cons, foldlM_cons, foldl_cons]
    cases savePoolRow answers storage.poolMetadata entry.1 with
    | error e => rfl
    | ok pools => exact ih _

end MidnightIndexer.Guarantees.RegistrationOrder
