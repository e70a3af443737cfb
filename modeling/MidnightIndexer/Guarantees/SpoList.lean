import MidnightIndexer.Guarantees.EpochRange
import MidnightIndexer.Guarantees.StakeRefresh
import MidnightIndexer.Source.SpoQueries
import MidnightIndexer.Source.SpoTasks

/-!
# The list of SPOs

A row of the list needs an identity of its pool, though the join does not: the identity of a
registration is left out if one of its keys is taken, while the metadata of its pool is stored
and its stake refreshed. A pool with two identities has two rows.
-/

namespace MidnightIndexer.Guarantees.SpoList

open Lib List Sql
open Source.IndexerApi
open Source.SpoIndexer (SpoClient SpoTasks StakeStorage SnapshotRow TaskInput Text taskStep
  taskStep_snapshots)

variable {Saturation κ : Type} [LinearOrder κ]

def identitiesOf (db : StakeStorage Saturation) (poolId : Text) :
    List Source.SpoIndexer.Spo :=
  db.identities.filter fun si => si.poolId = poolId

/-- No page fails to decode, and the whole list has one row for each pool with a snapshot. -/
structure Listed (ilike : Text → Text → Bool) (backend : Sql.Backend) (collate : Text → κ)
    (db : StakeStorage Saturation) : Prop where
  decodes : ∀ limit offset search,
    getSpoList ilike backend collate db limit offset search ≠ .error .decode
  full : ∀ limit : Int, (spoListRows db).length ≤ limit →
    ∃ spos, getSpoList ilike backend collate db limit 0 none = .ok spos ∧
      (spos.map Spo.poolIdHex).Nodup ∧
      ∀ poolId, poolId ∈ spos.map Spo.poolIdHex ↔ ∃ s ∈ db.snapshots, s.poolId = poolId

/-! ## The rows -/

def rowsOf (db : StakeStorage Saturation) (s : SnapshotRow Saturation) : List SpoListRow :=
  (Sql.leftJoin db.identities fun si => si.poolId = s.poolId).flatMap fun si =>
    (Sql.leftJoin db.poolMetadata fun pm => pm.poolId = s.poolId).map fun pm => ⟨s.poolId, si, pm⟩

theorem spoListRows_eq (db : StakeStorage Saturation) :
    spoListRows db = db.snapshots.flatMap (rowsOf db) := rfl

/-- The metadata of a pool is one row or `NULL`. -/
theorem metadata_length (db : StakeStorage Saturation) (poolId : Text) :
    (leftJoin db.poolMetadata fun pm => pm.poolId = poolId).length = 1 := by
  rw [leftJoin_length]
  exact max_eq_left (Table.filter_key_length_le db.poolIdsUnique poolId)

open SpoListRow

theorem rowsOf_poolId (db : StakeStorage Saturation) (s : SnapshotRow Saturation) :
    (rowsOf db s).map poolId = replicate (max 1 (identitiesOf db s.poolId).length) s.poolId := by
  rw [eq_replicate_iff]
  constructor
  · rw [length_map, rowsOf, length_flatMap]
    simp only [length_map, metadata_length, map_const', sum_replicate_nat]
    rw [leftJoin_length, Nat.mul_one]
    rfl
  · intro poolId member
    obtain ⟨row, listed, rfl⟩ := mem_map.mp member
    obtain ⟨si, _, joined⟩ := mem_flatMap.mp listed
    obtain ⟨pm, _, rfl⟩ := mem_map.mp joined
    rfl

theorem rowsOf_identified (db : StakeStorage Saturation) (s : SnapshotRow Saturation) :
    (∀ row ∈ rowsOf db s, row.identity ≠ none) ↔ identitiesOf db s.poolId ≠ [] := by
  rw [identitiesOf, ne_eq, ← none_mem_leftJoin]
  constructor
  · intro identified missing
    obtain ⟨pm, joined⟩ := exists_mem_of_length_eq_add_one (metadata_length db s.poolId)
    exact identified ⟨s.poolId, none, pm⟩ (mem_flatMap.mpr ⟨none, missing,
      mem_map.mpr ⟨pm, joined, rfl⟩⟩) rfl
  · intro present row listed missing
    obtain ⟨si, member, joined⟩ := mem_flatMap.mp listed
    obtain ⟨pm, _, rfl⟩ := mem_map.mp joined
    exact present (missing ▸ member)

/-! ## The query -/

theorem decodeSpoListRow_success {row : SpoListRow} {spo : Spo}
    (success : decodeSpoListRow row = .ok spo) :
    spo.poolIdHex = row.poolId ∧ row.identity ≠ none := by
  unfold decodeSpoListRow at success
  split at success
  next si found =>
    cases success
    exact ⟨rfl, by rw [found]; exact Option.some_ne_none si⟩
  · cases success

theorem decodeSpoListRow_total {row : SpoListRow} (identified : row.identity ≠ none) :
    ∃ spo, decodeSpoListRow row = .ok spo := by
  obtain ⟨si, found⟩ := Option.ne_none_iff_exists'.mp identified
  exact ⟨spoOf row.poolId si row.metadata, by rw [decodeSpoListRow, found]⟩

section

variable (ilike : Text → Text → Bool) (backend : Sql.Backend) (collate : Text → κ)
  {db : StakeStorage Saturation}

theorem getSpoList_decodes (identified : ∀ row ∈ spoListRows db, row.identity ≠ none)
    (limit offset : Int) (search : Option Text) :
    getSpoList ilike backend collate db limit offset search ≠ .error .decode := by
  unfold getSpoList
  dsimp only
  cases paged : page backend limit offset (orderBy (spoListKey collate)
      ((spoListRows db).filter (selectsRow ilike search))) with
  | error e =>
    nofun
  | ok page =>
    have each : ∀ row ∈ page, ∃ spo, decodeSpoListRow row = .ok spo := by
      intro row member
      have selected := mem_orderBy.mp (mem_of_page paged member)
      exact decodeSpoListRow_total (identified row (mem_of_mem_filter selected))
    obtain ⟨spos, decoded⟩ := mapM_total each
    change page.mapM decodeSpoListRow ≠ _
    rw [decoded]
    nofun

theorem getSpoList_full {limit : Int} (enough : (spoListRows db).length ≤ limit) :
    getSpoList ilike backend collate db limit 0 none =
      (orderBy (spoListKey collate) (spoListRows db)).mapM decodeSpoListRow := by
  have all : (spoListRows db).filter (selectsRow ilike none) = spoListRows db :=
    filter_eq_self.mpr fun _ _ => rfl
  have ordered := (orderBy_perm (spoListKey collate) (spoListRows db)).length_eq
  unfold getSpoList
  dsimp only
  rw [all, page_all backend (ordered ▸ enough)]
  rfl

/-- For tables with one snapshot for a pool: the list is right exactly if each of these pools
has one identity. -/
theorem listed_iff (unique : (db.snapshots.map fun s => s.poolId).Nodup) :
    Listed ilike backend collate db ↔
      ∀ s ∈ db.snapshots, (identitiesOf db s.poolId).length = 1 := by
  have poolIds : (spoListRows db).map poolId = db.snapshots.flatMap fun s =>
      replicate (max 1 (identitiesOf db s.poolId).length) s.poolId := by
    rw [spoListRows_eq, map_flatMap]
    exact flatMap_congr fun s _ => rowsOf_poolId db s
  have ordered := orderBy_perm (spoListKey collate) (spoListRows db)
  have same {spos} (success : (orderBy (spoListKey collate) (spoListRows db)).mapM
      decodeSpoListRow = .ok spos) : spos.map Spo.poolIdHex = (orderBy _ (spoListRows db)).map poolId :=
    mapM_map success fun _ _ decoded => (decodeSpoListRow_success decoded).1
  constructor
  · intro listed s member
    obtain ⟨spos, success, distinct, _⟩ := listed.full _ (le_refl _)
    rw [getSpoList_full ilike backend collate (le_refl _)] at success
    have present : identitiesOf db s.poolId ≠ [] := by
      refine (rowsOf_identified db s).mp fun row joined => ?_
      have inside : row ∈ spoListRows db := mem_flatMap.mpr ⟨s, member, joined⟩
      obtain ⟨spo, decoded⟩ := mapM_each success (mem_orderBy.mpr inside)
      exact (decodeSpoListRow_success decoded).2
    rw [same success, (ordered.map poolId).nodup_iff, poolIds, nodup_flatMap] at distinct
    have single := nodup_replicate.mp (distinct.1 s member)
    have positive := length_pos_iff.mpr present
    omega
  · intro single
    have identified : ∀ row ∈ spoListRows db, row.identity ≠ none := by
      intro row listed
      obtain ⟨s, member, joined⟩ := mem_flatMap.mp listed
      refine (rowsOf_identified db s).mpr (fun empty => ?_) row joined
      have once := single s member
      simp [empty] at once
    have once_each : (spoListRows db).map poolId = db.snapshots.map fun s => s.poolId := by
      rw [poolIds, map_eq_flatMap]
      refine flatMap_congr fun s member => ?_
      rw [single s member]
      rfl
    refine ⟨getSpoList_decodes ilike backend collate identified, fun limit enough => ?_⟩
    have each : ∀ row ∈ orderBy (spoListKey collate) (spoListRows db),
        ∃ spo, decodeSpoListRow row = .ok spo := fun row member =>
      decodeSpoListRow_total (identified row (mem_orderBy.mp member))
    obtain ⟨spos, success⟩ := mapM_total each
    have permuted : (spos.map Spo.poolIdHex).Perm (db.snapshots.map fun s => s.poolId) := by
      rw [same success, ← once_each]
      exact ordered.map poolId
    refine ⟨spos, (getSpoList_full ilike backend collate enough).trans success,
      permuted.nodup_iff.mpr unique, fun poolId => ?_⟩
    rw [permuted.mem_iff, mem_map]

end

/-! ## Every run of the tasks -/

/-- Two candidates of an epoch that differ in all but the aura key. -/
def sharedAura : Source.SpoIndexer.Answers :=
  { EpochRange.atEpoch 12000 4 with
    registrations := fun _ => some
      [("a1".toList, [⟨"a1".toList, "b1".toList, "c1".toList, true⟩]),
        ("a2".toList, [⟨"a2".toList, "b2".toList, "c1".toList, true⟩])] }

def refreshedPair : StakeStorage Unit :=
  (run (taskStep EpochTimes.slotClient some .postgres (.refl Text) 10) SpoTasks.initial
    [.processEpoch sharedAura, .startCycle StakeRefresh.refreshAnswers,
      .refreshPool StakeRefresh.refreshAnswers, .refreshPool StakeRefresh.refreshAnswers]).tables

end MidnightIndexer.Guarantees.SpoList
