import MidnightIndexer.Source.RegisteredTotals

/-!
# What the totals of registered pools depend on

The range of the query enters twice. It is crossed with the pools, so without a pool there is
no row at all, and its last epoch stands in for the first epoch of a pool that was never seen.
-/

namespace MidnightIndexer.Guarantees.RegisteredTotals

open Lib List
open Source.IndexerApi hiding RegisteredTotals
open Source.SpoIndexer (StakeStorage Text)

variable {Saturation : Type}

/-- A row of the history, of a committee or of the performances names an identity of the pool. -/
def Seen (db : StakeStorage Saturation) (poolId : Text) : Prop :=
  ∃ si ∈ db.identities, si.poolId = poolId ∧
    ((∃ row ∈ db.history, si.spoSk = row.spoSk) ∨
      (∃ row ∈ db.memberships, si.sidechainPubkey = row.sidechainPubkey) ∨
      ∃ row ∈ db.performance, si.spoSk = row.spoSk)

/-- A row for each epoch of the range, totals that grow by what is newly registered, and rows
that do not depend on the range. -/
structure SeriesHolds (db : StakeStorage Saturation) : Prop where
  epochs : ∀ first last, (getRegisteredTotalsSeries db first last).map (fun row => row.epochNo) =
    Aggregate.series (min first last) (max first last)
  grows : ∀ first last, (getRegisteredTotalsSeries db first last).IsChain fun earlier later =>
    later.totalRegistered = earlier.totalRegistered + later.newlyRegistered
  same : ∀ first last first' last', ∀ row ∈ getRegisteredTotalsSeries db first last,
    ∀ row' ∈ getRegisteredTotalsSeries db first' last', row.epochNo = row'.epochNo → row = row'

/-! ## The first epochs -/

theorem mem_poolEpochs {ρ : Type} {identities : List Source.SpoIndexer.Spo} {rows : List ρ}
    {epochNo : ρ → Int} {joins : ρ → Source.SpoIndexer.Spo → Bool} {poolId : Text} :
    (∃ epoch, (poolId, epoch) ∈ poolEpochs identities rows epochNo joins) ↔
      ∃ si ∈ identities, si.poolId = poolId ∧ ∃ row ∈ rows, joins row si = true := by
  constructor
  · rintro ⟨epoch, member⟩
    obtain ⟨row, listed, member⟩ := mem_flatMap.mp member
    obtain ⟨joined, found, named⟩ := mem_filterMap.mp member
    obtain ⟨si, rfl, same⟩ := Option.map_eq_some_iff.mp named
    obtain ⟨known, joins⟩ := Sql.some_mem_leftJoin.mp found
    cases same
    exact ⟨si, known, rfl, row, listed, joins⟩
  · rintro ⟨si, known, rfl, row, listed, joins⟩
    exact ⟨epochNo row, mem_flatMap.mpr ⟨row, listed, mem_filterMap.mpr
      ⟨some si, Sql.some_mem_leftJoin.mpr ⟨known, joins⟩, rfl⟩⟩⟩

variable {db : StakeStorage Saturation}

theorem mem_firsts0 {poolId : Text} : (∃ epoch, (poolId, epoch) ∈ firsts0 db) ↔ Seen db poolId := by
  rw [firsts0, Aggregate.mem_leastBy, unionFirsts]
  simp only [mem_append, exists_or, Aggregate.mem_leastBy, mem_poolEpochs, decide_eq_true_eq]
  simp only [Seen, ← exists_or, ← and_or_left, or_assoc]

/-- The first epochs of the pools, where there are any. -/
def seenEpochs (db : StakeStorage Saturation) : List (Option Int) :=
  db.snapshots.flatMap fun c =>
    (Sql.leftJoin (firsts0 db) fun f0 => f0.1 = c.poolId).map fun f0 => f0.map Prod.snd

theorem firstsCur_epochs (db : StakeStorage Saturation) (stop : Int) :
    (firstsCur db stop).map Prod.snd = (seenEpochs db).map fun epoch => epoch.getD stop := by
  simp only [firstsCur, seenEpochs, map_flatMap, map_map]
  rfl

theorem none_mem_seenEpochs : none ∈ seenEpochs db ↔ ∃ s ∈ db.snapshots, ¬Seen db s.poolId := by
  have unseen : ∀ poolId, none ∈ (Sql.leftJoin (firsts0 db) fun f0 => f0.1 = poolId).map
      (fun f0 => f0.map Prod.snd) ↔ ¬Seen db poolId := by
    intro poolId
    rw [← mem_firsts0, mem_map]
    simp only [Option.map_eq_none_iff, exists_eq_right, Sql.none_mem_leftJoin,
      filter_eq_nil_iff, decide_eq_true_eq, not_exists]
    constructor
    · exact fun missing epoch member => missing _ member rfl
    · rintro missing row member rfl
      exact missing row.2 member
  rw [seenEpochs, mem_flatMap]
  simp only [unseen]

theorem seenEpochs_eq_nil : seenEpochs db = [] ↔ db.snapshots = [] := by
  rw [seenEpochs, flatMap_eq_nil_iff]
  constructor
  · intro empty
    refine eq_nil_iff_forall_not_mem.mpr fun c member => ?_
    have joined := congrArg length (empty c member)
    rw [length_map, Sql.leftJoin_length, length_nil] at joined
    omega
  · intro empty c member
    rw [empty] at member
    cases member

/-! ## The rows -/

def rowAt (firsts : List Int) (epochNo : Int) : Source.IndexerApi.RegisteredTotals :=
  ⟨epochNo, firsts.countP fun first => first ≤ epochNo, firsts.countP fun first => first = epochNo⟩

def countedEpochs (db : StakeStorage Saturation) (stop : Int) : List Int :=
  (seenEpochs db).map fun epoch => epoch.getD stop

theorem getRegisteredTotalsSeries_eq (stored : db.snapshots ≠ []) (first last : Int) :
    getRegisteredTotalsSeries db first last =
      (Aggregate.series (min first last) (max first last)).map
        (rowAt (countedEpochs db (max first last))) := by
  have nonempty : firstsCur db (max last first) ≠ [] := by
    intro empty
    have epochs := firstsCur_epochs db (max last first)
    rw [empty, map_nil, eq_comm, map_eq_nil_iff, seenEpochs_eq_nil] at epochs
    exact stored epochs
  have increasing := Aggregate.series_increasing (min first last) (max last first)
  have groups := Aggregate.groupBy_product (increasing.imp ne_of_lt) nonempty
  have rows : (registeredTotals ∘ fun epochNo =>
      (epochNo, (firstsCur db (max last first)).map (Prod.mk epochNo))) =
        rowAt (countedEpochs db (max last first)) := by
    funext epochNo
    simp only [Function.comp_apply, registeredTotals, rowAt, countedEpochs, ← firstsCur_epochs,
      countP_map]
    rfl
  rw [getRegisteredTotalsSeries, max_comm first last]
  refine Sql.orderBy_eq_of_perm ?_ (pairwise_map.mpr increasing)
  have mapped := (groups.map registeredTotals).symm
  rwa [map_map, rows] at mapped

theorem getRegisteredTotalsSeries_nil (empty : db.snapshots = []) (first last : Int) :
    getRegisteredTotalsSeries db first last = [] := by
  have pools : firstsCur db (max last first) = [] := by
    rw [firstsCur, empty, flatMap_nil]
  rw [getRegisteredTotalsSeries, pools, product_nil]
  rfl

/-- A pool that was never seen is counted from the end of the range. -/
theorem countP_countedEpochs (epochs : List (Option Int)) (stop epochNo : Int) :
    ((epochs.map fun epoch => epoch.getD stop).countP fun first => first ≤ epochNo) =
      (epochs.countP fun epoch => epoch.any fun first => first ≤ epochNo) +
        if stop ≤ epochNo then epochs.count none else 0 := by
  induction epochs with
  | nil => simp
  | cons epoch rest ih =>
    rw [map_cons, countP_cons, countP_cons, count_cons, ih]
    cases epoch with
    | none =>
      by_cases reached : stop ≤ epochNo
      · simp [reached, Nat.add_assoc]
      · simp [reached]
    | some first => simp [Nat.add_right_comm]

/-- The pools up to an epoch are those up to the one before and those of the epoch. -/
theorem rowAt_next (firsts : List Int) (epochNo : Int) :
    (rowAt firsts (epochNo + 1)).totalRegistered =
      (rowAt firsts epochNo).totalRegistered + (rowAt firsts (epochNo + 1)).newlyRegistered := by
  dsimp only [rowAt]
  induction firsts with
  | nil => rfl
  | cons first rest ih =>
    simp only [countP_cons, decide_eq_true_eq, ih]
    split <;> split <;> split <;> omega

/-! ## The series -/

/-- For every content of the tables: the series holds in all ranges exactly if there is a pool
with a snapshot and each such pool has been seen in some epoch. -/
theorem registered_totals_iff (db : StakeStorage Saturation) :
    SeriesHolds db ↔ db.snapshots ≠ [] ∧ ∀ s ∈ db.snapshots, Seen db s.poolId := by
  constructor
  · intro holds
    have stored : db.snapshots ≠ [] := by
      intro empty
      have epochs := holds.epochs 0 0
      rw [getRegisteredTotalsSeries_nil empty] at epochs
      cases epochs
    refine ⟨stored, ?_⟩
    by_contra unseen
    have missing : none ∈ seenEpochs db := by
      rw [none_mem_seenEpochs]
      simpa only [not_forall, exists_prop] using unseen
    -- Epoch 0 in the range of this epoch alone and in the range up to epoch 1.
    have short := getRegisteredTotalsSeries_eq stored 0 0
    have long := getRegisteredTotalsSeries_eq stored 0 1
    have equal := holds.same 0 0 0 1 (rowAt (countedEpochs db (max 0 0)) 0)
      (short ▸ List.mem_map_of_mem (Aggregate.mem_series.mpr (by decide)))
      (rowAt (countedEpochs db (max 0 1)) 0)
      (long ▸ List.mem_map_of_mem (Aggregate.mem_series.mpr (by decide))) rfl
    have totals := congrArg Source.IndexerApi.RegisteredTotals.totalRegistered equal
    dsimp only [rowAt, countedEpochs] at totals
    rw [countP_countedEpochs, countP_countedEpochs, if_pos (by decide), if_neg (by decide)] at totals
    have counted := List.count_pos_iff.mpr missing
    omega
  · rintro ⟨stored, seen⟩
    have present : none ∉ seenEpochs db := by
      rw [none_mem_seenEpochs]
      rintro ⟨s, member, unseen⟩
      exact unseen (seen s member)
    have fixed : ∀ stop stop', countedEpochs db stop = countedEpochs db stop' := by
      intro stop stop'
      refine List.map_congr_left fun epoch member => ?_
      cases epoch with
      | none => exact absurd member present
      | some first => rfl
    refine ⟨fun first last => ?_, fun first last => ?_, ?_⟩
    · rw [getRegisteredTotalsSeries_eq stored, List.map_map]
      exact List.map_id _
    · rw [getRegisteredTotalsSeries_eq stored, List.isChain_map]
      refine (Aggregate.series_isChain _ _).imp ?_
      rintro earlier later rfl
      exact rowAt_next _ earlier
    · intro first last first' last' row member row' member' same
      rw [getRegisteredTotalsSeries_eq stored] at member member'
      obtain ⟨epochNo, _, rfl⟩ := List.mem_map.mp member
      obtain ⟨epochNo', _, rfl⟩ := List.mem_map.mp member'
      rw [fixed (max first last) (max first' last')]
      exact congrArg _ same

/-! ## A pool without an identity -/

/-- The stake of a pool is known, and nothing else of it. -/
def stakeOnly (pools : List Text) : StakeStorage Unit where
  toSpoStorage := Source.SpoIndexer.SpoStorage.empty
  snapshots := pools.map fun poolId => ⟨⟨none, none, none, none, none, none⟩, poolId, 0⟩
  stakeHistory := []
  cursor := none
  poolIdsUnique := List.nodup_nil

/-- Without pools there are no rows. A pool that was never seen is registered in epoch 0 if
the range ends there, and in epoch 1 if it ends there. -/
theorem unseen_pool_moves :
    getRegisteredTotalsSeries (stakeOnly []) 0 1 = [] ∧
      getRegisteredTotalsSeries (stakeOnly ["ab".toList]) 0 0 = [⟨0, 1, 1⟩] ∧
      getRegisteredTotalsSeries (stakeOnly ["ab".toList]) 0 1 = [⟨0, 0, 0⟩, ⟨1, 1, 1⟩] := by
  decide +kernel

end MidnightIndexer.Guarantees.RegisteredTotals
