import Mathlib.Data.Char
import Mathlib.Data.List.Lex
import MidnightIndexer.Lib.Rotation
import MidnightIndexer.Lib.Run
import MidnightIndexer.Source.StakeRefresh

/-!
# Which pools are refreshed

Pages behind the cursor follow the pool ids. The page at the wrap-around is the first one
by update time, and the cursor is then the last id of that page. Pool ids up to it that are
not on that page are never reached again, since no refresh changes the update times.
-/

namespace MidnightIndexer.Guarantees.StakeRefresh

open Lib List Source.SpoIndexer StakeStorage

variable {Saturation κ : Type} [LinearOrder κ] (backend : Sql.Backend) (collate : Text ↪ κ)

/-! ## The pages -/

def poolIds (storage : SpoStorage) : List Text :=
  (Sql.orderBy (fun row => collate row.poolId) storage.poolMetadata).map fun row => row.poolId

def behind (storage : SpoStorage) : Option Text → List Text
  | none => []
  | some last => (poolIds collate storage).filter fun id => collate last < collate id

def wrapPage (pageSize : UInt32) (storage : StakeStorage Saturation) : List Text :=
  getPoolIds backend collate pageSize.toNat 0 storage

def behindWrap (pageSize : UInt32) (storage : StakeStorage Saturation) : List Text :=
  behind collate storage.toSpoStorage (wrapPage backend collate pageSize storage).getLast?

theorem poolIds_ordered (storage : StakeStorage Saturation) :
    (poolIds collate storage.toSpoStorage).Pairwise fun a b => collate a < collate b := by
  have unique : (storage.poolMetadata.map fun row => collate row.poolId).Nodup := by
    have mapped := storage.poolIdsUnique.map collate.injective
    rwa [map_map] at mapped
  exact pairwise_map.mpr (Sql.orderBy_strict _ _ unique)

theorem poolIds_length (storage : SpoStorage) :
    (poolIds collate storage).length = storage.poolMetadata.length := by
  rw [poolIds, length_map, (Sql.orderBy_perm _ _).length_eq]

theorem behind_length_le (storage : SpoStorage) (cursor : Option Text) :
    (behind collate storage cursor).length ≤ storage.poolMetadata.length := by
  rw [← poolIds_length collate storage]
  cases cursor with
  | none => exact Nat.zero_le _
  | some last => exact length_filter_le _ _

theorem getPoolIdsAfter_eq (last : Text) (limit : Nat) (storage : StakeStorage Saturation) :
    getPoolIdsAfter collate last limit storage =
      (behind collate storage.toSpoStorage (some last)).take limit := by
  rw [getPoolIdsAfter, behind, poolIds, Sql.orderBy_filter, filter_map, map_take]
  rfl

variable {pageSize : UInt32} {answers : RefreshAnswers Saturation}
  {storage : StakeStorage Saturation} {id : Text}

theorem poolIdsToRefresh_eq (positive : 0 < pageSize.toNat) (storage : StakeStorage Saturation) :
    poolIdsToRefresh backend collate pageSize storage =
      if (behind collate storage.toSpoStorage storage.cursor).isEmpty then
        wrapPage backend collate pageSize storage
      else (behind collate storage.toSpoStorage storage.cursor).take pageSize.toNat := by
  unfold poolIdsToRefresh
  cases storage.cursor with
  | none => simp [behind, wrapPage]
  | some last =>
    dsimp only
    rw [getPoolIdsAfter_eq]
    -- A page is empty only if nothing is behind the cursor.
    have empty : ((behind collate storage.toSpoStorage (some last)).take pageSize.toNat).isEmpty =
        (behind collate storage.toSpoStorage (some last)).isEmpty := by
      rw [Bool.eq_iff_iff, List.isEmpty_iff, List.isEmpty_iff, List.take_eq_nil_iff]
      exact or_iff_right positive.ne'
    rw [empty]
    rfl

/-! ## One cycle -/

/-- The pool's request succeeds, and so do the statements of its round. -/
def AnswersPool (answers : RefreshAnswers Saturation) (poolId : Text) : Prop :=
  (answers.poolData poolId).isSome ∧ answers.transactionUp poolId ∧ answers.cursorUp poolId

/-- Every request of the cycle succeeds, for whatever pools it is made. -/
structure Succeeds (storage : SpoStorage) (answers : RefreshAnswers Saturation) : Prop where
  queries : answers.queriesUp
  pools : ∀ row ∈ storage.poolMetadata, AnswersPool answers row.poolId

theorem refreshPools_visits {poolIds : List Text}
    (succeed : ∀ id ∈ poolIds, AnswersPool answers id) (storage : StakeStorage Saturation) :
    let after := (refreshPools answers poolIds storage).2
    after.stakeHistory.map (fun row => row.poolId) =
        storage.stakeHistory.map (fun row => row.poolId) ++ poolIds ∧
      after.cursor = poolIds.getLast?.or storage.cursor := by
  induction poolIds generalizing storage with
  | nil => simp [refreshPools]
  | cons poolId rest ih =>
    obtain ⟨requested, transaction, cursor⟩ := succeed poolId mem_cons_self
    obtain ⟨data, answered⟩ := Option.isSome_iff_exists.mp requested
    have later := ih fun id member => succeed id (mem_cons_of_mem poolId member)
    simp only [refreshPools, savePool, answered, transaction, cursor, if_true]
    obtain ⟨history, moved⟩ := later (setStakeRefreshCursor (some poolId)
      (insertStakeHistory poolId answers.mainchainEpoch data answers.now
        (saveStakeSnapshot poolId data answers.now storage)))
    rw [history, moved]
    refine ⟨by simp [setStakeRefreshCursor, insertStakeHistory, saveStakeSnapshot], ?_⟩
    rw [getLast?_cons]
    cases rest.getLast? <;> rfl

theorem mem_getPoolIds {limit offset : Nat}
    (member : id ∈ getPoolIds backend collate limit offset storage) :
    ∃ row ∈ storage.poolMetadata, row.poolId = id := by
  obtain ⟨row, listed, rfl⟩ := mem_map.mp member
  exact ⟨row, Sql.mem_orderBy.mp (mem_of_mem_drop (mem_of_mem_take listed)), rfl⟩

theorem mem_behind {storage : SpoStorage} {cursor : Option Text}
    (member : id ∈ behind collate storage cursor) :
    ∃ row ∈ storage.poolMetadata, row.poolId = id := by
  cases cursor with
  | none => cases member
  | some last =>
    obtain ⟨row, listed, rfl⟩ := mem_map.mp (mem_of_mem_filter member)
    exact ⟨row, Sql.mem_orderBy.mp listed, rfl⟩

theorem mem_poolIdsToRefresh (positive : 0 < pageSize.toNat)
    (member : id ∈ poolIdsToRefresh backend collate pageSize storage) :
    ∃ row ∈ storage.poolMetadata, row.poolId = id := by
  rw [poolIdsToRefresh_eq backend collate positive] at member
  split at member
  · exact mem_getPoolIds backend collate member
  · exact mem_behind collate (mem_of_mem_take member)

theorem behind_of_wrapPage_nil (positive : 0 < pageSize.toNat)
    (empty : wrapPage backend collate pageSize storage = []) (cursor : Option Text) :
    behind collate storage.toSpoStorage cursor = [] := by
  have no_pools : storage.poolMetadata = [] := by
    rw [wrapPage, getPoolIds, map_eq_nil_iff, drop_zero, take_eq_nil_iff] at empty
    exact Sql.orderBy_eq_nil.mp (empty.resolve_left positive.ne')
  refine eq_nil_iff_forall_not_mem.mpr fun id member => ?_
  obtain ⟨row, listed, _⟩ := mem_behind collate member
  rw [no_pools] at listed
  cases listed

/-- A cycle refreshes its page and leaves behind the cursor what follows the page. -/
theorem refreshStep_visits (positive : 0 < pageSize.toNat)
    (succeeds : Succeeds storage.toSpoStorage answers) :
    let left := behind collate storage.toSpoStorage storage.cursor
    let after := refreshStep backend collate pageSize storage answers
    after.stakeHistory.map (fun row => row.poolId) =
        storage.stakeHistory.map (fun row => row.poolId) ++
          (if left.isEmpty then wrapPage backend collate pageSize storage
            else left.take pageSize.toNat) ∧ behind collate storage.toSpoStorage after.cursor =
        if left.isEmpty then behindWrap backend collate pageSize storage
        else left.drop pageSize.toNat := by
  intro left after
  have answered : ∀ id ∈ poolIdsToRefresh backend collate pageSize storage,
      AnswersPool answers id := by
    intro id member
    obtain ⟨row, listed, rfl⟩ := mem_poolIdsToRefresh backend collate positive member
    exact succeeds.pools row listed
  have stepped : after = (refreshPools answers
      (poolIdsToRefresh backend collate pageSize storage) storage).2 := by
    simp only [after, refreshStep, refreshStakeSnapshots, succeeds.queries, if_true]
  obtain ⟨history, cursor⟩ := refreshPools_visits answered storage
  rw [← stepped] at history cursor
  rw [poolIdsToRefresh_eq backend collate positive] at history cursor
  refine ⟨history, ?_⟩
  rw [cursor]
  split
  · cases page : (wrapPage backend collate pageSize storage).getLast? with
    | none =>
      have empty := behind_of_wrapPage_nil backend collate positive (getLast?_eq_none_iff.mp page)
      rw [empty, behindWrap, empty]
    | some last =>
      rw [behindWrap, page]
      rfl
  next some_left =>
    have page_nonempty : left.take pageSize.toNat ≠ [] := by
      rw [ne_eq, take_eq_nil_iff, not_or]
      exact ⟨positive.ne', fun empty => some_left (isEmpty_iff.mpr empty)⟩
    have page := getLast?_eq_some_getLast page_nonempty
    rw [page]
    cases at_cursor : storage.cursor with
    | none =>
      exact absurd (by simp only [at_cursor, behind, isEmpty_nil]) some_left
    | some start =>
      simp only [left, at_cursor, behind] at page ⊢
      refine Rotation.filter_behind_last (poolIds_ordered collate storage)
        (fun x y above less => ?_) page
      exact decide_eq_true ((of_decide_eq_true above).trans less)

/-! ## A run of cycles -/

def refreshedSince (before after : StakeStorage Saturation) : List Text :=
  (after.stakeHistory.drop before.stakeHistory.length).map fun row => row.poolId

/-- By induction on the cycles: each visits the next page. -/
theorem run_visits (positive : 0 < pageSize.toNat) (inputs : List (RefreshAnswers Saturation))
    (storage : StakeStorage Saturation)
    (succeed : ∀ answers ∈ inputs, Succeeds storage.toSpoStorage answers) :
    (run (refreshStep backend collate pageSize) storage inputs).stakeHistory.map
        (fun row => row.poolId) = storage.stakeHistory.map (fun row => row.poolId) ++
        Rotation.visits pageSize.toNat (wrapPage backend collate pageSize storage)
          (behindWrap backend collate pageSize storage) inputs.length
          (behind collate storage.toSpoStorage storage.cursor) := by
  induction inputs generalizing storage with
  | nil => simp [Rotation.visits]
  | cons answers rest ih =>
    have same := refreshStep_toSpoStorage backend collate pageSize storage answers
    obtain ⟨history, cursor⟩ := refreshStep_visits backend collate positive
      (succeed answers mem_cons_self)
    have same_page : wrapPage backend collate pageSize
        (refreshStep backend collate pageSize storage answers) =
        wrapPage backend collate pageSize storage := by
      unfold wrapPage getPoolIds
      rw [same]
    have later := ih (refreshStep backend collate pageSize storage answers) fun next member => by
      rw [same]
      exact succeed next (mem_cons_of_mem answers member)
    rw [behindWrap, same_page, same, ← behindWrap] at later
    rw [run_cons, later, history, cursor, length_cons, Rotation.visits, append_assoc]
    split <;> rfl

theorem refreshedSince_run (positive : 0 < pageSize.toNat)
    (inputs : List (RefreshAnswers Saturation)) (storage : StakeStorage Saturation)
    (succeed : ∀ answers ∈ inputs, Succeeds storage.toSpoStorage answers) :
    refreshedSince storage (run (refreshStep backend collate pageSize) storage inputs) =
      Rotation.visits pageSize.toNat (wrapPage backend collate pageSize storage)
        (behindWrap backend collate pageSize storage) inputs.length
        (behind collate storage.toSpoStorage storage.cursor) := by
  rw [refreshedSince, map_drop, run_visits backend collate positive inputs storage succeed,
    ← length_map (fun row : StakeHistoryRow Saturation => row.poolId), drop_left]

/-- In one cycle more than the pools have pages, a pool is refreshed exactly if its id is
behind the cursor, on the page at the wrap-around, or among the ids behind that page for
which the remaining cycles suffice. -/
theorem stake_refreshed_iff {pageSize : UInt32} (positive : 0 < pageSize.toNat)
    (storage : StakeStorage Saturation) (inputs : List (RefreshAnswers Saturation))
    (window : inputs.length = storage.poolMetadata.length ⌈/⌉ pageSize.toNat + 1)
    (succeed : ∀ answers ∈ inputs, Succeeds storage.toSpoStorage answers) (poolId : Text) :
    let left := behind collate storage.toSpoStorage storage.cursor
    let cycles := storage.poolMetadata.length ⌈/⌉ pageSize.toNat - left.length ⌈/⌉ pageSize.toNat
    poolId ∈ refreshedSince storage
        (run (refreshStep backend collate pageSize) storage inputs) ↔
      poolId ∈ left ∨ poolId ∈ wrapPage backend collate pageSize storage ∨
        poolId ∈ (behindWrap backend collate pageSize storage).take
          (cycles * pageSize.toNat) := by
  intro left cycles
  rw [refreshedSince_run backend collate positive inputs storage succeed, window]
  exact Rotation.mem_visits_window positive _ _ (behind_length_le collate _ _) poolId

/-! ## Three pools, one at a time -/

def poolAt (id : Char) (updatedAt : Int) : PoolMetadataRow := ⟨⟨[id], [id], [], [], [], []⟩, updatedAt⟩

def threePools (a b c : Int) : StakeStorage Unit where
  toSpoStorage := { SpoStorage.empty with
    poolMetadata := [poolAt 'a' a, poolAt 'b' b, poolAt 'c' c] }
  snapshots := []
  stakeHistory := []
  cursor := none
  poolIdsUnique := by simp [poolAt]

def refreshAnswers : RefreshAnswers Unit where
  mainchainEpoch := some 7
  poolData _ := some ⟨some 1, some 1, some 1, none, none, none⟩
  now := 100
  queriesUp := true
  transactionUp _ := true
  cursorUp _ := true

theorem refreshAnswers_succeeds (storage : SpoStorage) : Succeeds storage refreshAnswers :=
  ⟨rfl, fun _ _ => ⟨rfl, rfl, rfl⟩⟩

def refreshThree (a b c : Int) (cycles : Nat) : StakeStorage Unit :=
  run (refreshStep .sqlite (.refl Text) 1) (threePools a b c) (List.replicate cycles refreshAnswers)

/-- The pool that was updated last has the lowest id: every pool has its turn. -/
theorem stake_refreshed_sample :
    let refreshed := refreshedSince (threePools 3 2 1) (refreshThree 3 2 1 4)
    ['a'] ∈ refreshed ∧ ['b'] ∈ refreshed ∧ ['c'] ∈ refreshed := by
  have succeed : ∀ answers ∈ List.replicate 4 refreshAnswers,
      Succeeds (threePools 3 2 1).toSpoStorage answers := by
    intro answers listed
    rw [List.eq_of_mem_replicate listed]
    exact refreshAnswers_succeeds _
  have positive : 0 < (1 : UInt32).toNat := by decide
  have turn := stake_refreshed_iff .sqlite (.refl Text) positive (threePools 3 2 1)
    (List.replicate 4 refreshAnswers) (by decide) succeed
  exact ⟨(turn ['a']).mpr (by decide +kernel), (turn ['b']).mpr (by decide +kernel),
    (turn ['c']).mpr (by decide +kernel)⟩

/-- The pool that was updated last has the highest id: it is the only one refreshed. -/
theorem stake_starved :
    (refreshedSince (threePools 1 2 3) (refreshThree 1 2 3 4)) = [['c'], ['c'], ['c'], ['c']] := by
  decide +kernel

end MidnightIndexer.Guarantees.StakeRefresh
