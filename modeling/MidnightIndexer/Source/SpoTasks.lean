import MidnightIndexer.Lib.Run
import MidnightIndexer.Source.ProcessEpoch
import MidnightIndexer.Source.StakeRefresh

/-!
# The two tasks of the SPO indexer

`run` of spo-indexer/src/application.rs:59-93. One task processes the epochs and the other
refreshes the stakes, over the same tables. An epoch is one transaction, over tables that the
refresh only reads. A cycle of the refresh is the read of its page and then a round for each
pool of it, and epochs may be processed between any two rounds.

An error of the first task ends the process, and with it the cycle under way.
-/

namespace MidnightIndexer.Source.SpoIndexer

open Lib List

/-! ## The key of the pool table -/

theorem savePoolMeta_unique {storage after : SpoStorage} {metadata : PoolMetadata} {now : Int}
    (success : storage.savePoolMeta metadata now = .ok after)
    (unique : (storage.poolMetadata.map fun row => row.poolId).Nodup) :
    (after.poolMetadata.map fun row => row.poolId).Nodup := by
  unfold SpoStorage.savePoolMeta at success
  dsimp only at success
  split at success
  · cases success
    dsimp only
    rwa [Table.update_map_eq (f := SpoStorage.refreshMetadata metadata now) _ fun _ => rfl]
  next fresh =>
    split at success
    · cases success
    · cases success
      rw [map_append, nodup_append]
      refine ⟨unique, nodup_singleton _, ?_⟩
      intro id old new last same
      obtain ⟨row, member, rfl⟩ := mem_map.mp old
      rw [map_singleton, mem_singleton] at last
      exact fresh (any_eq_true.mpr ⟨row, member, decide_eq_true (same.trans last)⟩)

theorem saveEntry_unique {answers : Answers} {epochNo : UInt32} {storage after : SpoStorage}
    {entry : Entry} (success : saveEntry answers epochNo storage entry = .ok after)
    (unique : (storage.poolMetadata.map fun row => row.poolId).Nodup) :
    (after.poolMetadata.map fun row => row.poolId).Nodup := by
  unfold saveEntry at success
  obtain ⟨withPool, saved, success⟩ := bind_success success
  cases success
  have pools := savePoolMeta_unique saved unique
  unfold SpoStorage.saveSpoHistory SpoStorage.saveSpo
  dsimp only
  split <;> split <;> exact pools

/-- Processing an epoch keeps the key. -/
theorem pollStep_poolIdsUnique (client : SpoClient) (cardanoIdOf : Text → Option Text)
    (storage : SpoStorage) (answers : Answers)
    (unique : (storage.poolMetadata.map fun row => row.poolId).Nodup) :
    ((pollStep client cardanoIdOf storage answers).poolMetadata.map fun row =>
      row.poolId).Nodup := by
  rcases pollStep_cases client cardanoIdOf storage answers with
    same | ⟨epoch, _, _, _, _, _, _, saved⟩
  · rw [same]
    exact unique
  · unfold saveProcessed at saved
    obtain ⟨withEpoch, saveEpoch, saved⟩ := bind_success saved
    obtain ⟨withEntries, saveEntries, saved⟩ := bind_success saved
    obtain ⟨complete, savePerformances, saved⟩ := bind_success saved
    split at saved
    · rw [← Except.ok.inj saved, savePerformances_success savePerformances]
      obtain ⟨_, rfl⟩ := saveEpoch_success saveEpoch
      exact foldlM_keeps (fun current _ => (current.poolMetadata.map fun row =>
        row.poolId).Nodup) (fun _ _ _ _ kept saved => saveEntry_unique saved kept) unique
        saveEntries
    · cases saved

/-! ## The tasks -/

variable {Saturation κ : Type} [LinearOrder κ]

/-- A cycle under way: the pools that are left, and the epoch read at its start. -/
structure RefreshCycle where
  mainchainEpoch : Option Int64
  pending : List Text
  deriving DecidableEq

structure SpoTasks (Saturation : Type) where
  tables : StakeStorage Saturation
  cycle : Option RefreshCycle

def StakeStorage.empty : StakeStorage Saturation where
  toSpoStorage := SpoStorage.empty
  snapshots := []
  stakeHistory := []
  cursor := none
  poolIdsUnique := List.nodup_nil

def SpoTasks.initial : SpoTasks Saturation := ⟨StakeStorage.empty, none⟩

inductive TaskInput (Saturation : Type) where
  | processEpoch (answers : Answers)
  | startCycle (answers : RefreshAnswers Saturation)
  | refreshPool (answers : RefreshAnswers Saturation)
  | restart

section

variable (client : SpoClient) (cardanoIdOf : Text → Option Text) (backend : Sql.Backend)
  (collate : Text ↪ κ) (pageSize : UInt32)

/-- The tables after a call of the first task. -/
def StakeStorage.processEpoch (tables : StakeStorage Saturation) (answers : Answers) :
    StakeStorage Saturation :=
  { tables with
    toSpoStorage := pollStep client cardanoIdOf tables.toSpoStorage answers
    poolIdsUnique := pollStep_poolIdsUnique client cardanoIdOf tables.toSpoStorage answers
      tables.poolIdsUnique }

/-- The next round of a cycle. A round that fails ends it. -/
def refreshRound (answers : RefreshAnswers Saturation) (tables : StakeStorage Saturation)
    (cycle : RefreshCycle) : SpoTasks Saturation :=
  match cycle.pending with
  | [] => ⟨tables, none⟩
  | poolId :: rest =>
    match savePool { answers with mainchainEpoch := cycle.mainchainEpoch } poolId tables with
    | .error _ => ⟨tables, none⟩
    | .ok saved =>
      if answers.cursorUp poolId then
        ⟨saved.setStakeRefreshCursor (some poolId), some { cycle with pending := rest }⟩
      else ⟨saved, none⟩

def taskStep (tasks : SpoTasks Saturation) : TaskInput Saturation → SpoTasks Saturation
  | .processEpoch answers =>
    { tables := tasks.tables.processEpoch client cardanoIdOf answers
      cycle := match processNextEpoch client cardanoIdOf tasks.tables.toSpoStorage answers with
        | .ok _ => tasks.cycle
        | .error _ => none }
  | .startCycle answers =>
    if tasks.cycle.isNone ∧ answers.queriesUp then
      { tasks with
        cycle := some ⟨answers.mainchainEpoch,
          poolIdsToRefresh backend collate pageSize tasks.tables⟩ }
    else tasks
  | .refreshPool answers => tasks.cycle.elim tasks (refreshRound answers tasks.tables)
  | .restart => { tasks with cycle := none }

/-! ## A cycle that nothing interrupts -/

variable (answers : RefreshAnswers Saturation)

theorem run_refreshPool_idle (tables : StakeStorage Saturation) (rounds : Nat) :
    run (taskStep client cardanoIdOf backend collate pageSize) ⟨tables, none⟩
      (replicate rounds (.refreshPool answers)) = ⟨tables, none⟩ := by
  induction rounds with
  | zero => rfl
  | succ rounds ih => exact ih

/-- By induction on the pools that are left: the rounds are the loop over them. -/
theorem run_refreshPool (pending : List Text)
    (tables : StakeStorage Saturation) {rounds : Nat} (enough : pending.length ≤ rounds) :
    (run (taskStep client cardanoIdOf backend collate pageSize)
      ⟨tables, some ⟨answers.mainchainEpoch, pending⟩⟩
      (replicate rounds (.refreshPool answers))).tables =
        (refreshPools answers pending tables).2 := by
  induction pending generalizing tables rounds with
  | nil =>
    cases rounds with
    | zero => rfl
    | succ rounds =>
      exact congrArg SpoTasks.tables
        (run_refreshPool_idle client cardanoIdOf backend collate pageSize answers tables rounds)
  | cons poolId rest ih =>
    obtain ⟨rounds, rfl⟩ := Nat.exists_eq_add_of_le' (Nat.lt_of_lt_of_le (Nat.zero_lt_succ _) enough)
    have idle := fun tables => congrArg SpoTasks.tables
      (run_refreshPool_idle client cardanoIdOf backend collate pageSize answers tables rounds)
    have round : taskStep client cardanoIdOf backend collate pageSize
        ⟨tables, some ⟨answers.mainchainEpoch, poolId :: rest⟩⟩ (.refreshPool answers) =
        refreshRound answers tables ⟨answers.mainchainEpoch, poolId :: rest⟩ := rfl
    rw [replicate_succ, run_cons, round]
    unfold refreshPools refreshRound
    dsimp only
    cases savePool answers poolId tables with
    | error e => exact idle tables
    | ok saved =>
      dsimp only
      split
      · exact ih _ (Nat.le_of_succ_le_succ enough)
      · exact idle saved

/-- Enough rounds right after its start are the whole cycle. -/
theorem run_cycle (tables : StakeStorage Saturation) {rounds : Nat}
    (enough : (poolIdsToRefresh backend collate pageSize tables).length ≤ rounds) :
    (run (taskStep client cardanoIdOf backend collate pageSize) ⟨tables, none⟩
      (.startCycle answers :: replicate rounds (.refreshPool answers))).tables =
        refreshStep backend collate pageSize tables answers := by
  rw [run_cons]
  unfold refreshStep refreshStakeSnapshots taskStep
  dsimp only
  by_cases up : answers.queriesUp
  · rw [if_pos ⟨rfl, up⟩, if_pos up]
    exact run_refreshPool client cardanoIdOf backend collate pageSize answers _ tables enough
  · rw [if_neg fun both => up both.2, if_neg up]
    exact congrArg SpoTasks.tables
      (run_refreshPool_idle client cardanoIdOf backend collate pageSize answers tables rounds)

/-! ## The key of the snapshots -/

theorem savePool_snapshots {answers : RefreshAnswers Saturation} {poolId : Text}
    {tables saved : StakeStorage Saturation} (success : savePool answers poolId tables = .ok saved)
    (unique : (tables.snapshots.map fun row => row.poolId).Nodup) :
    (saved.snapshots.map fun row => row.poolId).Nodup := by
  unfold savePool at success
  split at success
  · split at success
    · cases success
      dsimp only [StakeStorage.insertStakeHistory, StakeStorage.saveStakeSnapshot]
      refine Table.upsert_nodup ?_ unique
      exact fun _ => rfl
    · cases success
  · cases success
    exact unique

theorem taskStep_snapshots (tasks : SpoTasks Saturation) (input : TaskInput Saturation)
    (unique : (tasks.tables.snapshots.map fun row => row.poolId).Nodup) :
    ((taskStep client cardanoIdOf backend collate pageSize tasks input).tables.snapshots.map
      fun row => row.poolId).Nodup := by
  cases input with
  | processEpoch | restart => exact unique
  | startCycle answers =>
    unfold taskStep
    dsimp only
    split <;> exact unique
  | refreshPool answers =>
    unfold taskStep
    dsimp only
    cases tasks.cycle with
    | none => exact unique
    | some cycle =>
      dsimp only [Option.elim]
      unfold refreshRound
      split
      · exact unique
      · split
        · exact unique
        next saved success =>
          have kept := savePool_snapshots success unique
          split <;> exact kept

end

end MidnightIndexer.Source.SpoIndexer
