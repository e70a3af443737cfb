import Mathlib.Data.Prod.Lex
import MidnightIndexer.Source.SpoStorage

/-!
# The stake refresh

spo-indexer/src/application.rs:208-317, spo-indexer/src/infra/storage.rs:263-391 and
393-434, spo-indexer/src/infra/spo_client.rs:414-422, over the tables `pool_metadata_cache`,
`spo_stake_snapshot`, `spo_stake_history` and `spo_stake_refresh_state`.

A cycle refreshes one page of pools. The page follows the stored cursor in the order of the
pool ids; if there is no cursor or nothing follows it, the page is the first one in the
order of the update times. Each pool has a transaction of its own, and the cursor moves
after each pool, also if its request failed.

The order of texts is the database's collation, an injective key into a linear order. The
foreign keys hold: the refreshed pools are read from the table they refer to. The rate limit
is left out.
-/

namespace MidnightIndexer.Source.SpoIndexer

open Lib

/-- `Saturation` stands for `f64`; the values are only passed on. -/
structure PoolStakeData (Saturation : Type) where
  liveStake : Option Int64
  activeStake : Option Int64
  liveDelegators : Option Int64
  liveSaturation : Option Saturation
  declaredPledge : Option Int64
  livePledge : Option Int64
  deriving DecidableEq, Repr

/-- Table `spo_stake_snapshot`. -/
structure SnapshotRow (Saturation : Type) extends PoolStakeData Saturation where
  poolId : Text
  updatedAt : Int
  deriving DecidableEq, Repr

/-- Table `spo_stake_history`. -/
structure StakeHistoryRow (Saturation : Type) extends PoolStakeData Saturation where
  poolId : Text
  recordedAt : Int
  mainchainEpoch : Option Int64
  deriving DecidableEq, Repr

/-- The tables, with the primary key of `pool_metadata_cache`. The cursor is `last_pool_id`
of the only row of `spo_stake_refresh_state`. -/
structure StakeStorage (Saturation : Type) extends SpoStorage where
  snapshots : List (SnapshotRow Saturation)
  stakeHistory : List (StakeHistoryRow Saturation)
  cursor : Option Text
  poolIdsUnique : (poolMetadata.map fun row => row.poolId).Nodup

variable {Saturation : Type} {κ : Type} [LinearOrder κ]

namespace StakeStorage

variable (backend : Sql.Backend) (collate : Text ↪ κ)

/-- `NULL` is the largest value of Postgres and the smallest of SQLite. -/
def nullableKey : Option Int → Nat ×ₗ Int
  | some time => toLex (1, time)
  | none => match backend with
    | .postgres => toLex (2, 0)
    | .sqlite => toLex (0, 0)

/-- `ORDER BY updated_at DESC, pool_id ASC`. -/
def refreshOrder (row : PoolMetadataRow) : (Nat ×ₗ Int)ᵒᵈ ×ₗ κ :=
  toLex (OrderDual.toDual (nullableKey backend row.updatedAt), collate row.poolId)

def getPoolIds (limit offset : Nat) (storage : StakeStorage Saturation) : List Text :=
  (((Sql.orderBy (refreshOrder backend collate) storage.poolMetadata).drop offset).take limit).map
    fun row => row.poolId

def getPoolIdsAfter (after : Text) (limit : Nat) (storage : StakeStorage Saturation) : List Text :=
  ((Sql.orderBy (fun row => collate row.poolId)
    (storage.poolMetadata.filter fun row => collate after < collate row.poolId)).take limit).map
      fun row => row.poolId

def saveStakeSnapshot (poolId : Text) (data : PoolStakeData Saturation) (now : Int)
    (storage : StakeStorage Saturation) : StakeStorage Saturation :=
  { storage with
    snapshots := Table.upsert (fun row => row.poolId) ⟨data, poolId, now⟩
      (fun old => { old with toPoolStakeData := data, updatedAt := now }) storage.snapshots }

def insertStakeHistory (poolId : Text) (mainchainEpoch : Option Int64)
    (data : PoolStakeData Saturation) (now : Int) (storage : StakeStorage Saturation) :
    StakeStorage Saturation :=
  { storage with stakeHistory := storage.stakeHistory ++ [⟨data, poolId, now, mainchainEpoch⟩] }

def setStakeRefreshCursor (poolId : Option Text) (storage : StakeStorage Saturation) :
    StakeStorage Saturation :=
  { storage with cursor := poolId }

end StakeStorage

/-- What the services answer in one cycle. The queries before the first pool, the
transaction of a pool and the update of the cursor after it may each fail. -/
structure RefreshAnswers (Saturation : Type) where
  mainchainEpoch : Option Int64
  poolData : Text → Option (PoolStakeData Saturation)
  now : Int
  queriesUp : Bool
  transactionUp : Text → Bool
  cursorUp : Text → Bool

inductive RefreshError where
  | query
  | transaction (poolId : Text)
  | cursor (poolId : Text)
  deriving DecidableEq, Repr

open StakeStorage

/-- The transaction of a pool, if its request succeeded. -/
def savePool (answers : RefreshAnswers Saturation) (poolId : Text)
    (storage : StakeStorage Saturation) : Except RefreshError (StakeStorage Saturation) :=
  match answers.poolData poolId with
  | some data =>
    if answers.transactionUp poolId then
      .ok (insertStakeHistory poolId answers.mainchainEpoch data answers.now
        (saveStakeSnapshot poolId data answers.now storage))
    else .error (.transaction poolId)
  | none => .ok storage

/-- The loop over the page. What was committed before an error stays. -/
def refreshPools (answers : RefreshAnswers Saturation) :
    List Text → StakeStorage Saturation → Except RefreshError Unit × StakeStorage Saturation
  | [], storage => (.ok (), storage)
  | poolId :: rest, storage =>
    match savePool answers poolId storage with
    | .error error => (.error error, storage)
    | .ok saved =>
      if answers.cursorUp poolId then
        refreshPools answers rest (setStakeRefreshCursor (some poolId) saved)
      else (.error (.cursor poolId), saved)

variable (backend : Sql.Backend) (collate : Text ↪ κ)

/-- The page of a cycle. A `u32` is bound unchanged. -/
def poolIdsToRefresh (pageSize : UInt32) (storage : StakeStorage Saturation) : List Text :=
  let limit := pageSize.toNat
  let poolIds := match storage.cursor with
    | some last => getPoolIdsAfter collate last limit storage
    | none => getPoolIds backend collate limit 0 storage
  if poolIds.isEmpty then getPoolIds backend collate limit 0 storage else poolIds

def refreshStakeSnapshots (pageSize : UInt32) (storage : StakeStorage Saturation)
    (answers : RefreshAnswers Saturation) : Except RefreshError Unit × StakeStorage Saturation :=
  if answers.queriesUp then
    refreshPools answers (poolIdsToRefresh backend collate pageSize storage) storage
  else (.error .query, storage)

/-- One tick: an error is logged. -/
def refreshStep (pageSize : UInt32) (storage : StakeStorage Saturation)
    (answers : RefreshAnswers Saturation) : StakeStorage Saturation :=
  (refreshStakeSnapshots backend collate pageSize storage answers).2

/-! ## What a cycle changes -/

theorem savePool_toSpoStorage {answers : RefreshAnswers Saturation} {poolId : Text}
    {storage saved : StakeStorage Saturation}
    (success : savePool answers poolId storage = .ok saved) :
    saved.toSpoStorage = storage.toSpoStorage := by
  unfold savePool at success
  split at success
  · split at success
    · cases success
      rfl
    · cases success
  · cases success
    rfl

/-- The update times are not touched. -/
theorem refreshPools_toSpoStorage (answers : RefreshAnswers Saturation) (poolIds : List Text)
    (storage : StakeStorage Saturation) :
    (refreshPools answers poolIds storage).2.toSpoStorage = storage.toSpoStorage := by
  induction poolIds generalizing storage with
  | nil => rfl
  | cons poolId rest ih =>
    unfold refreshPools
    split
    · rfl
    next saved success =>
      have same := savePool_toSpoStorage success
      split
      · rw [ih]
        exact same
      · exact same

theorem refreshStep_toSpoStorage (pageSize : UInt32) (storage : StakeStorage Saturation)
    (answers : RefreshAnswers Saturation) :
    (refreshStep backend collate pageSize storage answers).toSpoStorage =
      storage.toSpoStorage := by
  unfold refreshStep refreshStakeSnapshots
  split
  · exact refreshPools_toSpoStorage answers _ storage
  · rfl

end MidnightIndexer.Source.SpoIndexer
