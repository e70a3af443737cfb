import MidnightIndexer.Lib.Sql

/-!
# The `currentEpochInfo` query

`get_current_epoch_info` of indexer-api/src/infra/storage/spo.rs:584-659 over the table
`epochs` of indexer-common/migrations/{postgres,sqlite}/001_initial.sql. The latest stored
epoch is extrapolated to the present by whole durations.

Timestamps are microseconds. The engines make seconds of them in their own ways: the cast
to `BIGINT` rounds, half away from zero, and `strftime` drops the fraction. Epoch numbers
are `u32` where they are written, and the seconds of a timestamp are below 2^44 in both
engines, so no sum or product of the query leaves 64 bits.
-/

namespace MidnightIndexer.Source.CurrentEpoch

open Lib List

def microseconds : Int := 1000000

/-- Table `epochs`. -/
structure EpochRow where
  epochNo : Int
  startsAt : Int
  endsAt : Int
  deriving DecidableEq, Repr

/-- The rows, with their primary key. -/
structure EpochTable where
  rows : List EpochRow
  unique : (rows.map EpochRow.epochNo).Nodup

variable {row : EpochRow}

theorem EpochTable.unique_append (table : EpochTable)
    (fresh : row.epochNo ∉ table.rows.map EpochRow.epochNo) :
    ((table.rows ++ [row]).map EpochRow.epochNo).Nodup := by
  rw [map_append, nodup_append]
  refine ⟨table.unique, nodup_singleton _, ?_⟩
  intro old listed new added
  rw [map_singleton, mem_singleton] at added
  rw [added]
  exact fun same => fresh (same ▸ listed)

/-- `INSERT INTO epochs`; a number that is stored already is refused. -/
def EpochTable.saveEpoch (table : EpochTable) (row : EpochRow) : Option EpochTable :=
  if fresh : row.epochNo ∉ table.rows.map EpochRow.epochNo then
    some ⟨table.rows ++ [row], table.unique_append fresh⟩
  else none

structure EpochInfo where
  epochNo : Int
  durationSeconds : Int
  elapsedSeconds : Int
  deriving DecidableEq, Repr

/-- `EXTRACT(EPOCH FROM ..)::BIGINT` and `CAST(strftime('%s', ..) AS INTEGER)`. -/
def seconds : Sql.Backend → Int → Int
  | .postgres, time =>
    if 0 ≤ time then (time + microseconds / 2) / microseconds
    else -((-time + microseconds / 2) / microseconds)
  | .sqlite, time => time / microseconds

/-- The columns of `last` and `calc` besides `n`. -/
structure Last where
  epochNo : Int
  startsS : Int
  endsS : Int
  durS : Int
  nowS : Int

/-- Postgres takes the seconds of the difference, SQLite the difference of the seconds. -/
def last (backend : Sql.Backend) (now : Int) (row : EpochRow) : Last where
  epochNo := row.epochNo
  startsS := seconds backend row.startsAt
  endsS := seconds backend row.endsAt
  durS := match backend with
    | .postgres => seconds .postgres (row.endsAt - row.startsAt)
    | .sqlite => seconds .sqlite row.endsAt - seconds .sqlite row.startsAt
  nowS := seconds backend now

namespace Last

variable (epoch : Last)

/-- Column `n` of `calc`. -/
def n : Int :=
  if epoch.endsS > epoch.nowS then 0
  else if epoch.durS ≤ 0 then 0
  else (epoch.nowS - epoch.endsS).tdiv epoch.durS + 1

/-- `LEAST(GREATEST(.., 0), dur_s)`. -/
def clamp (elapsed : Int) : Int := min (max elapsed 0) epoch.durS

def synth : EpochInfo where
  epochNo := epoch.epochNo + epoch.n
  durationSeconds := epoch.durS
  elapsedSeconds :=
    if epoch.durS ≤ 0 then 0
    else if epoch.n = 0 then epoch.clamp (epoch.nowS - epoch.startsS)
    else epoch.clamp (epoch.nowS - (epoch.endsS + (epoch.n - 1) * epoch.durS))

end Last

/-- The row of `ORDER BY epoch_no DESC LIMIT 1`. -/
def EpochTable.latest (table : EpochTable) : Option EpochRow :=
  (Sql.orderByDesc EpochRow.epochNo table.rows).head?

def getCurrentEpochInfo (backend : Sql.Backend) (table : EpochTable) (now : Int) :
    Option EpochInfo :=
  table.latest.map fun row => (last backend now row).synth

/-! ## Whole seconds -/

theorem seconds_whole (backend : Sql.Backend) (time : Int) :
    seconds backend (time * microseconds) = time := by
  cases backend with
  | postgres =>
    rcases Int.lt_or_le (time * microseconds) 0 with before | after
    · simp only [seconds, if_neg (not_le.mpr before)]
      unfold microseconds
      omega
    · simp only [seconds, if_pos after]
      unfold microseconds
      omega
  | sqlite => exact Int.mul_ediv_cancel time (by decide)

/-- An epoch of whole seconds is read exactly by both engines. -/
theorem last_whole (backend : Sql.Backend) (now epochNo starts ends : Int) :
    last backend (now * microseconds) ⟨epochNo, starts * microseconds, ends * microseconds⟩ =
      ⟨epochNo, starts, ends, ends - starts, now⟩ := by
  have difference : ends * microseconds - starts * microseconds =
      (ends - starts) * microseconds := (Int.sub_mul ends starts microseconds).symm
  cases backend with
  | postgres => simp only [last, seconds_whole, difference]
  | sqlite => simp only [last, seconds_whole]

/-! ## The table -/

theorem latest_saveEpoch {table after : EpochTable} (stored : table.saveEpoch row = some after)
    (higher : ∀ old ∈ table.rows, old.epochNo < row.epochNo) : after.latest = some row := by
  unfold EpochTable.saveEpoch at stored
  split at stored
  next fresh =>
    cases stored
    have most : ∀ other ∈ table.rows ++ [row], other.epochNo ≤ row.epochNo := by
      intro other member
      rcases mem_append.mp member with old | new
      · exact le_of_lt (higher other old)
      · rw [mem_singleton.mp new]
    have member : row ∈ table.rows ++ [row] := mem_append_right _ (mem_singleton.mpr rfl)
    obtain ⟨rest, sorted⟩ := Sql.orderByDesc_head (table.unique_append fresh) member most
    rw [EpochTable.latest, sorted, head?_cons]
  next => cases stored

theorem saveEpoch_higher {table : EpochTable}
    (higher : ∀ old ∈ table.rows, old.epochNo < row.epochNo) :
    ∃ after, table.saveEpoch row = some after := by
  unfold EpochTable.saveEpoch
  rw [dif_pos]
  · exact ⟨_, rfl⟩
  · intro listed
    obtain ⟨old, member, same⟩ := mem_map.mp listed
    exact absurd same (ne_of_lt (higher old member))

end MidnightIndexer.Source.CurrentEpoch
