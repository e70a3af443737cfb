import MidnightIndexer.Lib.Aggregate
import MidnightIndexer.Source.StakeRefresh

/-!
# Totals of registered pools

`get_registered_totals_series` of indexer-api/src/infra/storage/spo.rs:749-882. Both backends
state the same query. The pools are those with a stake snapshot. A pool counts from the first
epoch in which a row of the history, of a committee or of the performances names one of its
identities, or from the last epoch of the range if there is none.

The joined columns are not `NULL` in the rows that the indexer writes. A row with one would
join nothing.
-/

namespace MidnightIndexer.Source.IndexerApi

open Lib
open SpoIndexer (StakeStorage Text)

structure RegisteredTotals where
  epochNo : Int
  totalRegistered : Nat
  newlyRegistered : Nat
  deriving DecidableEq, Repr

variable {Saturation ρ : Type}

/-- A table joined with the identities: the pools and the epochs of its rows. -/
def poolEpochs (identities : List SpoIndexer.Spo) (rows : List ρ) (epochNo : ρ → Int)
    (joins : ρ → SpoIndexer.Spo → Bool) : List (Text × Int) :=
  rows.flatMap fun row =>
    (Sql.leftJoin identities (joins row)).filterMap fun joined =>
      joined.map fun si => (si.poolId, epochNo row)

def unionFirsts (db : StakeStorage Saturation) : List (Text × Int) :=
  Aggregate.leastBy (poolEpochs db.identities db.history (fun sh => sh.epochNo)
    fun sh si => si.spoSk = sh.spoSk) ++
  Aggregate.leastBy (poolEpochs db.identities db.memberships (fun cm => cm.epochNo)
    fun cm si => si.sidechainPubkey = cm.sidechainPubkey) ++
  Aggregate.leastBy (poolEpochs db.identities db.performance (fun sep => sep.epochNo)
    fun sep si => si.spoSk = sep.spoSk)

def firsts0 (db : StakeStorage Saturation) : List (Text × Int) :=
  Aggregate.leastBy (unionFirsts db)

/-- `firsts_cur`: the pools of `cur` with their first epoch. -/
def firstsCur (db : StakeStorage Saturation) (stop : Int) : List (Text × Int) :=
  db.snapshots.flatMap fun c =>
    (Sql.leftJoin (firsts0 db) fun f0 => f0.1 = c.poolId).map fun f0 =>
      (c.poolId, (f0.map Prod.snd).getD stop)

/-- A row of `agg`, of the pairs of one epoch with the pools. -/
def registeredTotals (group : Int × List (Int × Text × Int)) : RegisteredTotals where
  epochNo := group.1
  totalRegistered := group.2.countP fun row => row.2.2 ≤ row.1
  newlyRegistered := group.2.countP fun row => row.2.2 = row.1

def getRegisteredTotalsSeries (db : StakeStorage Saturation) (fromEpoch toEpoch : Int) :
    List RegisteredTotals :=
  let start := min fromEpoch toEpoch
  let stop := max toEpoch fromEpoch
  let crossed := Aggregate.series start stop ×ˢ firstsCur db stop
  Sql.orderBy RegisteredTotals.epochNo
    ((Aggregate.groupBy Prod.fst crossed).map registeredTotals)

end MidnightIndexer.Source.IndexerApi
