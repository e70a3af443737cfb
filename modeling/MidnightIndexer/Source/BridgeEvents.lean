import MidnightIndexer.Lib.Follow
import MidnightIndexer.Lib.Sql

/-!
# The backfill of `bridgeEvents`

indexer-api/src/infra/storage/bridge.rs:86-146 and
indexer-api/src/infra/api/v4/subscription/bridge_events.rs:104-140. There is no
storage stream: the subscription itself asks for the events behind the last id,
100 at a time and without an offset, until there are none. Columns that are only
passed on to the client are left out.
-/

namespace MidnightIndexer.Source.IndexerApi

open Lib Lib.Follow

inductive BridgeEventVariant where
  | userTransfer | reserveTransfer | invalidTransfer | unapprovedTransfer
  | subminimalFlushTransfer
  deriving DecidableEq, Repr

/-- A row of `protocol_bridge_events` with the height of its block. -/
structure BridgeEventRow where
  id : Nat
  blockHeight : Nat
  variant : BridgeEventVariant
  recipient : Option (List UInt8)
  deriving DecidableEq

structure BridgeEventFilter where
  variants : List BridgeEventVariant
  recipient : Option (List UInt8)
  blockHeightFrom : Option UInt64
  blockHeightTo : Option UInt64
  idFrom : Option UInt64

/-- `push_filter`. -/
def BridgeEventFilter.selects (filter : BridgeEventFilter) (row : BridgeEventRow) : Bool :=
  (filter.variants.isEmpty || filter.variants.contains row.variant)
  && filter.recipient.all (fun recipient => row.recipient = some recipient)
  && filter.blockHeightFrom.all (fun height => Sql.asI64 height.toNat ≤ row.blockHeight)
  && filter.blockHeightTo.all (fun height => row.blockHeight ≤ Sql.asI64 height.toNat)
  && filter.idFrom.all fun id => Sql.asI64 id.toNat < row.id

/-- `get_bridge_events` without an offset. -/
def getBridgeEvents (rows : List BridgeEventRow) (filter : BridgeEventFilter) (limit : Nat) :
    List BridgeEventRow :=
  (Sql.orderBy BridgeEventRow.id (rows.filter filter.selects)).take limit

def backfillBatch : Nat := 100

/-- The arguments of the subscription besides the start id. -/
structure BridgeEventArgs where
  recipient : Option (List UInt8)
  variant : Option BridgeEventVariant

namespace BridgeEventArgs

variable (args : BridgeEventArgs)

def filter (lastId : UInt64) : BridgeEventFilter where
  variants := args.variant.toList
  recipient := args.recipient
  blockHeightFrom := none
  blockHeightTo := none
  idFrom := some lastId

/-- `last_id.max(event.id)` along a page. -/
def advance (lastId : UInt64) (events : List BridgeEventRow) : UInt64 :=
  events.foldl (fun last event => max last (UInt64.ofNat event.id)) lastId

/-- The loop, for a number of queries: what it has yielded and whether it has
ended. -/
def backfill (rows : List BridgeEventRow) : Nat → UInt64 → List BridgeEventRow × Bool
  | 0, _ => ([], false)
  | queries + 1, lastId =>
    let events := getBridgeEvents rows (args.filter lastId) backfillBatch
    if events.isEmpty then ([], true)
    else
      let later := backfill rows queries (advance lastId events)
      (events ++ later.1, later.2)

end BridgeEventArgs

end MidnightIndexer.Source.IndexerApi
