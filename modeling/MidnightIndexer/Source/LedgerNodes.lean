import MidnightIndexer.Lib.Outcome
import MidnightIndexer.Lib.Sql
import MidnightIndexer.Source.LedgerDb

/-!
# The ledger DB: stored nodes, batches and scans

indexer-common/src/infra/ledger_db/v1_1.rs:62-83,143-279,361-406,430-504. A key
column holds the bytes of a hash, which read back as that hash. An error is the
text of a panic. How a node is serialised (`Codec`) and which multi-row upserts
an engine refuses (`rejects`) are parameters. A transaction that panics before its
commit is rolled back.
-/

namespace MidnightIndexer.Source.LedgerNodes

open Lib

variable {Key Raw Object : Type}

/-- A row of `ledger_db_nodes`. -/
structure NodeRow (Key Raw : Type) where
  key : Key
  object : Raw
  deriving DecidableEq

/-- How the ledger crates write and read an `OnDiskObject`. -/
structure Codec (Raw Object : Type) where
  serialize : Object → Raw
  deserialize : Raw → Option Object
  reads_back : ∀ object, deserialize (serialize object) = some object

def stored (codec : Codec Raw Object) (nodes : List (Key × Object)) : List (NodeRow Key Raw) :=
  nodes.map fun node => ⟨node.1, codec.serialize node.2⟩

def readRow (codec : Codec Raw Object) (panic : String) (row : NodeRow Key Raw) :
    Except String (Key × Object) :=
  (okOr (codec.deserialize row.object) panic).map (row.key, ·)

section

variable [DecidableEq Key] (codec : Codec Raw Object) (rows : List (NodeRow Key Raw))

def getNode (key : Key) : Except String (Option Object) :=
  match Table.lookup NodeRow.key key rows with
  | none => .ok none
  | some row =>
    (okOr (codec.deserialize row.object) "cannot deserialize node as OnDiskObject").map some

/-- The keys in their order; each removes its node from the map. -/
def removeNodes : List (Key × Object) → List Key → List (Key × Option Object)
  | _, [] => []
  | nodes, key :: rest =>
    (key, (Table.lookup Prod.fst key nodes).map Prod.snd) ::
      removeNodes (Table.delete Prod.fst key nodes) rest

def batchGetNodes (keys : List Key) : Except String (List (Key × Option Object)) :=
  if keys.isEmpty then .ok []
  else do
    let nodes ← (rows.filter fun row => row.key ∈ keys).mapM
      (readRow codec "cannot batch get nodes")
    .ok (removeNodes nodes keys)

end

/-! ## Batched updates -/

inductive Update (Object : Type) where
  | insertNode (object : Object)
  | deleteNode
  | setRootCount (count : Nat)
  deriving DecidableEq

structure Tables (Key Raw : Type) where
  nodes : List (NodeRow Key Raw)
  roots : RootTable Key

section

variable [DecidableEq Key] (codec : Codec Raw Object)

def insertNode (tables : Tables Key Raw) (node : Key × Object) : Tables Key Raw :=
  let object := codec.serialize node.2
  { tables with
    nodes := Table.upsert NodeRow.key ⟨node.1, object⟩ (fun row => { row with object := object })
      tables.nodes }

def deleteNode (tables : Tables Key Raw) (key : Key) : Tables Key Raw :=
  { tables with nodes := Table.delete NodeRow.key key tables.nodes }

def setRootCount (tables : Tables Key Raw) (key : Key) (count : Nat) : Tables Key Raw :=
  { tables with roots := tables.roots.setRootCount key count }

def update (tables : Tables Key Raw) : Key × Update Object → Tables Key Raw
  | (key, .insertNode object) => insertNode codec tables (key, object)
  | (key, .deleteNode) => deleteNode tables key
  | (key, .setRootCount count) => setRootCount tables key count

def batchInsertSize : Nat := 1000

variable (rejects : List Key → Bool)

/-- One multi-row upsert for each chunk of the buffer. -/
def flushInserts (tables : Tables Key Raw) (inserts : List (Key × Object)) :
    Except String (Tables Key Raw) :=
  (inserts.toChunks batchInsertSize).foldlM (fun tables chunk =>
    if rejects (chunk.map Prod.fst) then .error "cannot batch insert nodes"
    else .ok (chunk.foldl (insertNode codec) tables)) tables

/-- The loop over the updates, inside the transaction. -/
def updateLoop (tables : Tables Key Raw) (inserts : List (Key × Object)) :
    List (Key × Update Object) → Except String (Tables Key Raw)
  | [] => flushInserts codec rejects tables inserts
  | (key, .insertNode object) :: rest => updateLoop tables (inserts ++ [(key, object)]) rest
  | (key, .deleteNode) :: rest => do
    let tables ← flushInserts codec rejects tables inserts
    updateLoop (deleteNode tables key) [] rest
  | (key, .setRootCount count) :: rest => do
    let tables ← flushInserts codec rejects tables inserts
    updateLoop (setRootCount tables key count) [] rest

/-- The tables afterwards, and the panic if there is one. -/
def batchUpdate (tables : Tables Key Raw) (updates : List (Key × Update Object)) :
    Tables Key Raw × Option String :=
  match updateLoop codec rejects tables [] updates with
  | .ok after => (after, none)
  | .error panic => (tables, some panic)

end

/-! ## The scan -/

/-- The batch behind the handle, and the handle to resume from. -/
def scan [LinearOrder Key] (backend : Sql.Backend) (codec : Codec Raw Object)
    (rows : List (NodeRow Key Raw)) (resumeFrom : Option Key) (batchSize : Nat) :
    Except String (List (Key × Object) × Option Key) := do
  let raw ← (Sql.limit backend (Sql.asI64 batchSize) (Sql.orderBy NodeRow.key
    (rows.filter fun row => ∀ handle ∈ resumeFrom, handle < row.key))).mapError
      fun _ => "cannot scan ledger_db_nodes"
  let batch ← raw.mapM (readRow codec "cannot deserialize node as OnDiskObject")
  .ok (batch, batch.getLast?.map Prod.fst)

/-! ## Rows of nodes -/

theorem mapM_readRow (codec : Codec Raw Object) (panic : String) (nodes : List (Key × Object)) :
    (stored codec nodes).mapM (readRow codec panic) = .ok nodes := by
  induction nodes with
  | nil => rfl
  | cons node rest ih =>
    rw [stored, List.map_cons, List.mapM_cons, readRow, codec.reads_back]
    change ((stored codec rest).mapM (readRow codec panic) >>= fun nodes =>
      Except.ok (node :: nodes)) = _
    rw [ih]
    rfl

end MidnightIndexer.Source.LedgerNodes
