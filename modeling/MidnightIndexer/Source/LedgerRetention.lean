import MidnightIndexer.Lib.Outcome
import MidnightIndexer.Lib.Run
import MidnightIndexer.Lib.Sql
import MidnightIndexer.Source.LedgerDb
import MidnightIndexer.Source.ProtocolVersion

/-!
# Chain indexer runs: start, index loop and retention window

chain-indexer/src/application.rs:69-181 and 229-277,
chain-indexer/src/infra/storage.rs:144-169 and
indexer-common/src/domain/ledger/ledger_state.rs:249-290,350-442. The block rows
and the ledger DB survive a crash; the process with its window, its ledger state
and the count changes it has not flushed does not.

The ledger crates are the fields of `LedgerCore`, with what is assumed of them:
a persisted state's nodes are closed under children, its key names its root, and
`load` inverts `persist`. What `index_block` computes between two persists is an
input here; it ends with a state of the block's own ledger version.
-/

namespace MidnightIndexer.Source

open Lib List

structure LedgerCore where
  State : Type
  Key : Type
  Hash : Type
  hashEq : DecidableEq Hash
  childrenOf : Hash → List Hash
  version : State → LedgerVersion
  root : State → Hash
  dag : State → List Hash
  key : State → Key
  arenaRootHash : Key → LedgerVersion → Option Hash
  load : Key → LedgerVersion → Option State
  new : LedgerVersion → State
  root_mem : ∀ s, root s ∈ dag s
  dag_closed : ∀ s, ∀ node ∈ dag s, ∀ child ∈ childrenOf node, child ∈ dag s
  key_root : ∀ s, arenaRootHash (key s) (version s) = some (root s)
  load_key : ∀ s, load (key s) (version s) = some s

instance (core : LedgerCore) : DecidableEq core.Hash := core.hashEq

/-- The columns of `blocks` that a start reads. -/
structure BlockRow (Key : Type) where
  height : Nat
  protocolVersion : Int
  ledgerStateKey : Key

inductive RunError where
  | storage (error : Sql.Error)
  | decode
  | deserializeKey
  | loadLedgerState
  | noPersistedRoot
  deriving DecidableEq, Repr

variable (core : LedgerCore)

def decodeRow {Key : Type} (row : BlockRow Key) : Except RunError (ProtocolVersion × Key) :=
  match ProtocolVersion.tryFromI64 row.protocolVersion with
  | some version => .ok (version, row.ledgerStateKey)
  | none => .error .decode

/-- The keys of the newest blocks, oldest first. -/
def getNewestLedgerStateKeys {Key : Type} (backend : Sql.Backend) (limit : NonZeroUsize)
    (blocks : List (BlockRow Key)) : Except RunError (List (ProtocolVersion × Key)) := do
  let rows ← (Sql.limit backend (Sql.asI64 limit.val)
    (Sql.orderByDesc BlockRow.height blocks)).mapError .storage
  let keys ← rows.mapM decodeRow
  return keys.reverse

/-- A key of the retention window with the version it was persisted under. -/
structure WindowKey where
  key : core.Key
  version : LedgerVersion

/-- A window key with its `root_hash_bytes`. -/
structure HashedKey extends WindowKey core where
  hash : core.Hash

variable {core}

def hashKey (entry : ProtocolVersion × core.Key) : Except RunError (HashedKey core) :=
  match core.arenaRootHash entry.2 entry.1.ledgerVersion with
  | some hash => .ok ⟨⟨entry.2, entry.1.ledgerVersion⟩, hash⟩
  | none => .error .deserializeKey

def newestHashedKeys (backend : Sql.Backend) (retention : NonZeroUsize)
    (blocks : List (BlockRow core.Key)) : Except RunError (List (HashedKey core)) := do
  let newest ← getNewestLedgerStateKeys backend retention blocks
  newest.mapM hashKey

variable {backend : Sql.Backend} {retention : NonZeroUsize} {blocks : List (BlockRow core.Key)}
  {keys : List (HashedKey core)}

theorem newestHashedKeys_mem (success : newestHashedKeys backend retention blocks = .ok keys)
    {hashed : HashedKey core} (member : hashed ∈ keys) :
    ∃ row ∈ blocks, ∃ entry, decodeRow row = .ok entry ∧ hashKey entry = .ok hashed := by
  obtain ⟨newest, read, hashes⟩ := bind_success success
  obtain ⟨entry, listed, found⟩ := mapM_mem hashes member
  obtain ⟨rows, limited, decoded, mapped, same⟩ := bind₂_success read
  cases same
  obtain ⟨row, selected, decodes⟩ := mapM_mem mapped (mem_reverse.mp listed)
  obtain ⟨_, rfl, _⟩ := Sql.limit_success (mapError_success limited)
  exact ⟨row, Sql.mem_orderByDesc.mp (mem_of_mem_take selected), entry, decodes, found⟩

theorem newestHashedKeys_last (success : newestHashedKeys backend retention blocks = .ok keys)
    (unique : (blocks.map BlockRow.height).Nodup) {top : BlockRow core.Key}
    (member : top ∈ blocks) (highest : ∀ row ∈ blocks, row.height ≤ top.height) :
    ∃ entry hashed, decodeRow top = .ok entry ∧ hashKey entry = .ok hashed ∧
      keys.getLast? = some hashed := by
  obtain ⟨newest, read, hashes⟩ := bind_success success
  obtain ⟨rows, limited, decoded, mapped, same⟩ := bind₂_success read
  cases same
  obtain ⟨rest, sorted⟩ := Sql.orderByDesc_head unique member highest
  obtain ⟨n, rfl, nonempty⟩ := Sql.limit_success (mapError_success limited)
  rw [sorted] at mapped nonempty
  obtain ⟨n, rfl⟩ := Nat.exists_eq_add_one.mpr
    ((nonempty (Sql.asI64_ne_zero retention)).resolve_right (cons_ne_nil top rest))
  rw [take_succ_cons] at mapped
  obtain ⟨entry, later, decodes, _, rfl⟩ := forall₂_cons_left_iff.mp (mapM_success mapped)
  have reversed := rel_reverse (mapM_success hashes)
  rw [reverse_reverse] at reversed
  obtain ⟨hashed, front, found, _, shape⟩ := forall₂_cons_left_iff.mp reversed
  refine ⟨entry, hashed, decodes, found, ?_⟩
  rw [← head?_reverse, shape]
  rfl

theorem newestHashedKeys_nil (success : newestHashedKeys backend retention [] = .ok keys) :
    keys = [] := by
  refine eq_nil_iff_forall_not_mem.mpr fun hashed member => ?_
  obtain ⟨_, absent, _⟩ := newestHashedKeys_mem success member
  cases absent

/-- `LedgerState::load`: the root node must be present. -/
def loadLedgerState (ledger : LedgerDb core.Hash) (entry : WindowKey core) : Option core.State :=
  match core.arenaRootHash entry.key entry.version with
  | some hash => if hash ∈ ledger.nodes then core.load entry.key entry.version else none
  | none => none

/-- Where the index loop stands. The row is the one being saved. -/
inductive LoopPhase (Key : Type) where
  | next
  | persisted (row : BlockRow Key)
  | saved (row : BlockRow Key)
  | rolling

structure Running (core : LedgerCore) where
  retention : NonZeroUsize
  window : List (WindowKey core)
  deltas : List (RootDelta core.Hash)
  state : core.State
  phase : LoopPhase core.Key

/-- A process between the repair and the seeding of its window, or in the loop. -/
inductive Process (core : LedgerCore) where
  | seeding (retention : NonZeroUsize) (keys : List (HashedKey core))
  | running (running : Running core)

structure ChainWorld (core : LedgerCore) where
  blocks : List (BlockRow core.Key)
  ledger : LedgerDb core.Hash
  process : Option (Process core)

def ChainWorld.empty : ChainWorld core := ⟨[], LedgerDb.empty, none⟩

/-- The first part of a run: read the newest keys and repair the root counts. -/
def start (backend : Sql.Backend) (retention : NonZeroUsize) (world : ChainWorld core) :
    ChainWorld core :=
  match newestHashedKeys backend retention world.blocks with
  | .error _ => world
  | .ok keys =>
    match raiseRootCounts core.childrenOf world.ledger
        (windowRootCounts (keys.map HashedKey.hash)) with
    | none => world
    | some (ledger, _) =>
      { world with ledger := ledger, process := some (.seeding retention keys) }

/-- Seed the window with the keys whose roots are persisted. -/
def seedWindow (keys : List (HashedKey core)) (ledger : LedgerDb core.Hash) :
    List (WindowKey core) :=
  (keys.filter fun entry => entry.hash ∈ ledger.roots.hashes).map HashedKey.toWindowKey

def resume (window : List (WindowKey core)) (blocks : List (BlockRow core.Key))
    (ledger : LedgerDb core.Hash) : Except RunError core.State :=
  match window.getLast? with
  | some entry =>
    match loadLedgerState ledger entry with
    | some state => .ok state
    | none => .error .loadLedgerState
  | none => if blocks ≠ [] then .error .noPersistedRoot else .ok (core.new LedgerVersion.oldest)

inductive ChainInput (core : LedgerCore) where
  | start (retention : NonZeroUsize)
  | seed
  | persist (next : core.State) (height : Nat) (version : ProtocolVersion)
  | saveBlock
  | pushBack
  | evict
  /-- `none` is a disabled gc, otherwise the nodes that the pass leaves. -/
  | gc (kept : Option (List core.Hash))
  | flush
  | crash

/-- One step of the index loop. A failing step ends the process. -/
def loopStep (blocks : List (BlockRow core.Key)) (ledger : LedgerDb core.Hash)
    (r : Running core) (input : ChainInput core) : ChainWorld core :=
  let stay : ChainWorld core := ⟨blocks, ledger, some (.running r)⟩
  let stop : ChainWorld core := ⟨blocks, ledger, none⟩
  match input, r.phase with
  | .persist next height version, .next =>
    if core.version next = version.ledgerVersion then
      match flushAllChanges ledger (r.deltas ++ [(core.root next, 1)]) (core.dag next) with
      | none => stop
      | some after =>
        ⟨blocks, after, some (.running { r with
          deltas := []
          state := next
          phase := .persisted ⟨height, version.intoI64, core.key next⟩ })⟩
    else stay
  | .saveBlock, .persisted row =>
    if row.height ∈ blocks.map BlockRow.height then stop
    else ⟨blocks ++ [row], ledger, some (.running { r with phase := .saved row })⟩
  | .pushBack, .saved row =>
    ⟨blocks, ledger, some (.running { r with
      window := r.window ++ [⟨row.ledgerStateKey, core.version r.state⟩]
      phase := .rolling })⟩
  | .evict, .rolling =>
    match r.window with
    | [] => stay
    | oldest :: rest =>
      if r.retention.val < r.window.length then
        match core.arenaRootHash oldest.key oldest.version with
        | none => stop
        | some hash =>
          ⟨blocks, ledger, some (.running { r with
            window := rest
            deltas := r.deltas ++ [(hash, -1)] })⟩
      else stay
  | .gc kept, .rolling =>
    if r.retention.val < r.window.length then stay
    else
      let ledger := match kept with
        | none => ledger
        | some kept => { ledger with nodes := ledger.nodes.filter (· ∈ kept) }
      ⟨blocks, ledger, some (.running { r with phase := .next })⟩
  | .flush, _ =>
    match flushAllChanges ledger r.deltas [] with
    | none => stop
    | some after => ⟨blocks, after, some (.running { r with deltas := [] })⟩
  | .crash, _ => stop
  | _, _ => stay

def chainStep (backend : Sql.Backend) (world : ChainWorld core) (input : ChainInput core) :
    ChainWorld core :=
  match world.process with
  | none =>
    match input with
    | .start retention => start backend retention world
    | _ => world
  | some (.seeding retention keys) =>
    match input with
    | .crash => { world with process := none }
    | .seed =>
      let window := seedWindow keys world.ledger
      match resume window world.blocks world.ledger with
      | .error _ => { world with process := none }
      | .ok state =>
        { world with process := some (.running ⟨retention, window, [], state, .next⟩) }
    | _ => world
  | some (.running r) => loopStep world.blocks world.ledger r input

/-- Everything a step of the index loop can do. -/
inductive LoopMove (blocks : List (BlockRow core.Key)) (ledger : LedgerDb core.Hash)
    (r : Running core) : ChainInput core → ChainWorld core → Prop where
  | stay (input) : LoopMove blocks ledger r input ⟨blocks, ledger, some (.running r)⟩
  | stop (input) : LoopMove blocks ledger r input ⟨blocks, ledger, none⟩
  | persist {next height version after} (phase : r.phase = .next)
      (same : core.version next = version.ledgerVersion)
      (flushed : flushAllChanges ledger (r.deltas ++ [(core.root next, 1)]) (core.dag next) =
        some after) :
      LoopMove blocks ledger r (.persist next height version)
        ⟨blocks, after, some (.running { r with
          deltas := []
          state := next
          phase := .persisted ⟨height, version.intoI64, core.key next⟩ })⟩
  | saveBlock {row} (phase : r.phase = .persisted row)
      (fresh : row.height ∉ blocks.map BlockRow.height) :
      LoopMove blocks ledger r .saveBlock
        ⟨blocks ++ [row], ledger, some (.running { r with phase := .saved row })⟩
  | pushBack {row} (phase : r.phase = .saved row) :
      LoopMove blocks ledger r .pushBack
        ⟨blocks, ledger, some (.running { r with
          window := r.window ++ [⟨row.ledgerStateKey, core.version r.state⟩]
          phase := .rolling })⟩
  | evict {oldest rest hash} (phase : r.phase = .rolling) (window : r.window = oldest :: rest)
      (tooLong : r.retention.val < r.window.length)
      (hashed : core.arenaRootHash oldest.key oldest.version = some hash) :
      LoopMove blocks ledger r .evict
        ⟨blocks, ledger, some (.running { r with
          window := rest
          deltas := r.deltas ++ [(hash, -1)] })⟩
  | gc {kept} (phase : r.phase = .rolling) (within : r.window.length ≤ r.retention.val) :
      LoopMove blocks ledger r (.gc (some kept))
        ⟨blocks, { ledger with nodes := ledger.nodes.filter (· ∈ kept) },
          some (.running { r with phase := .next })⟩
  | skipGc (phase : r.phase = .rolling) (within : r.window.length ≤ r.retention.val) :
      LoopMove blocks ledger r (.gc none) ⟨blocks, ledger, some (.running { r with phase := .next })⟩
  | flush {after} (flushed : flushAllChanges ledger r.deltas [] = some after) :
      LoopMove blocks ledger r .flush ⟨blocks, after, some (.running { r with deltas := [] })⟩

theorem loopStep_move (blocks : List (BlockRow core.Key)) (ledger : LedgerDb core.Hash)
    (r : Running core) (input : ChainInput core) :
    LoopMove blocks ledger r input (loopStep blocks ledger r input) := by
  simp only [loopStep]
  split
  next phase =>
    split
    next same =>
      split
      next => exact .stop _
      next flushed => exact .persist phase same flushed
    next => exact .stay _
  next phase =>
    split
    next => exact .stop _
    next fresh => exact .saveBlock phase fresh
  next phase => exact .pushBack phase
  next phase =>
    split
    next => exact .stay _
    next window =>
      split
      next tooLong =>
        split
        next => exact .stop _
        next hashed => exact .evict phase window tooLong hashed
      next => exact .stay _
  next kept phase =>
    split
    next => exact .stay _
    next within =>
      cases kept with
      | none => exact .skipGc phase (not_lt.mp within)
      | some kept => exact .gc phase (not_lt.mp within)
  next =>
    split
    next => exact .stop _
    next flushed => exact .flush flushed
  next => exact .stop _
  next => exact .stay _

/-- Everything a step of the chain indexer can do. -/
inductive ChainMove (backend : Sql.Backend) (world : ChainWorld core) :
    ChainInput core → ChainWorld core → Prop where
  | stay (input) : ChainMove backend world input world
  | stop (input) : ChainMove backend world input { world with process := none }
  | start {retention keys ledger repair} (idle : world.process = none)
      (newest : newestHashedKeys backend retention world.blocks = .ok keys)
      (repaired : raiseRootCounts core.childrenOf world.ledger
        (windowRootCounts (keys.map HashedKey.hash)) = some (ledger, repair)) :
      ChainMove backend world (.start retention)
        { world with ledger := ledger, process := some (.seeding retention keys) }
  | seed {retention keys state} (seeding : world.process = some (.seeding retention keys))
      (resumed : resume (seedWindow keys world.ledger) world.blocks world.ledger = .ok state) :
      ChainMove backend world .seed { world with
        process := some (.running
          ⟨retention, seedWindow keys world.ledger, [], state, .next⟩) }
  | loop {r input after} (running : world.process = some (.running r))
      (move : LoopMove world.blocks world.ledger r input after) :
      ChainMove backend world input after

theorem chainStep_move (backend : Sql.Backend) (world : ChainWorld core) (input : ChainInput core) :
    ChainMove backend world input (chainStep backend world input) := by
  unfold chainStep
  split
  next idle =>
    split
    next =>
      unfold start
      split
      next => exact .stay _
      next newest =>
        split
        next => exact .stay _
        next repaired => exact .start idle newest repaired
    next => exact .stay _
  next seeding =>
    split
    next => exact .stop _
    next =>
      simp only
      split
      next => exact .stop _
      next resumed => exact .seed seeding resumed
    next => exact .stay _
  next running => exact .loop running (loopStep_move ..)

theorem chainStep_seed {world : ChainWorld core} {r : Running core}
    (seeding : world.process = some (.seeding retention keys))
    (resumed : (chainStep backend world .seed).process = some (.running r)) :
    resume (seedWindow keys world.ledger) world.blocks world.ledger = .ok r.state := by
  simp only [chainStep, seeding] at resumed
  split at resumed
  next => cases resumed
  next state success =>
    cases resumed
    exact success

/-- Two-node states: a root `n + 1` over the shared leaf `0`. -/
def sampleCore : LedgerCore where
  State := LedgerVersion × Nat
  Key := LedgerVersion × Nat
  Hash := Nat
  hashEq := inferInstance
  childrenOf hash := if hash = 0 then [] else [0]
  version state := state.1
  root state := state.2 + 1
  dag state := [state.2 + 1, 0]
  key state := state
  arenaRootHash key version := if key.1 = version then some (key.2 + 1) else none
  load key version := if key.1 = version then some key else none
  new version := (version, 0)
  root_mem := by simp
  dag_closed := by
    intro state node _ child member
    split at member
    · cases member
    · simp [List.mem_singleton.mp member]
  key_root := by simp
  load_key := by simp

end MidnightIndexer.Source
