import MidnightIndexer.Lib.Run
import MidnightIndexer.Source.LedgerState

/-!
# Collapsed updates through the ledger state cache

indexer-api/src/domain/ledger_state.rs:23-250, the functions below it in
indexer-common/src/domain/ledger/ledger_state.rs:928-1005, the highest ledger state of
indexer-api/src/infra/storage/ledger_state.rs:18-40 and the callers in
indexer-api/src/infra/api/v4/query.rs:104-131, 371-429 and
indexer-api/src/infra/api/v4/subscription/shielded.rs:299-314.

A request looks at the cache under a read lock and answers from it if its tree is long
enough. Otherwise it comes back with the write lock, looks again, loads the newest
state if the tree is still too short, and answers without letting the lock go. Each
of the two parts is one step here; blocks are committed and other requests run
between them.

`TreeCrates` is the boundary to the ledger crates. A block's key names the state that
was persisted with it; the load can fail for other reasons, which the step carries.
Which block a state was loaded from, and how many blocks there were when a request
came in, is kept for the statements only.
-/

namespace MidnightIndexer.Source.IndexerApi

open Lib ChainIndexer

/-! ## Updates of a state -/

inductive MerkleTree where
  | zswap | dustGenerations | dustCommitments
  deriving DecidableEq, Repr

structure TreeCrates (crates : LedgerCrates) where
  Leaf : Type
  decidableLeaf : DecidableEq Leaf
  leaves : {version : LedgerVersion} → MerkleTree → crates.State version → List Leaf
  Update : LedgerVersion → Type
  /-- `MerkleTreeCollapsedUpdate::new` of the rehashed tree. -/
  collapse : {version : LedgerVersion} → MerkleTree → crates.State version →
    (startIndex endIndex : UInt64) → Option (Update version)
  taggedSerialize : {version : LedgerVersion} → Update version → Option ByteVec

instance {crates : LedgerCrates} (trees : TreeCrates crates) : DecidableEq trees.Leaf :=
  trees.decidableLeaf

/-- `ledger::Error::InvalidUpdate` is kept apart from the other ledger errors. -/
inductive LedgerStateCacheError where
  | load
  | notFound
  | ledger (cause : LedgerError)
  | invalidUpdate
  deriving DecidableEq, Repr

variable {crates : LedgerCrates} (trees : TreeCrates crates)

def firstFree (tree : MerkleTree) (ledger : LedgerState crates) : Nat :=
  match tree with
  | .zswap => crates.zswapFirstFree ledger.state
  | .dustGenerations => crates.dustGenerationsFirstFree ledger.state
  | .dustCommitments => crates.dustCommitmentsFirstFree ledger.state

def serializedUpdate (tree : MerkleTree) (what : String) (ledger : LedgerState crates)
    (startIndex endIndex : UInt64) : Except LedgerStateCacheError ByteVec := do
  let update ← okOr (trees.collapse tree ledger.state startIndex endIndex) .invalidUpdate
  okOr (trees.taggedSerialize update) (.ledger (.serialize what))

def makeZswapCollapsedUpdate :=
  serializedUpdate trees .zswap "MerkleTreeCollapsedUpdate"

def dustGenerationsCollapsedUpdate :=
  serializedUpdate trees .dustGenerations "DustGenerationsMerkleTreeCollapsedUpdate"

def dustCommitmentsCollapsedUpdate :=
  serializedUpdate trees .dustCommitments "DustCommitmentsMerkleTreeCollapsedUpdate"

def collapsedUpdate : MerkleTree → LedgerState crates → (startIndex endIndex : UInt64) →
    Except LedgerStateCacheError ByteVec
  | .zswap => makeZswapCollapsedUpdate trees
  | .dustGenerations => dustGenerationsCollapsedUpdate trees
  | .dustCommitments => dustCommitmentsCollapsedUpdate trees

structure MerkleTreeCollapsedUpdate where
  startIndex : UInt64
  endIndex : UInt64
  update : ByteVec
  protocolVersion : ProtocolVersion
  deriving DecidableEq

/-! ## Blocks -/

structure StoredBlock where
  protocolVersion : ProtocolVersion
  ledgerStateKey : ByteVec
  deriving DecidableEq

def StoredBlock.ledgerState (crates : LedgerCrates) (block : StoredBlock) :
    Except LedgerError (LedgerState crates) :=
  LedgerState.load crates block.ledgerStateKey block.protocolVersion.ledgerVersion

/-- The trees of zswap and of the dust commitments only grow. -/
def Extends (older newer : StoredBlock) : Prop :=
  match older.ledgerState crates, newer.ledgerState crates with
  | .ok before, .ok after =>
    trees.leaves .zswap before.state <+: trees.leaves .zswap after.state ∧
      trees.leaves .dustCommitments before.state <+: trees.leaves .dustCommitments after.state
  | _, _ => True

instance (older newer : StoredBlock) : Decidable (Extends trees older newer) := by
  unfold Extends
  split <;> infer_instance

/-- The blocks in the order of their heights. -/
structure CommittedBlocks where
  rows : List StoredBlock
  appendOnly : rows.Pairwise (Extends trees)

namespace CommittedBlocks

variable {trees}

def empty : CommittedBlocks trees := ⟨[], .nil⟩

def commit (blocks : CommittedBlocks trees) (block : StoredBlock) : CommittedBlocks trees :=
  if appendOnly : (blocks.rows ++ [block]).Pairwise (Extends trees) then
    ⟨blocks.rows ++ [block], appendOnly⟩
  else blocks

def getHighestLedgerState (blocks : CommittedBlocks trees) : Option StoredBlock :=
  blocks.rows.getLast?

theorem commit_grows (blocks : CommittedBlocks trees) (block : StoredBlock) :
    blocks.rows <+: (blocks.commit block).rows := by
  unfold commit
  split
  · exact List.prefix_append _ _
  · exact List.prefix_rfl

end CommittedBlocks

/-! ## The cache -/

structure UpdateRequest where
  tree : MerkleTree
  startIndex : UInt64
  endIndex : UInt64
  protocolVersion : ProtocolVersion
  deriving DecidableEq

structure CachedState (crates : LedgerCrates) where
  ledger : LedgerState crates
  block : Nat

/-- `end_index >= first_free`. -/
def isStale (cache : Option (CachedState crates)) (request : UpdateRequest) : Bool :=
  decide ((cache.map fun cached => firstFree request.tree cached.ledger).getD 0 ≤
    request.endIndex.toNat)

/-- The update with the caller's protocol version. -/
def UpdateRequest.answer (request : UpdateRequest) (cached : CachedState crates) :
    Except LedgerStateCacheError MerkleTreeCollapsedUpdate :=
  (collapsedUpdate trees request.tree cached.ledger request.startIndex request.endIndex).map
    fun update => ⟨request.startIndex, request.endIndex, update, request.protocolVersion⟩

inductive Stage where
  | arrived | waiting | answered
  deriving DecidableEq, Repr

structure PendingRequest where
  request : UpdateRequest
  since : Nat
  stage : Stage

structure Response where
  request : UpdateRequest
  since : Nat
  blocks : CommittedBlocks trees
  served : CachedState crates
  update : MerkleTreeCollapsedUpdate

structure CacheState where
  blocks : CommittedBlocks trees
  cache : Option (CachedState crates)
  requests : List PendingRequest
  responses : List (Response trees)
  errors : List LedgerStateCacheError

/-- Where a request takes its protocol version from: the subscription from the
transaction, a query from the highest block. -/
inductive Caller where
  | transaction (protocolVersion : ProtocolVersion)
  | query

inductive CacheInput where
  | commit (block : StoredBlock)
  | request (caller : Caller) (tree : MerkleTree) (startIndex endIndex : UInt64)
  | read (index : Nat)
  | write (index : Nat) (failure : Option LedgerStateCacheError)

namespace CacheState

variable {trees}

def start (blocks : CommittedBlocks trees) : CacheState trees := ⟨blocks, none, [], [], []⟩

def callerVersion (s : CacheState trees) : Caller → Option ProtocolVersion
  | .transaction protocolVersion => some protocolVersion
  | .query => s.blocks.getHighestLedgerState.map (·.protocolVersion)

def request (s : CacheState trees) (caller : Caller) (tree : MerkleTree)
    (startIndex endIndex : UInt64) : CacheState trees :=
  match s.callerVersion caller with
  | some protocolVersion =>
    { s with requests := s.requests ++
        [⟨⟨tree, startIndex, endIndex, protocolVersion⟩, s.blocks.rows.length, .arrived⟩] }
  | none => s

def setStage (s : CacheState trees) (index : Nat) (pending : PendingRequest) (stage : Stage) :
    CacheState trees :=
  { s with requests := s.requests.set index { pending with stage := stage } }

def respond (s : CacheState trees) (index : Nat) (pending : PendingRequest)
    (cached : CachedState crates) : CacheState trees :=
  let s := s.setStage index pending .answered
  match pending.request.answer trees cached with
  | .ok update =>
    { s with responses := s.responses ++
        [⟨pending.request, pending.since, s.blocks, cached, update⟩] }
  | .error e => { s with errors := s.errors ++ [e] }

def fail (s : CacheState trees) (index : Nat) (pending : PendingRequest)
    (e : LedgerStateCacheError) : CacheState trees :=
  let s := s.setStage index pending .answered
  { s with errors := s.errors ++ [e] }

/-- Under the read lock. -/
def read (s : CacheState trees) (index : Nat) (pending : PendingRequest) : CacheState trees :=
  if isStale s.cache pending.request then s.setStage index pending .waiting
  else
    match s.cache with
    | some cached => s.respond index pending cached
    | none => s

def load (s : CacheState trees) (failure : Option LedgerStateCacheError) :
    Except LedgerStateCacheError (CachedState crates) :=
  match failure with
  | some e => .error e
  | none => do
    let block ← okOr s.blocks.getHighestLedgerState .notFound
    let ledger ← (block.ledgerState crates).mapError .ledger
    return ⟨ledger, s.blocks.rows.length - 1⟩

/-- Under the write lock. -/
def write (s : CacheState trees) (index : Nat) (pending : PendingRequest)
    (failure : Option LedgerStateCacheError) : CacheState trees :=
  if isStale s.cache pending.request then
    match s.load failure with
    | .ok cached => { s with cache := some cached }.respond index pending cached
    | .error e => s.fail index pending e
  else
    match s.cache with
    | some cached => s.respond index pending cached
    | none => s

def step (s : CacheState trees) : CacheInput → CacheState trees
  | .commit block => { s with blocks := s.blocks.commit block }
  | .request caller tree startIndex endIndex => s.request caller tree startIndex endIndex
  | .read index =>
    match s.requests[index]? with
    | some pending => if pending.stage = .arrived then s.read index pending else s
    | none => s
  | .write index failure =>
    match s.requests[index]? with
    | some pending => if pending.stage = .waiting then s.write index pending failure else s
    | none => s

/-! ## What a step does -/

def serving (s : CacheState trees) : CacheInput → Option (PendingRequest × CachedState crates)
  | .read index => do
    let pending ← s.requests[index]?
    if pending.stage = .arrived ∧ isStale s.cache pending.request = false then
      s.cache.map (pending, ·)
    else none
  | .write index failure => do
    let pending ← s.requests[index]?
    if pending.stage = .waiting then
      (if isStale s.cache pending.request then (s.load failure).toOption else s.cache).map
        (pending, ·)
    else none
  | _ => none

inductive Move (s : CacheState trees) : CacheInput → CacheState trees → Prop
  | commit (block : StoredBlock) :
      Move s (.commit block) { s with blocks := s.blocks.commit block }
  | request {caller : Caller} {tree : MerkleTree} {startIndex endIndex : UInt64}
      (request : UpdateRequest) :
      Move s (.request caller tree startIndex endIndex) { s with
        requests := s.requests ++ [⟨request, s.blocks.rows.length, .arrived⟩] }
  | wait {index : Nat} {pending : PendingRequest} (found : s.requests[index]? = some pending)
      (stale : isStale s.cache pending.request = true)
      (serving : s.serving (.read index) = none) :
      Move s (.read index) (s.setStage index pending .waiting)
  | hit {index : Nat} {pending : PendingRequest} {cached : CachedState crates}
      (found : s.requests[index]? = some pending) (held : s.cache = some cached)
      (fresh : isStale s.cache pending.request = false)
      (serving : s.serving (.read index) = some (pending, cached)) :
      Move s (.read index) (s.respond index pending cached)
  | late {index : Nat} {failure : Option LedgerStateCacheError} {pending : PendingRequest}
      {cached : CachedState crates} (found : s.requests[index]? = some pending)
      (waiting : pending.stage = .waiting) (held : s.cache = some cached)
      (fresh : isStale s.cache pending.request = false)
      (serving : s.serving (.write index failure) = some (pending, cached)) :
      Move s (.write index failure) (s.respond index pending cached)
  | load {index : Nat} {failure : Option LedgerStateCacheError} {pending : PendingRequest}
      {block : StoredBlock} {ledger : LedgerState crates}
      (found : s.requests[index]? = some pending)
      (highest : s.blocks.rows.getLast? = some block)
      (loaded : block.ledgerState crates = .ok ledger)
      (serving : s.serving (.write index failure) =
        some (pending, ⟨ledger, s.blocks.rows.length - 1⟩)) :
      Move s (.write index failure)
        ({ s with cache := some ⟨ledger, s.blocks.rows.length - 1⟩ }.respond index pending
          ⟨ledger, s.blocks.rows.length - 1⟩)
  | fail {index : Nat} {failure : Option LedgerStateCacheError} {pending : PendingRequest}
      (found : s.requests[index]? = some pending) (e : LedgerStateCacheError)
      (serving : s.serving (.write index failure) = none) :
      Move s (.write index failure) (s.fail index pending e)
  | idle {input : CacheInput} (serving : s.serving input = none) : Move s input s

theorem isStale_none (request : UpdateRequest) :
    isStale (none : Option (CachedState crates)) request = true := by
  simp [isStale]

variable {s : CacheState trees}

theorem load_ok {failure : Option LedgerStateCacheError} {cached : CachedState crates}
    (success : s.load failure = .ok cached) :
    ∃ block ledger, s.blocks.rows.getLast? = some block ∧ block.ledgerState crates = .ok ledger ∧
      cached = ⟨ledger, s.blocks.rows.length - 1⟩ := by
  unfold load at success
  split at success
  · cases success
  · obtain ⟨block, highest, ledger, loaded, success⟩ := bind₂_success success
    cases success
    exact ⟨block, ledger, okOr_success highest, mapError_success loaded, rfl⟩

theorem held_of_fresh {request : UpdateRequest} (fresh : ¬isStale s.cache request = true) :
    ∃ cached, s.cache = some cached ∧ isStale (some cached) request = false := by
  cases held : s.cache with
  | none =>
    rw [held, isStale_none] at fresh
    exact absurd rfl fresh
  | some cached => exact ⟨cached, rfl, by simpa [held] using fresh⟩

theorem read_move {index : Nat} {pending : PendingRequest}
    (found : s.requests[index]? = some pending) (arrived : pending.stage = .arrived) :
    Move s (.read index) (s.read index pending) := by
  unfold read
  split
  next stale => exact .wait found stale (by simp [serving, found, stale])
  next fresh =>
    obtain ⟨cached, held, known⟩ := held_of_fresh fresh
    rw [held]
    exact .hit found held (held ▸ known) (by simp [serving, found, arrived, known, held])

theorem write_move {index : Nat} {pending : PendingRequest}
    (found : s.requests[index]? = some pending) (waiting : pending.stage = .waiting)
    (failure : Option LedgerStateCacheError) :
    Move s (.write index failure) (s.write index pending failure) := by
  unfold write
  split
  next stale =>
    cases loading : s.load failure with
    | error e => exact .fail found e (by simp [serving, found, waiting, stale, loading, Except.toOption])
    | ok cached =>
      obtain ⟨block, ledger, highest, loaded, rfl⟩ := load_ok loading
      exact .load found highest loaded
        (by simp [serving, found, waiting, stale, loading, Except.toOption])
  next fresh =>
    obtain ⟨cached, held, known⟩ := held_of_fresh fresh
    rw [held]
    exact .late found waiting held (held ▸ known) (by simp [serving, found, waiting, known, held])

theorem step_move (s : CacheState trees) (input : CacheInput) : Move s input (s.step input) := by
  cases input with
  | commit block => exact .commit block
  | request caller tree startIndex endIndex =>
    dsimp only [step, CacheState.request]
    split
    · exact .request _
    · exact .idle rfl
  | read index =>
    dsimp only [step]
    cases found : s.requests[index]? with
    | none => exact .idle (by simp [serving, found])
    | some pending =>
      by_cases arrived : pending.stage = .arrived
      · simpa only [if_pos arrived] using read_move found arrived
      · simpa only [if_neg arrived] using .idle (by simp [serving, found, arrived])
  | write index failure =>
    dsimp only [step]
    cases found : s.requests[index]? with
    | none => exact .idle (by simp [serving, found])
    | some pending =>
      by_cases waiting : pending.stage = .waiting
      · simpa only [if_pos waiting] using write_move found waiting failure
      · simpa only [if_neg waiting] using .idle (by simp [serving, found, waiting])

end CacheState

end MidnightIndexer.Source.IndexerApi
