import MidnightIndexer.Guarantees.RestartEquivalence
import MidnightIndexer.Source.LedgerStateCache

/-!
# What a collapsed update is made from

An update is made from the state in the cache, which was loaded from some block. Its
protocol version is the caller's, so it fits the bytes only if the caller's ledger
version is that of the block. A request that finds the tree in the cache long enough
does not look for newer blocks. For a tree that only grows nothing is lost by that as
long as the ledger version stays, since the leaves of the range are the same. The
leaves of the dust generations tree can change.
-/

namespace MidnightIndexer.Guarantees.CollapsedUpdates

open Lib List Source Source.ChainIndexer Source.IndexerApi
open CacheState (Move step_move)

variable {crates : LedgerCrates} {trees : TreeCrates crates} {s t : CacheState trees}
  {input : CacheInput} {ledger before after : LedgerState crates} {request : UpdateRequest}
  {cached : CachedState crates} {index : Nat} {pending : PendingRequest} {response : Response trees}

theorem ledgerState_version {block : StoredBlock} (loaded : block.ledgerState crates = .ok ledger) :
    ledger.version = block.protocolVersion.ledgerVersion := by
  obtain ⟨_, _, _, _, rest⟩ := bind₂_success loaded
  cases rest
  rfl

/-! ## Responses -/

def answered (blocks : CommittedBlocks trees) (pending : PendingRequest)
    (cached : CachedState crates) : List (Response trees) :=
  match pending.request.answer trees cached with
  | .ok update => [⟨pending.request, pending.since, blocks, cached, update⟩]
  | .error _ => []

theorem answer_ok {update : MerkleTreeCollapsedUpdate}
    (success : request.answer trees cached = .ok update) :
    collapsedUpdate trees request.tree cached.ledger request.startIndex request.endIndex =
      .ok update.update ∧ update.protocolVersion = request.protocolVersion := by
  unfold UpdateRequest.answer at success
  generalize collapsedUpdate trees request.tree cached.ledger request.startIndex
    request.endIndex = bytes at success
  cases bytes with
  | error e => cases success
  | ok bytes =>
    cases success
    exact ⟨rfl, rfl⟩

section

variable (s : CacheState trees) (index : Nat) (pending : PendingRequest)
  (cached : CachedState crates)

@[simp] theorem respond_blocks : (s.respond index pending cached).blocks = s.blocks := by
  unfold CacheState.respond
  dsimp only
  split <;> rfl

@[simp] theorem respond_cache : (s.respond index pending cached).cache = s.cache := by
  unfold CacheState.respond
  dsimp only
  split <;> rfl

@[simp] theorem respond_requests : (s.respond index pending cached).requests =
    s.requests.set index { pending with stage := .answered } := by
  unfold CacheState.respond
  dsimp only
  split <;> rfl

@[simp] theorem respond_responses : (s.respond index pending cached).responses =
    s.responses ++ answered s.blocks pending cached := by
  unfold CacheState.respond answered
  cases pending.request.answer trees cached with
  | ok update => rfl
  | error e => exact (append_nil _).symm

end

theorem responses_of_move (move : Move s input t) :
    t.responses = s.responses ++ match s.serving input with
      | some (pending, cached) => answered s.blocks pending cached
      | none => [] := by
  cases move with
  | commit | request => exact (append_nil _).symm
  | wait _ _ serving | fail _ _ serving | idle serving =>
    rw [serving]
    exact (append_nil _).symm
  | hit _ _ _ serving | late _ _ _ _ serving | load _ _ _ serving =>
    rw [serving]
    exact respond_responses ..

/-! ## Where states come from -/

/-- The cache holds the state of a committed block. A request that waits for the write
lock has found the cache too short; if it is no longer, it was loaded since. -/
structure Traced (s : CacheState trees) : Prop where
  cached : ∀ cached ∈ s.cache, ∃ block, s.blocks.rows[cached.block]? = some block ∧
    block.ledgerState crates = .ok cached.ledger
  since : ∀ pending ∈ s.requests, pending.since ≤ s.blocks.rows.length
  waiting : ∀ pending ∈ s.requests, pending.stage = .waiting →
    isStale s.cache pending.request = true ∨
      ∃ cached ∈ s.cache, pending.since ≤ cached.block + 1

theorem Traced.congr (traced : Traced s) (blocks : t.blocks = s.blocks) (cache : t.cache = s.cache)
    (requests : t.requests = s.requests) : Traced t := by
  refine ⟨?_, ?_, ?_⟩
  · rw [blocks, cache]
    exact traced.cached
  · rw [blocks, requests]
    exact traced.since
  · rw [cache, requests]
    exact traced.waiting

theorem Traced.setStage (traced : Traced s) (found : s.requests[index]? = some pending)
    {stage : Stage} (stale : stage = .waiting → isStale s.cache pending.request = true) :
    Traced (s.setStage index pending stage) := by
  refine ⟨traced.cached, fun other member => ?_, fun other member waiting => ?_⟩
  · rcases mem_or_eq_of_mem_set member with old | rfl
    · exact traced.since other old
    · exact traced.since pending (mem_of_getElem? found)
  · rcases mem_or_eq_of_mem_set member with old | rfl
    · exact traced.waiting other old waiting
    · exact .inl (stale waiting)

theorem Traced.respond (traced : Traced s) (found : s.requests[index]? = some pending)
    (cached : CachedState crates) : Traced (s.respond index pending cached) :=
  (traced.setStage found fun waiting => by cases waiting).congr (respond_blocks ..)
    (respond_cache ..) (respond_requests ..)

/-- The newest state is as new as any request. -/
theorem Traced.load (traced : Traced s) {block : StoredBlock}
    (highest : s.blocks.rows.getLast? = some block)
    (loaded : block.ledgerState crates = .ok ledger) :
    Traced { s with cache := some ⟨ledger, s.blocks.rows.length - 1⟩ } := by
  rw [List.getLast?_eq_getElem?] at highest
  have inside := (List.getElem?_eq_some_iff.mp highest).1
  refine ⟨fun cached held => ?_, traced.since, fun pending member _ => .inr ⟨_, rfl, ?_⟩⟩
  · cases held
    exact ⟨block, highest, loaded⟩
  · have since := traced.since pending member
    dsimp only
    omega

theorem Traced.move (move : Move s input t) (traced : Traced s) : Traced t := by
  cases move with
  | commit block =>
    have grown := s.blocks.commit_grows block
    refine ⟨fun cached held => ?_, fun pending member => ?_, traced.waiting⟩
    · obtain ⟨row, found, loaded⟩ := traced.cached cached held
      obtain ⟨inside, same⟩ := List.getElem?_eq_some_iff.mp found
      exact ⟨row, by rw [prefix_iff_getElem?.mp grown _ inside, same], loaded⟩
    · exact (traced.since pending member).trans grown.length_le
  | request request =>
    refine ⟨traced.cached, fun pending member => ?_, fun pending member waiting => ?_⟩
    · rcases mem_append.mp member with old | new
      · exact traced.since pending old
      · rw [mem_singleton.mp new]
    · rcases mem_append.mp member with old | new
      · exact traced.waiting pending old waiting
      · simp [mem_singleton.mp new] at waiting
  | wait found stale => exact traced.setStage found fun _ => stale
  | hit found | late found => exact traced.respond found _
  | load found highest loaded => exact (traced.load highest loaded).respond found _
  | fail found =>
    exact (traced.setStage found fun waiting => by cases waiting).congr rfl rfl rfl
  | idle => exact traced

theorem Traced.start (blocks : CommittedBlocks trees) : Traced (CacheState.start blocks) :=
  ⟨nofun, nofun,
    nofun⟩

theorem fresh_of_not_stale (fresh : isStale (some cached) request = false) :
    request.endIndex.toNat < firstFree request.tree cached.ledger := by
  simpa [isStale] using fresh

/-- The state that a step answers from is the state of a committed block. It is as new as the
request, unless it is read from the cache and long enough. -/
theorem Traced.served (traced : Traced s) (move : Move s input t)
    (serving : s.serving input = some (pending, cached)) :
    (∃ block, s.blocks.rows[cached.block]? = some block ∧
      block.ledgerState crates = .ok cached.ledger) ∧
    (pending.since ≤ cached.block + 1 ∨ (∃ index, input = .read index) ∧
      pending.request.endIndex.toNat < firstFree pending.request.tree cached.ledger) := by
  cases move with
  | commit | request => cases serving
  | wait _ _ nothing | fail _ _ nothing | idle nothing =>
    simp [nothing] at serving
  | @hit index _ _ _ held fresh known =>
    rw [known] at serving
    cases serving
    exact ⟨traced.cached _ held, .inr ⟨⟨index, rfl⟩, fresh_of_not_stale (held ▸ fresh)⟩⟩
  | late found waiting held fresh known =>
    rw [known] at serving
    cases serving
    refine ⟨traced.cached _ held, .inl ?_⟩
    rcases traced.waiting pending (mem_of_getElem? found) waiting with
      stale | ⟨same, again, recent⟩
    · simp [fresh] at stale
    · rw [held] at again
      cases again
      exact recent
  | load found highest loaded known =>
    rw [known] at serving
    cases serving
    have bound := traced.since pending (mem_of_getElem? found)
    refine ⟨(traced.load highest loaded).cached _ rfl, .inl ?_⟩
    dsimp only
    omega

/-! ## Protocol versions -/

/-- The protocol version of the response has the ledger version of the state that
serialized the update. -/
def Response.labelled (response : Response trees) : Bool :=
  decide (response.update.protocolVersion.ledgerVersion = response.served.ledger.version)

/-- An answer for this tree comes from a block of the caller's ledger version. -/
def SameVersion (tree : MerkleTree) (s : CacheState trees) (input : CacheInput) : Prop :=
  ∀ pending cached, s.serving input = some (pending, cached) → pending.request.tree = tree →
    (∃ update, pending.request.answer trees cached = .ok update) →
    ∀ block ∈ s.blocks.rows[cached.block]?,
      pending.request.protocolVersion.ledgerVersion = block.protocolVersion.ledgerVersion

def mislabelled (tree : MerkleTree) (s : CacheState trees) : List (Response trees) :=
  s.responses.filter fun response =>
    decide (response.request.tree = tree) && !Response.labelled response

theorem mislabelled_of_move (tree : MerkleTree) (move : Move s input t) (traced : Traced s) :
    mislabelled tree s <+: mislabelled tree t ∧
      (mislabelled tree t = mislabelled tree s ↔ SameVersion tree s input) := by
  have responses := responses_of_move move
  unfold mislabelled
  rw [responses, filter_append]
  refine ⟨prefix_append _ _, ?_⟩
  rw [append_right_eq_self]
  cases serving : s.serving input with
  | none =>
    refine iff_of_true filter_nil fun pending cached served => ?_
    simp [serving] at served
  | some answer =>
    obtain ⟨pending, cached⟩ := answer
    obtain ⟨⟨block, found, loaded⟩, _⟩ := traced.served move serving
    have same : SameVersion tree s input ↔ (pending.request.tree = tree →
        (∃ update, pending.request.answer trees cached = .ok update) →
        pending.request.protocolVersion.ledgerVersion = cached.ledger.version) := by
      simp [SameVersion, serving, found, ledgerState_version loaded]
    rw [same]
    dsimp only
    unfold answered
    cases result : pending.request.answer trees cached with
    | error e => simp
    | ok update => simp [Response.labelled, (answer_ok result).2]

/-- The bytes of a response are the update of the state that served it. -/
def Served (response : Response trees) : Prop :=
  collapsedUpdate trees response.request.tree response.served.ledger response.request.startIndex
    response.request.endIndex = .ok response.update.update

theorem served_of_answered {blocks : CommittedBlocks trees}
    (member : response ∈ answered blocks pending cached) :
    pending.request.answer trees cached = .ok response.update ∧ Served response ∧
      response.request = pending.request ∧ response.since = pending.since ∧
      response.blocks = blocks ∧ response.served = cached := by
  unfold answered at member
  cases result : pending.request.answer trees cached with
  | error e =>
    simp [result] at member
  | ok update =>
    rw [result] at member
    rw [mem_singleton.mp member]
    exact ⟨rfl, (answer_ok result).1, rfl, rfl, rfl, rfl⟩

theorem mem_responses_of_move (move : Move s input t) (member : response ∈ t.responses) :
    response ∈ s.responses ∨ ∃ pending cached, s.serving input = some (pending, cached) ∧
      response ∈ answered s.blocks pending cached := by
  rw [responses_of_move move] at member
  rcases mem_append.mp member with old | new
  · exact .inl old
  · cases serving : s.serving input with
    | none =>
      simp [serving] at new
    | some answer =>
      rw [serving] at new
      exact .inr ⟨answer.1, answer.2, rfl, new⟩

theorem updates_labelled_iff (crates : LedgerCrates) (trees : TreeCrates crates)
    (blocks : CommittedBlocks trees) (tree : MerkleTree) (inputs : List CacheInput) :
    let s := run CacheState.step (.start blocks) inputs
    (∀ response ∈ s.responses, Served response) ∧
    ((∀ response ∈ s.responses, response.request.tree = tree →
        response.update.protocolVersion.ledgerVersion = response.served.ledger.version) ↔
      Guarded CacheState.step (SameVersion tree) (.start blocks) inputs) := by
  intro s
  constructor
  · have keep : ∀ (u : CacheState trees) input, (∀ response ∈ u.responses, Served response) →
        ∀ response ∈ (u.step input).responses, Served response := by
      intro u input served response member
      rcases mem_responses_of_move (step_move u input) member with old | ⟨_, _, _, new⟩
      · exact served response old
      · exact (served_of_answered new).2.1
    exact run_keeps keep _ inputs nofun
  · have all := run_log_iff (mislabelled tree)
      (fun s input traced => Traced.move (step_move s input) traced)
      (fun s input traced => (mislabelled_of_move tree (step_move s input) traced).1)
      (fun s input traced => (mislabelled_of_move tree (step_move s input) traced).2)
      (.start blocks) inputs (.start blocks)
    rw [← all]
    simp [mislabelled, CacheState.start, Response.labelled, s]

/-- A state is the list of its dust generations; zswap has as many leaves. -/
def leafCrates : LedgerCrates :=
  { RestartEquivalence.sampleCrates with dustGenerationsFirstFree := List.length }

def leafList : MerkleTree → ByteVec → List UInt8
  | .zswap, state => state.map fun _ => 0
  | .dustGenerations, state => state
  | .dustCommitments, _ => []

def leafTrees : TreeCrates leafCrates where
  Leaf := UInt8
  decidableLeaf := inferInstance
  leaves tree state := leafList tree state
  Update _ := ByteVec
  collapse tree state first last :=
    if first ≤ last then
      some (((leafList tree state).drop first.toNat).take (last.toNat + 1 - first.toNat))
    else none
  taggedSerialize {version} update := some ((match version with | .V8 => 8 | .V9 => 9) :: update)

/-- The last block of ledger 8 and the first one of ledger 9. -/
def upgradeBlocks : StoredBlock × StoredBlock :=
  (⟨.first .V1_0, [5, 6]⟩, ⟨.first .V2_0, [5, 6, 7]⟩)

/-- A transaction of ledger 8 gets an update of ledger 9. A query behind the upgrade
gets an update of ledger 8. -/
theorem upgrade_mislabels :
    ((run CacheState.step (.start (.empty : CommittedBlocks leafTrees))
      [.commit upgradeBlocks.1, .commit upgradeBlocks.2,
        .request (.transaction upgradeBlocks.1.protocolVersion) .zswap 0 1, .read 0,
        .write 0 none]).responses.map fun response =>
          (response.update.protocolVersion.ledgerVersion, response.served.ledger.version)) =
      [(.V8, .V9)] ∧
    ((run CacheState.step (.start (.empty : CommittedBlocks leafTrees))
      [.commit upgradeBlocks.1, .request .query .zswap 0 1, .read 0, .write 0 none,
        .commit upgradeBlocks.2, .request .query .zswap 0 1, .read 1]).responses.map
          fun response =>
            (response.update.protocolVersion.ledgerVersion, response.served.ledger.version)) =
      [(.V8, .V8), (.V9, .V8)] :=
  ⟨by decide, by decide⟩

/-! ## Newer blocks -/

/-- The leaves in a range of indices, the last one included. -/
def rangeOf (trees : TreeCrates crates) (request : UpdateRequest) (ledger : LedgerState crates) :
    List trees.Leaf :=
  ((trees.leaves request.tree ledger.state).drop request.startIndex.toNat).take
    (request.endIndex.toNat + 1 - request.startIndex.toNat)

def updateOf (trees : TreeCrates crates) (request : UpdateRequest) (ledger : LedgerState crates) :
    Except LedgerStateCacheError ByteVec :=
  collapsedUpdate trees request.tree ledger request.startIndex request.endIndex

/-- The ledger version and the leaves of the range make the update. -/
structure Lawful (trees : TreeCrates crates) : Prop where
  counted : ∀ tree (ledger : LedgerState crates),
    (trees.leaves tree ledger.state).length = firstFree tree ledger
  ranged : ∀ request (older newer : LedgerState crates), older.version = newer.version →
    request.endIndex.toNat < firstFree request.tree older →
    request.endIndex.toNat < firstFree request.tree newer →
    rangeOf trees request older = rangeOf trees request newer →
    updateOf trees request older = updateOf trees request newer

/-- Different ledger versions or leaves make different updates. -/
def Injective (trees : TreeCrates crates) : Prop :=
  ∀ request (older newer : LedgerState crates) bytes,
    request.endIndex.toNat < firstFree request.tree older →
    updateOf trees request older = .ok bytes → updateOf trees request newer = .ok bytes →
    newer.version = older.version ∧ request.endIndex.toNat < firstFree request.tree newer ∧
      rangeOf trees request newer = rangeOf trees request older

/-- The update is that of a state which is at least as new as the newest one when the
request came in. -/
def Current (response : Response trees) : Prop :=
  ∃ number block ledger, response.since ≤ number + 1 ∧
    response.blocks.rows[number]? = some block ∧ block.ledgerState crates = .ok ledger ∧
    updateOf trees response.request ledger = .ok response.update.update

/-- The state in the cache is new enough, or there is a newer one of its ledger version
with the same leaves in the range. For a tree that only grows they are always the
same. -/
def NewEnough (s : CacheState trees) (pending : PendingRequest) (cached : CachedState crates) :
    Prop :=
  pending.since ≤ cached.block + 1 ∨ ∃ number block ledger, pending.since ≤ number + 1 ∧
    s.blocks.rows[number]? = some block ∧ block.ledgerState crates = .ok ledger ∧
    ledger.version = cached.ledger.version ∧
    (pending.request.tree = .dustGenerations →
      pending.request.endIndex.toNat < firstFree pending.request.tree ledger ∧
        rangeOf trees pending.request ledger = rangeOf trees pending.request cached.ledger)

/-- Under the read lock a request is answered from a state that is new enough. -/
def Unchanged (s : CacheState trees) : CacheInput → Prop
  | .read index => ∀ pending cached, s.serving (.read index) = some (pending, cached) →
    (∃ update, pending.request.answer trees cached = .ok update) → NewEnough s pending cached
  | _ => True

theorem slice_of_grown {α : Type} {older newer : List α} (grown : older <+: newer) {first last : Nat}
    (inside : last < older.length) :
    (older.drop first).take (last + 1 - first) = (newer.drop first).take (last + 1 - first) := by
  obtain ⟨new, rfl⟩ := grown
  by_cases bounded : first ≤ last
  · rw [drop_append_of_le_length (by omega), take_append_of_le_length (by rw [length_drop]; omega)]
  · rw [show last + 1 - first = 0 by omega, take_zero, take_zero]

theorem leaves_grow {older newer : StoredBlock} (grown : Extends trees older newer)
    (first : older.ledgerState crates = .ok before)
    (second : newer.ledgerState crates = .ok after) {tree : MerkleTree}
    (append : tree ≠ .dustGenerations) :
    trees.leaves tree before.state <+: trees.leaves tree after.state := by
  unfold Extends at grown
  rw [first, second] at grown
  cases tree with
  | zswap => exact grown.1
  | dustCommitments => exact grown.2
  | dustGenerations => exact absurd rfl append

/-- A newer state of the same ledger version has the update of the state in the
cache. -/
theorem updateOf_newer (lawful : Lawful trees) {number later : Nat} {older newer : StoredBlock}
    (found : s.blocks.rows[number]? = some older) (loaded : older.ledgerState crates = .ok before)
    (found_later : s.blocks.rows[later]? = some newer)
    (loaded_later : newer.ledgerState crates = .ok after) (less : number < later)
    (version : after.version = before.version)
    (inside : request.endIndex.toNat < firstFree request.tree before)
    (unchanged : request.tree = .dustGenerations →
      request.endIndex.toNat < firstFree request.tree after ∧
        rangeOf trees request after = rangeOf trees request before) :
    updateOf trees request after = updateOf trees request before := by
  by_cases dust : request.tree = .dustGenerations
  · obtain ⟨inside_later, same⟩ := unchanged dust
    exact lawful.ranged request after before version inside_later inside same
  · obtain ⟨bound, rfl⟩ := List.getElem?_eq_some_iff.mp found
    obtain ⟨bound_later, rfl⟩ := List.getElem?_eq_some_iff.mp found_later
    have extended := pairwise_iff_getElem.mp s.blocks.appendOnly number later bound bound_later less
    have grown := leaves_grow extended loaded loaded_later dust
    rw [← lawful.counted] at inside
    have inside_later : request.endIndex.toNat < firstFree request.tree after := by
      rw [← lawful.counted]
      exact inside.trans_le grown.length_le
    refine lawful.ranged request after before version inside_later ?_
      (slice_of_grown grown inside).symm
    rw [← lawful.counted]
    exact inside

theorem current_of_answered (lawful : Lawful trees) (move : Move s input t) (traced : Traced s)
    (unchanged : Unchanged s input) (serving : s.serving input = some (pending, cached))
    (member : response ∈ answered s.blocks pending cached) : Current response := by
  obtain ⟨⟨block, found, loaded⟩, source⟩ := traced.served move serving
  obtain ⟨success, served, request, since, blocks, state⟩ := served_of_answered member
  rw [Served, request, state] at served
  by_cases recent : pending.since ≤ cached.block + 1
  · exact ⟨cached.block, block, cached.ledger, since ▸ recent, blocks ▸ found, loaded,
      request ▸ served⟩
  · obtain ⟨⟨index, rfl⟩, inside⟩ := source.resolve_left recent
    obtain ⟨number, newer, ledger, later, found_later, loaded_later, version, same⟩ :=
      (unchanged pending cached serving ⟨_, success⟩).resolve_left recent
    refine ⟨number, newer, ledger, since ▸ later, blocks ▸ found_later, loaded_later, ?_⟩
    rw [request, updateOf_newer lawful found loaded found_later loaded_later (by omega) version
      inside same]
    exact served

theorem not_current_of_answered (injective : Injective trees) (traced : Traced s)
    (serving : s.serving (.read index) = some (pending, cached))
    (old : ¬NewEnough s pending cached) (member : response ∈ answered s.blocks pending cached) :
    ¬Current response := by
  rintro ⟨number, block, ledger, recent, found, loaded, update⟩
  obtain ⟨_, served, request, since, blocks, state⟩ := served_of_answered member
  rw [Served, request, state] at served
  rw [request] at update
  rw [blocks] at found
  rw [since] at recent
  obtain ⟨_, inside⟩ := (traced.served (step_move s (.read index)) serving).2.resolve_left
    fun new => old (.inl new)
  obtain ⟨version, inside, same⟩ :=
    injective pending.request cached.ledger ledger _ inside served update
  exact old (.inr ⟨number, block, ledger, recent, found, loaded, version, fun _ =>
    ⟨inside, same⟩⟩)

theorem updates_current_unless_changed (crates : LedgerCrates) (trees : TreeCrates crates)
    (lawful : Lawful trees) (blocks : CommittedBlocks trees) (inputs : List CacheInput) :
    let s := run CacheState.step (.start blocks) inputs
    (Guarded CacheState.step Unchanged (.start blocks) inputs →
      ∀ response ∈ s.responses, Current response) ∧
    (Injective trees → ∀ index, ¬Unchanged s (.read index) →
      ∃ response ∈ (s.step (.read index)).responses, ¬Current response) := by
  intro s
  constructor
  · intro unchanged
    have keep : ∀ (u : CacheState trees) input,
        Traced u ∧ (∀ response ∈ u.responses, Current response) → Unchanged u input →
        Traced (u.step input) ∧ ∀ response ∈ (u.step input).responses, Current response := by
      intro u input ⟨traced, current⟩ new
      refine ⟨traced.move (step_move u input), fun response member => ?_⟩
      rcases mem_responses_of_move (step_move u input) member with old | ⟨_, _, serving, answer⟩
      · exact current response old
      · exact current_of_answered lawful (step_move u input) traced new serving answer
    exact (run_invariant keep _ inputs ⟨.start blocks, nofun⟩
      unchanged).2
  · intro injective index changed
    simp only [Unchanged, not_forall] at changed
    obtain ⟨pending, cached, serving, ⟨update, success⟩, old⟩ := changed
    have member : ⟨pending.request, pending.since, s.blocks, cached, update⟩ ∈
        answered s.blocks pending cached := by
      rw [answered, success]
      exact List.mem_singleton_self _
    have traced : Traced s :=
      run_keeps (fun s input traced => Traced.move (step_move s input) traced) _ inputs (.start blocks)
    refine ⟨_, ?_, not_current_of_answered injective traced serving old member⟩
    rw [responses_of_move (step_move s (.read index)), serving]
    exact List.mem_append_right _ member

theorem updateOf_leafTrees (request : UpdateRequest) (ledger : LedgerState leafCrates) :
    updateOf leafTrees request ledger = if request.startIndex ≤ request.endIndex then
        .ok ((match ledger.version with | .V8 => 8 | .V9 => 9) :: rangeOf leafTrees request ledger)
      else .error .invalidUpdate := by
  obtain ⟨tree, first, last, version⟩ := request
  unfold updateOf
  by_cases ordered : first ≤ last
  · cases tree <;> simp [collapsedUpdate, makeZswapCollapsedUpdate,
      dustGenerationsCollapsedUpdate, dustCommitmentsCollapsedUpdate, serializedUpdate, leafTrees,
      ordered, rangeOf] <;> rfl
  · cases tree <;> simp [collapsedUpdate, makeZswapCollapsedUpdate,
      dustGenerationsCollapsedUpdate, dustCommitmentsCollapsedUpdate, serializedUpdate, leafTrees,
      ordered] <;> rfl

theorem leafTrees_lawful : Lawful leafTrees where
  counted tree ledger := by
    cases tree
    · exact length_map _
    · rfl
    · rfl
  ranged request older newer version _ _ same := by
    rw [updateOf_leafTrees, updateOf_leafTrees, version, same]

def zswapInputs : List CacheInput :=
  [.commit upgradeBlocks.1, .request .query .zswap 0 1, .read 0, .write 0 none,
    .request .query .zswap 1 1, .read 1]

theorem updates_current_sample :
    let s := run CacheState.step (.start (.empty : CommittedBlocks leafTrees)) zswapInputs
    s.responses.length = 2 ∧ ∀ response ∈ s.responses, Current response := by
  have unchanged : Guarded CacheState.step Unchanged (.start (.empty : CommittedBlocks leafTrees))
      zswapInputs := by
    refine ⟨trivial, trivial, nofun, trivial, trivial,
      fun pending cached serving _ => Or.inl ?_, trivial⟩
    cases serving
    decide
  exact ⟨by decide, (updates_current_unless_changed leafCrates leafTrees leafTrees_lawful .empty
    zswapInputs).1 unchanged⟩

/-- The first dust generation changes between two blocks of the same length. -/
def changeInputs : List CacheInput :=
  [.commit ⟨.first .V2_0, [5, 6]⟩, .request .query .dustGenerations 0 1, .read 0, .write 0 none,
    .commit ⟨.first .V2_0, [7, 6]⟩, .request .query .dustGenerations 0 1, .read 1]

/-- The second request comes in behind the second block and gets the leaf of the first. -/
theorem changed_generation_missed :
    let s := run CacheState.step (.start (.empty : CommittedBlocks leafTrees)) changeInputs
    s.responses.map (fun response => (response.since, response.update.update)) =
      [(1, [9, 5, 6]), (2, [9, 5, 6])] ∧
    ∃ response ∈ s.responses, ¬Current response := by
  intro s
  refine ⟨by decide, s.responses.get ⟨1, by decide⟩, List.get_mem _ _, ?_⟩
  rintro ⟨number, block, ledger, recent, found, loaded, update⟩
  match number with
  | 0 => exact absurd recent (by decide)
  | 1 =>
    cases found
    cases loaded
    exact absurd update (by decide)
  | number + 2 => cases found

end MidnightIndexer.Guarantees.CollapsedUpdates
