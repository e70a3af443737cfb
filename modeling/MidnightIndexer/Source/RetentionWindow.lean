import Mathlib.Data.List.DropRight
import MidnightIndexer.Source.LedgerRetention

/-!
# The retention window and the root counts over whole runs

The count of a root is what the ledger DB stores plus the changes the process has
not flushed. It covers the occurrences of the root in the window at every step:
a persist counts before the window grows, an eviction takes one from both, and a
restart repairs the stored counts before it seeds the window from them. Count
changes still in memory only ever lower a count, so a root of the window has a
positive stored count. None of this depends on what gc removes.
-/

namespace MidnightIndexer.Source

open Lib List

variable {core : LedgerCore}

/-- The row stores the state's key and the protocol version of its block. -/
def RowOf (row : BlockRow core.Key) (state : core.State) : Prop :=
  row.ledgerStateKey = core.key state ∧
    ∃ version : ProtocolVersion, row.protocolVersion = version.intoI64 ∧
      core.version state = version.ledgerVersion

def LedgerCore.windowKey (core : LedgerCore) (state : core.State) : WindowKey core :=
  ⟨core.key state, core.version state⟩

variable {ledger : LedgerDb core.Hash} {state : core.State} {row : BlockRow core.Key}
  {backend : Sql.Backend} {retention : NonZeroUsize} {blocks : List (BlockRow core.Key)}
  {keys : List (HashedKey core)}

/-- A state's key loads that state or nothing. -/
theorem loadLedgerState_windowKey {loaded : core.State}
    (success : loadLedgerState ledger (core.windowKey state) = some loaded) : loaded = state := by
  simp only [loadLedgerState, LedgerCore.windowKey, core.key_root, core.load_key] at success
  split at success
  next => exact (Option.some.inj success).symm
  next => cases success

theorem RowOf.hashKey (stored : RowOf row state) {entry : ProtocolVersion × core.Key}
    (decoded : decodeRow row = .ok entry) {hashed : HashedKey core}
    (success : hashKey entry = .ok hashed) : hashed = ⟨core.windowKey state, core.root state⟩ := by
  obtain ⟨key, version, protocol, same⟩ := stored
  rw [decodeRow, protocol, ProtocolVersion.tryFromI64_intoI64] at decoded
  cases decoded
  rw [Source.hashKey, key, ← same, core.key_root] at success
  cases success
  rfl

theorem RowOf.unique {other : core.State} (stored : RowOf row state) (same : RowOf row other) :
    other = state := by
  obtain ⟨key, version, protocol, ledger⟩ := stored
  obtain ⟨key', version', protocol', ledger'⟩ := same
  have decoded := version.tryFromI64_intoI64
  rw [← protocol, protocol', version'.tryFromI64_intoI64] at decoded
  cases decoded
  have loaded := core.load_key state
  rw [← key, key', ledger, ← ledger', core.load_key] at loaded
  exact Option.some.inj loaded

theorem RowOf.decodes (stored : RowOf row state) : ∃ entry, decodeRow row = .ok entry ∧
      Source.hashKey entry = .ok ⟨core.windowKey state, core.root state⟩ := by
  obtain ⟨key, version, protocol, same⟩ := stored
  refine ⟨(version, row.ledgerStateKey), ?_, ?_⟩
  · rw [decodeRow, protocol, ProtocolVersion.tryFromI64_intoI64]
  · rw [Source.hashKey, key, ← same, core.key_root]
    rfl

/-- The newest keys of rows in increasing order are those of the last states. -/
theorem newestHashedKeys_eq (accepts : Sql.Accepts backend retention) {states : List core.State}
    (stored : Forall₂ RowOf blocks states)
    (increasing : blocks.Pairwise fun low high => low.height < high.height)
    (few : blocks.length ≤ 2 ^ 63) : newestHashedKeys backend retention blocks =
      .ok ((states.rtake retention.val).map fun state => ⟨core.windowKey state, core.root state⟩) := by
  have newest : Forall₂ RowOf (blocks.reverse.take retention.val)
      (states.reverse.take retention.val) :=
    forall₂_take _ (rel_reverse stored)
  obtain ⟨entries, decoded, related⟩ :=
    mapM_related (fun _ _ rowed => RowOf.decodes rowed) newest
  have each : ∀ entry (state : core.State),
      Source.hashKey entry = .ok ⟨core.windowKey state, core.root state⟩ →
        ∃ key, Source.hashKey entry = .ok key ∧ key = ⟨core.windowKey state, core.root state⟩ :=
    fun _ _ found => ⟨_, found, rfl⟩
  obtain ⟨keys, hashed, same⟩ := mapM_related each (rel_reverse related)
  rw [← rtake_eq_reverse_take_reverse, ← forall₂_map_right_iff, forall₂_eq_eq_eq]
    at same
  have limited : Sql.limit backend (Sql.asI64 retention.val) blocks.reverse =
      .ok (blocks.reverse.take retention.val) :=
    Sql.limit_newest accepts (by rwa [length_reverse])
  have read : getNewestLedgerStateKeys backend retention blocks = .ok entries.reverse := by
    rw [getNewestLedgerStateKeys, Sql.orderByDesc_of_increasing increasing, limited]
    change (mapM decodeRow _ >>= fun keys => pure keys.reverse) = _
    rw [decoded]
    rfl
  rw [newestHashedKeys, read, ← same]
  exact hashed

/-- The root hashes of the window's keys, with multiplicity. -/
def windowHashes (window : List (WindowKey core)) : List core.Hash :=
  window.filterMap fun entry => core.arenaRootHash entry.key entry.version

/-- The count of a root: stored plus changes in memory. -/
def rootCount (ledger : LedgerDb core.Hash) (deltas : List (RootDelta core.Hash))
    (hash : core.Hash) : Int :=
  ledger.roots.getRootCount hash + totalDelta deltas hash

/-- A persist that is not in the window yet. -/
def pendingCount (r : Running core) (hash : core.Hash) : Nat :=
  match r.phase with
  | .persisted _ | .saved _ => if core.root r.state = hash then 1 else 0
  | .next | .rolling => 0

structure RunningCounted (ledger : LedgerDb core.Hash) (r : Running core) : Prop where
  persisted : ∀ entry ∈ r.window, ∃ state, entry = core.windowKey state
  lowering : ∀ delta ∈ r.deltas, delta.2 ≤ 0
  rowed : ∀ row, r.phase = .persisted row ∨ r.phase = .saved row → RowOf row r.state
  counted : ∀ hash, ((windowHashes r.window).count hash + pendingCount r hash : Nat) ≤
    rootCount ledger r.deltas hash

structure SeedingCounted (ledger : LedgerDb core.Hash) (keys : List (HashedKey core)) :
    Prop where
  persisted : ∀ entry ∈ keys, ∃ state, entry = ⟨core.windowKey state, core.root state⟩
  counted : ∀ hash, 0 < ledger.roots.getRootCount hash →
    (keys.map HashedKey.hash).count hash ≤ ledger.roots.getRootCount hash

structure WindowCounted (world : ChainWorld core) : Prop where
  rows : ∀ row ∈ world.blocks, ∃ state, RowOf row state
  seeding : ∀ retention keys, world.process = some (.seeding retention keys) →
    SeedingCounted world.ledger keys
  running : ∀ r, world.process = some (.running r) → RunningCounted world.ledger r

theorem windowCounted_empty : WindowCounted (ChainWorld.empty : ChainWorld core) where
  rows := by simp [ChainWorld.empty]
  seeding := nofun
  running := nofun

section

variable {ledger after : LedgerDb core.Hash} {deltas : List (RootDelta core.Hash)}

theorem totalDelta_nonpos (lowering : ∀ delta ∈ deltas, delta.2 ≤ 0) (hash : core.Hash) :
    totalDelta deltas hash ≤ 0 := by
  induction deltas with
  | nil => simp [totalDelta]
  | cons delta rest ih =>
    have tail := ih fun other member => lowering other (by simp [member])
    have head := lowering delta (by simp)
    rw [← singleton_append, totalDelta_append, totalDelta_singleton]
    split <;> omega

theorem rootCount_flushed {nodes : List core.Hash}
    (flushed : flushAllChanges ledger deltas nodes = some after) (hash : core.Hash) :
    rootCount after [] hash = rootCount ledger deltas hash := by
  rw [rootCount, (flushAllChanges_success flushed).2 hash]
  simp [rootCount, totalDelta]

theorem rootCount_append (delta : RootDelta core.Hash) (hash : core.Hash) :
    rootCount ledger (deltas ++ [delta]) hash =
      rootCount ledger deltas hash + if delta.1 = hash then delta.2 else 0 := by
  rw [rootCount, totalDelta_append, totalDelta_singleton, rootCount, Int.add_assoc]

/-- Changes in memory only lower counts. -/
theorem stored_of_rootCount (lowering : ∀ delta ∈ deltas, delta.2 ≤ 0) {hash : core.Hash}
    (positive : 0 < rootCount ledger deltas hash) : 0 < ledger.roots.getRootCount hash := by
  have lowered := totalDelta_nonpos lowering hash
  rw [rootCount] at positive
  omega

theorem stored_of_flushed (flushed : flushAllChanges ledger deltas [] = some after)
    (lowering : ∀ delta ∈ deltas, delta.2 ≤ 0) {hash : core.Hash}
    (positive : 0 < after.roots.getRootCount hash) : 0 < ledger.roots.getRootCount hash := by
  refine stored_of_rootCount lowering ?_
  have count := (flushAllChanges_success flushed).2 hash
  rw [rootCount]
  omega

end

section

variable {window : List (WindowKey core)}

theorem windowHashes_append (window : List (WindowKey core)) (state : core.State) (hash : core.Hash) :
    (windowHashes (window ++ [core.windowKey state])).count hash =
      (windowHashes window).count hash + if core.root state = hash then 1 else 0 := by
  simp [windowHashes, LedgerCore.windowKey, core.key_root, count_singleton]

theorem windowHashes_cons (state : core.State) (hash : core.Hash) :
    (windowHashes (core.windowKey state :: window)).count hash =
      (windowHashes window).count hash + if core.root state = hash then 1 else 0 := by
  simp [windowHashes, LedgerCore.windowKey, core.key_root, count_cons]

theorem root_mem_windowHashes (member : core.windowKey state ∈ window) :
    core.root state ∈ windowHashes window :=
  mem_filterMap.mpr ⟨_, member, core.key_root state⟩

theorem windowHashes_seedWindow (seeding : SeedingCounted ledger keys) :
    windowHashes (seedWindow keys ledger) =
      (keys.filter fun entry => entry.hash ∈ ledger.roots.hashes).map HashedKey.hash := by
  rw [windowHashes, seedWindow, filterMap_map, ← filterMap_eq_map]
  refine filterMap_congr fun entry member => ?_
  obtain ⟨state, rfl⟩ := seeding.persisted entry (mem_of_mem_filter member)
  exact core.key_root state

end

namespace RunningCounted

variable {ledger after : LedgerDb core.Hash} {r : Running core} (counts : RunningCounted ledger r)

include counts

theorem rootCount_nonneg (hash : core.Hash) : 0 ≤ rootCount ledger r.deltas hash :=
  (Int.natCast_nonneg _).trans (counts.counted hash)

theorem stored (member : core.windowKey state ∈ r.window) :
    0 < ledger.roots.getRootCount (core.root state) := by
  have occurs := count_pos_iff.mpr (root_mem_windowHashes member)
  have counted := counts.counted (core.root state)
  exact stored_of_rootCount counts.lowering (by omega)

theorem persist {next : core.State} {height : Nat} {version : ProtocolVersion}
    (phase : r.phase = .next) (same : core.version next = version.ledgerVersion)
    (flushed : flushAllChanges ledger (r.deltas ++ [(core.root next, 1)]) (core.dag next) =
      some after) : RunningCounted after { r with
      deltas := []
      state := next
      phase := .persisted ⟨height, version.intoI64, core.key next⟩ } := by
  refine ⟨counts.persisted, by simp, ?_, fun hash => ?_⟩
  · rintro row (now | later)
    · cases now
      exact ⟨rfl, version, rfl, same⟩
    · cases later
  · have counted := counts.counted hash
    rw [rootCount_flushed flushed, rootCount_append]
    simp only [pendingCount, phase] at counted ⊢
    split <;> omega

theorem saveBlock (phase : r.phase = .persisted row) :
    RunningCounted ledger { r with phase := .saved row } := by
  refine ⟨counts.persisted, counts.lowering, ?_, fun hash => ?_⟩
  · rintro row' (now | later)
    · cases now
    · cases later
      exact counts.rowed row (.inl phase)
  · have counted := counts.counted hash
    simpa only [pendingCount, phase] using counted

/-- The pending occurrence moves into the window. -/
theorem pushBack (phase : r.phase = .saved row) : RunningCounted ledger { r with
      window := r.window ++ [⟨row.ledgerStateKey, core.version r.state⟩]
      phase := .rolling } := by
  rw [(counts.rowed row (.inr phase)).1]
  refine ⟨?_, counts.lowering, by simp, fun hash => ?_⟩
  · intro entry member
    rcases mem_append.mp member with old | new
    · exact counts.persisted entry old
    · exact ⟨r.state, mem_singleton.mp new⟩
  · have counted := counts.counted hash
    rw [← LedgerCore.windowKey, windowHashes_append]
    simpa only [pendingCount, phase, Nat.add_zero] using counted

theorem evict {oldest : WindowKey core} {rest : List (WindowKey core)} {root : core.Hash}
    (phase : r.phase = .rolling) (window : r.window = oldest :: rest)
    (hashed : core.arenaRootHash oldest.key oldest.version = some root) :
    RunningCounted ledger { r with
      window := rest
      deltas := r.deltas ++ [(root, -1)] } := by
  obtain ⟨state, rfl⟩ := counts.persisted oldest (by simp [window])
  cases (core.key_root state).symm.trans hashed
  refine ⟨?_, ?_, by simp [phase], fun hash => ?_⟩
  · intro entry member
    exact counts.persisted entry (by simp [window, member])
  · intro delta member
    rcases mem_append.mp member with old | new
    · exact counts.lowering delta old
    · rw [mem_singleton.mp new]
      exact Int.neg_nonpos_of_nonneg Int.one_nonneg
  · have counted := counts.counted hash
    rw [window, windowHashes_cons] at counted
    rw [rootCount_append]
    simp only [pendingCount, phase] at counted ⊢
    by_cases hit : core.root state = hash
    · rw [if_pos hit] at counted ⊢
      omega
    · rw [if_neg hit] at counted ⊢
      omega

theorem flush (flushed : flushAllChanges ledger r.deltas [] = some after) :
    RunningCounted after { r with deltas := [] } := by
  refine ⟨counts.persisted, by simp, counts.rowed, fun hash => ?_⟩
  rw [rootCount_flushed flushed]
  exact counts.counted hash

theorem rolled (phase : r.phase = .rolling) (roots : after.roots = ledger.roots) :
    RunningCounted after { r with phase := .next } := by
  refine ⟨counts.persisted, counts.lowering, by simp, fun hash => ?_⟩
  have counted := counts.counted hash
  rw [rootCount, roots]
  simpa only [pendingCount, phase, rootCount] using counted

end RunningCounted

namespace WindowCounted

variable {world after : ChainWorld core} {r : Running core}

theorem start {repair : RootCountRepair} (counts : WindowCounted world)
    (newest : newestHashedKeys backend retention world.blocks = .ok keys)
    (repaired : raiseRootCounts core.childrenOf world.ledger
      (windowRootCounts (keys.map HashedKey.hash)) = some (ledger, repair)) :
    WindowCounted { world with
      ledger := ledger, process := some (.seeding retention keys) } := by
  refine ⟨counts.rows, ?_, nofun⟩
  intro retention' keys' process
  cases process
  refine ⟨fun hashed member => ?_, fun hash positive => ?_⟩
  · obtain ⟨row, stored, entry, decoded, success⟩ := newestHashedKeys_mem newest member
    obtain ⟨state, rowOf⟩ := counts.rows row stored
    exact ⟨state, rowOf.hashKey decoded success⟩
  · exact (((raiseRootCounts_raises repaired).2 hash).2 positive).1

theorem seed (counts : WindowCounted world)
    (process : world.process = some (.seeding retention keys)) : WindowCounted { world with
      process := some (.running ⟨retention, seedWindow keys world.ledger, [], state, .next⟩) } := by
  have seeding := counts.seeding retention keys process
  refine ⟨counts.rows, nofun, ?_⟩
  intro r running
  cases running
  refine ⟨?_, by simp, by simp, fun hash => ?_⟩
  · intro entry member
    obtain ⟨hashed, chosen, rfl⟩ := mem_map.mp member
    obtain ⟨state, rfl⟩ := seeding.persisted hashed (mem_of_mem_filter chosen)
    exact ⟨state, rfl⟩
  · simp only [windowHashes_seedWindow seeding, pendingCount, rootCount, totalDelta,
      filter_nil, map_nil, sum_nil, Nat.add_zero, Int.add_zero, Int.ofNat_le]
    rcases Nat.eq_zero_or_pos (world.ledger.roots.getRootCount hash) with zero | positive
    · have absent : hash ∉ world.ledger.roots.hashes := by
        rw [RootTable.mem_hashes_iff]
        omega
      rw [count_eq_zero_of_not_mem]
      · exact Nat.zero_le _
      · intro member
        obtain ⟨entry, chosen, rfl⟩ := mem_map.mp member
        exact absent (by simpa using (mem_filter.mp chosen).2)
    · exact ((filter_sublist.map HashedKey.hash).count_le hash).trans
        (seeding.counted hash positive)

theorem ofRunning (rows : ∀ row ∈ blocks, ∃ state, RowOf row state)
    (running : RunningCounted ledger r) : WindowCounted ⟨blocks, ledger, some (.running r)⟩ := by
  refine ⟨rows, nofun, fun r' process => ?_⟩
  cases process
  exact running

theorem stop (counts : WindowCounted world) : WindowCounted { world with process := none } :=
  ⟨counts.rows, nofun, nofun⟩

variable {input : ChainInput core}

theorem loop (counts : WindowCounted world) (process : world.process = some (.running r))
    (move : LoopMove world.blocks world.ledger r input after) : WindowCounted after := by
  have running := counts.running r process
  cases move with
  | stay => exact ofRunning counts.rows running
  | stop => exact counts.stop
  | persist phase same flushed => exact ofRunning counts.rows (running.persist phase same flushed)
  | @saveBlock row phase _ =>
    refine ofRunning (fun row' member => ?_) (running.saveBlock phase)
    rcases mem_append.mp member with old | new
    · exact counts.rows row' old
    · rw [mem_singleton.mp new]
      exact ⟨r.state, running.rowed row (.inl phase)⟩
  | pushBack phase => exact ofRunning counts.rows (running.pushBack phase)
  | evict phase window _ hashed =>
    exact ofRunning counts.rows (running.evict phase window hashed)
  | gc phase | skipGc phase => exact ofRunning counts.rows (running.rolled phase rfl)
  | flush flushed => exact ofRunning counts.rows (running.flush flushed)

theorem step (counts : WindowCounted world) (move : ChainMove backend world input after) :
    WindowCounted after := by
  cases move with
  | stay => exact counts
  | stop => exact counts.stop
  | start _ newest repaired => exact counts.start newest repaired
  | seed seeding _ => exact counts.seed seeding
  | loop running move => exact counts.loop running move

end WindowCounted

end MidnightIndexer.Source
