import Mathlib.Data.List.MinMax
import MidnightIndexer.Source.RetentionWindow

/-!
# A restart resumes with the highest block's ledger state

The resumed state is loaded from the last key that survives the filter by
persisted roots. The root of the highest block is never filtered out: from its
persist on its count stays positive, because it is the newest key of every window
and a retention is at least one, and a repair only raises counts. So the last
surviving key is the highest block's. Nothing is assumed of gc here; where it has
taken the root node, the load fails and with it the run.
-/

namespace MidnightIndexer.Guarantees.Resume

open Lib List Source

variable {core : LedgerCore}

structure IsHighest (blocks : List (BlockRow core.Key)) (row : BlockRow core.Key) : Prop where
  member : row ∈ blocks
  above : ∀ other ∈ blocks, other.height ≤ row.height

/-- The ledger state that was persisted for the highest stored block. -/
def TopState (blocks : List (BlockRow core.Key)) (state : core.State) : Prop :=
  ∃ row, IsHighest blocks row ∧ RowOf row state

/-- A block is indexed on top of the stored ones. -/
def HeightsGrow (world : ChainWorld core) : ChainInput core → Prop
  | .persist _ height _ => ∀ row ∈ world.blocks, row.height < height
  | _ => True

instance (world : ChainWorld core) :
    (input : ChainInput core) → Decidable (HeightsGrow world input)
  | .persist _ height _ =>
    inferInstanceAs (Decidable (∀ row ∈ world.blocks, row.height < height))
  | .gc _ | .start _ | .seed | .saveBlock | .pushBack | .evict | .flush | .crash => isTrue trivial

variable {blocks : List (BlockRow core.Key)} {row : BlockRow core.Key} {state : core.State}

theorem IsHighest.unique {other : BlockRow core.Key}
    (heights : (blocks.map BlockRow.height).Nodup) (first : IsHighest blocks row)
    (second : IsHighest blocks other) : other = row :=
  inj_on_of_nodup_map heights second.member first.member
    (Nat.le_antisymm (first.above other second.member) (second.above row first.member))

theorem exists_isHighest (nonempty : blocks ≠ []) : ∃ row, IsHighest blocks row := by
  cases found : blocks.argmax BlockRow.height with
  | none => exact absurd (argmax_eq_none.mp found) nonempty
  | some row =>
    exact ⟨row, argmax_mem found, fun _ member => le_of_mem_argmax member found⟩

theorem isHighest_append (above : ∀ other ∈ blocks, other.height < row.height) :
    IsHighest (blocks ++ [row]) row := by
  refine ⟨by simp, fun other member => ?_⟩
  rcases mem_append.mp member with old | new
  · exact Nat.le_of_lt (above other old)
  · rw [mem_singleton.mp new]

structure RunningNewest (blocks : List (BlockRow core.Key)) (r : Running core) : Prop where
  newest : (∀ row, r.phase ≠ .saved row) →
    ∀ state, TopState blocks state → r.window.getLast? = some (core.windowKey state)
  above : ∀ row, r.phase = .persisted row → ∀ other ∈ blocks, other.height < row.height
  pending : ∀ row, r.phase = .saved row → IsHighest blocks row

structure NewestKept (backend : Sql.Backend) (world : ChainWorld core) : Prop where
  counts : WindowCounted world
  heights : (world.blocks.map BlockRow.height).Nodup
  stored : ∀ state, TopState world.blocks state →
    0 < world.ledger.roots.getRootCount (core.root state)
  seeding : ∀ retention keys, world.process = some (.seeding retention keys) →
    newestHashedKeys backend retention world.blocks = .ok keys
  running : ∀ r, world.process = some (.running r) → RunningNewest world.blocks r

theorem newestKept_empty (backend : Sql.Backend) :
    NewestKept backend (ChainWorld.empty : ChainWorld core) where
  counts := windowCounted_empty
  heights := nodup_nil
  stored := fun _ top => by
    obtain ⟨_, highest, _⟩ := top
    cases highest.member
  seeding := nofun
  running := nofun

namespace RunningNewest

variable {blocks : List (BlockRow core.Key)} {ledger : LedgerDb core.Hash} {r : Running core}
  (newest : RunningNewest blocks r)

include newest

/-- The highest block's root is counted, in the window or as a pending persist. -/
theorem rootCount_pos (heights : (blocks.map BlockRow.height).Nodup)
    (counts : RunningCounted ledger r) (top : TopState blocks state) :
    0 < rootCount ledger r.deltas (core.root state) := by
  have counted := counts.counted (core.root state)
  by_cases saved : ∃ row, r.phase = .saved row
  · obtain ⟨row, phase⟩ := saved
    obtain ⟨highest, isHighest, stored⟩ := top
    rw [IsHighest.unique heights (newest.pending row phase) isHighest] at stored
    rw [(counts.rowed row (.inr phase)).unique stored] at counted ⊢
    simp only [pendingCount, phase, if_true] at counted
    omega
  · rw [not_exists] at saved
    have member := mem_of_getLast? (newest.newest saved state top)
    have occurs := count_pos_iff.mpr (root_mem_windowHashes member)
    omega

theorem persist {next : core.State} (phase : r.phase = .next)
    (above : ∀ other ∈ blocks, other.height < row.height) :
    RunningNewest blocks { r with deltas := [], state := next, phase := .persisted row } := by
  refine ⟨fun _ => newest.newest (by simp [phase]), fun row' same => ?_, by simp⟩
  cases same
  exact above

theorem saveBlock (phase : r.phase = .persisted row) :
    RunningNewest (blocks ++ [row]) { r with phase := .saved row } := by
  refine ⟨fun unsaved => absurd rfl (unsaved row), by simp, fun row' same => ?_⟩
  cases same
  exact isHighest_append (newest.above row phase)

theorem pushBack (heights : (blocks.map BlockRow.height).Nodup) (counts : RunningCounted ledger r)
    (phase : r.phase = .saved row) : RunningNewest blocks { r with
      window := r.window ++ [⟨row.ledgerStateKey, core.version r.state⟩]
      phase := .rolling } := by
  refine ⟨fun _ state top => ?_, by simp, by simp⟩
  obtain ⟨highest, isHighest, stored⟩ := top
  rw [IsHighest.unique heights (newest.pending row phase) isHighest] at stored
  have rowOf := counts.rowed row (.inr phase)
  rw [rowOf.unique stored, rowOf.1, getLast?_concat]
  rfl

theorem evict {oldest : WindowKey core} {rest : List (WindowKey core)} {root : core.Hash}
    (phase : r.phase = .rolling) (window : r.window = oldest :: rest)
    (tooLong : r.retention.val < r.window.length) : RunningNewest blocks { r with
      window := rest
      deltas := r.deltas ++ [(root, -1)] } := by
  refine ⟨fun _ state top => ?_, by simp [phase], by simp [phase]⟩
  have kept := newest.newest (by simp [phase]) state top
  cases rest with
  | nil =>
    have positive := r.retention.pos
    rw [window, length_singleton] at tooLong
    omega
  | cons next later =>
    rw [window, getLast?_cons_cons] at kept
    exact kept

theorem rolled (phase : r.phase = .rolling) : RunningNewest blocks { r with phase := .next } :=
  ⟨fun _ => newest.newest (by simp [phase]), by simp, by simp⟩

end RunningNewest

namespace NewestKept

variable {backend : Sql.Backend} {world after : ChainWorld core} {r : Running core}
  {retention : NonZeroUsize} {keys : List (HashedKey core)} {ledger : LedgerDb core.Hash}
  {input : ChainInput core} (kept : NewestKept backend world)

include kept in
theorem start {repair : RootCountRepair}
    (newest : newestHashedKeys backend retention world.blocks = .ok keys)
    (repaired : raiseRootCounts core.childrenOf world.ledger
      (windowRootCounts (keys.map HashedKey.hash)) = some (ledger, repair)) :
    NewestKept backend { world with
      ledger := ledger, process := some (.seeding retention keys) } := by
  refine ⟨kept.counts.start newest repaired, kept.heights, fun state top => ?_, ?_,
    nofun⟩
  · exact Nat.lt_of_lt_of_le (kept.stored state top)
      ((raiseRootCounts_raises repaired).2 (core.root state)).1
  · intro retention' keys' process
    cases process
    exact newest

include kept in
theorem seedWindow_last (process : world.process = some (.seeding retention keys))
    (top : TopState world.blocks state) :
    (seedWindow keys world.ledger).getLast? = some (core.windowKey state) := by
  have persisted : core.root state ∈ world.ledger.roots.hashes :=
    (RootTable.mem_hashes_iff ..).mpr (kept.stored state top)
  obtain ⟨row, highest, stored⟩ := top
  obtain ⟨entry, hashed, decoded, found, last⟩ := newestHashedKeys_last
    (kept.seeding retention keys process) kept.heights highest.member highest.above
  obtain rfl := stored.hashKey decoded found
  obtain ⟨front, rfl⟩ := getLast?_eq_some_iff.mp last
  simp [seedWindow, persisted]

include kept in
theorem seed (process : world.process = some (.seeding retention keys)) :
    NewestKept backend { world with
      process := some (.running ⟨retention, seedWindow keys world.ledger, [], state, .next⟩) } := by
  refine ⟨kept.counts.seed process, kept.heights, kept.stored,
    nofun, fun r running => ?_⟩
  cases running
  exact ⟨fun _ _ top => kept.seedWindow_last process top, by simp, by simp⟩

include kept in
theorem stop : NewestKept backend { world with process := none } :=
  ⟨kept.counts.stop, kept.heights, kept.stored, nofun,
    nofun⟩

/-- In the loop the newest key of the window, or the pending persist, keeps the
highest block's root stored. -/
theorem ofRunning (counts : WindowCounted ⟨blocks, ledger, some (.running r)⟩)
    (heights : (blocks.map BlockRow.height).Nodup) (newest : RunningNewest blocks r) :
    NewestKept backend ⟨blocks, ledger, some (.running r)⟩ := by
  have running := counts.running r rfl
  refine ⟨counts, heights, fun state top => ?_, nofun, fun r' process => ?_⟩
  · exact stored_of_rootCount running.lowering (newest.rootCount_pos heights running top)
  · cases process
    exact newest

include kept in
theorem loop (process : world.process = some (.running r)) (guard : HeightsGrow world input)
    (move : LoopMove world.blocks world.ledger r input after) : NewestKept backend after := by
  have newest := kept.running r process
  have counts := kept.counts.loop process move
  cases move with
  | stay => exact ofRunning counts kept.heights newest
  | stop => exact kept.stop
  | persist phase => exact ofRunning counts kept.heights (newest.persist phase guard)
  | @saveBlock row phase fresh =>
    refine ofRunning counts ?_ (newest.saveBlock phase)
    rw [map_append, map_singleton, nodup_append]
    refine ⟨kept.heights, nodup_singleton _, fun height old other new same => fresh ?_⟩
    rw [← mem_singleton.mp new, ← same]
    exact old
  | pushBack phase =>
    exact ofRunning counts kept.heights
      (newest.pushBack kept.heights (kept.counts.running r process) phase)
  | evict phase window tooLong => exact ofRunning counts kept.heights (newest.evict phase window tooLong)
  | gc phase | skipGc phase => exact ofRunning counts kept.heights (newest.rolled phase)
  | flush =>
    exact ofRunning counts kept.heights ⟨newest.newest, newest.above, newest.pending⟩

include kept in
theorem step (guard : HeightsGrow world input) (move : ChainMove backend world input after) :
    NewestKept backend after := by
  cases move with
  | stay => exact kept
  | stop => exact kept.stop
  | start _ newest repaired => exact kept.start newest repaired
  | seed seeding _ => exact kept.seed seeding
  | loop running move => exact kept.loop running guard move

end NewestKept

theorem newestKept_run (backend : Sql.Backend) (inputs : List (ChainInput core))
    (guarded : Guarded (chainStep backend) HeightsGrow ChainWorld.empty inputs) :
    NewestKept backend (run (chainStep backend) ChainWorld.empty inputs) :=
  run_invariant (fun _ _ kept guard => kept.step guard (chainStep_move ..)) _ inputs
    (newestKept_empty backend) guarded

/-- When a restart reaches the index loop, its ledger state is the one persisted
for the highest stored block, loaded under that block's ledger version, or a new
one if no block is stored. -/
theorem restart_resumes_highest (backend : Sql.Backend) (inputs : List (ChainInput core))
    (guarded : Guarded (chainStep backend) HeightsGrow ChainWorld.empty inputs)
    (retention : NonZeroUsize) (keys : List (HashedKey core)) (r : Running core)
    (seeding : (run (chainStep backend) ChainWorld.empty inputs).process =
      some (.seeding retention keys))
    (resumed : (run (chainStep backend) ChainWorld.empty (inputs ++ [.seed])).process =
      some (.running r)) :
    let world := run (chainStep backend) ChainWorld.empty inputs
    (world.blocks = [] ∧ r.state = core.new LedgerVersion.oldest) ∨
      ∃ row version, IsHighest world.blocks row ∧ RowOf row r.state ∧
        ProtocolVersion.tryFromI64 row.protocolVersion = some version ∧
        loadLedgerState world.ledger ⟨row.ledgerStateKey, version.ledgerVersion⟩ =
          some r.state := by
  intro world
  have kept : NewestKept backend world := newestKept_run backend inputs guarded
  rw [run_append] at resumed
  change (chainStep backend world .seed).process = _ at resumed
  have success := chainStep_seed seeding resumed
  by_cases empty : world.blocks = []
  · refine Or.inl ⟨empty, ?_⟩
    have newest := kept.seeding retention keys seeding
    rw [empty] at newest success
    rw [newestHashedKeys_nil newest] at success
    exact (Except.ok.inj success).symm
  · refine Or.inr ?_
    obtain ⟨row, highest⟩ := exists_isHighest empty
    obtain ⟨top, stored⟩ := kept.counts.rows row highest.member
    rw [resume, kept.seedWindow_last seeding ⟨row, highest, stored⟩] at success
    split at success
    next found =>
      split at success
      next loaded =>
        cases success
        cases found
        have same := loadLedgerState_windowKey loaded
        obtain ⟨key, version, protocol, ledger⟩ := stored
        refine ⟨row, version, highest, same ▸ ⟨key, version, protocol, ledger⟩, ?_, ?_⟩
        · rw [protocol, version.tryFromI64_intoI64]
        · rw [key, ← ledger]
          exact loaded
      next => cases success
    next found => cases found

/-- Two blocks across a ledger upgrade under retention 1, a stop between the save
of the second and its window entry, and a restart. -/
def sampleRestart : List (ChainInput sampleCore) :=
  let old : ProtocolVersion := .first .V0_22
  let new : ProtocolVersion := .first .V2_0
  let retention : NonZeroUsize := .ofNat 1
  [.start retention, .seed, .persist (.V8, 5) 0 old, .saveBlock, .pushBack, .gc none,
    .persist (.V9, 5) 1 new, .saveBlock, .crash, .start retention]

theorem restart_resumes_highest_sample :
    let world := run (chainStep .sqlite) ChainWorld.empty sampleRestart
    let r : Running sampleCore :=
      ⟨.ofNat 1, [⟨(.V9, 5), .V9⟩], [], (.V9, 5), .next⟩
    (run (chainStep .sqlite) ChainWorld.empty (sampleRestart ++ [.seed])).process =
        some (.running r) ∧
      ((world.blocks = [] ∧ r.state = sampleCore.new LedgerVersion.oldest) ∨
        ∃ row version, IsHighest world.blocks row ∧ RowOf row r.state ∧
          ProtocolVersion.tryFromI64 row.protocolVersion = some version ∧
          loadLedgerState world.ledger ⟨row.ledgerStateKey, version.ledgerVersion⟩ =
            some r.state) :=
  have resumed : (run (chainStep .sqlite) ChainWorld.empty (sampleRestart ++ [.seed])).process =
      some (.running
        ⟨.ofNat 1, [⟨(.V9, 5), .V9⟩], [], (.V9, 5), .next⟩) := rfl
  ⟨resumed, restart_resumes_highest .sqlite sampleRestart (by decide +kernel)
    (.ofNat 1) [⟨⟨(.V9, 5), .V9⟩, (6 : Nat)⟩] _ rfl resumed⟩

end MidnightIndexer.Guarantees.Resume
