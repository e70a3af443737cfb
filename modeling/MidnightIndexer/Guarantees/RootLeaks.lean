import MidnightIndexer.Guarantees.RootCounts
import MidnightIndexer.Lib.Surplus

/-!
# What the root counts leak over any number of stops

chain-indexer/src/application.rs:121-181,249-261 and
indexer-common/src/domain/ledger/ledger_state.rs:350-409,2430-2473. The stored
root counts may exceed the occurrences among the newest stored keys. A stop
leaves at most one such count: of a persist whose block is not saved, or of an
unpersist that is not flushed. A smaller retention strands the keys it no longer
reads.

A start can add more. The repair raises a root that is still stored to all its
occurrences among the newest keys, but the window is seeded without the culled
keys in between and evicts nothing until it is full again. By then the
occurrences that are older than a culled key have left the newest keys, with
their counts in place. These are tallied as `regained`.
-/

namespace MidnightIndexer.Guarantees.RootLeaks

open Lib List Source Surplus HashedKey

variable {core : LedgerCore}

/-- What the stored counts have above a floor for each root. -/
def countsAbove (ledger : LedgerDb core.Hash) (floor : core.Hash → Nat) : Nat :=
  (ledger.roots.hashes.map fun hash => ledger.roots.getRootCount hash - floor hash).sum

/-- The newest keys up to the first culled one. -/
def newerThanCulled (ledger : LedgerDb core.Hash) (keys : List core.Hash) : List core.Hash :=
  keys.rtakeWhile fun hash => 0 < ledger.roots.getRootCount hash

/-- What a repair has raised for keys that are older than a culled one. -/
def regained (before after : LedgerDb core.Hash) (keys : List core.Hash) : Nat :=
  countsAbove after fun hash =>
    max (before.roots.getRootCount hash) ((newerThanCulled after keys).count hash)

/-- The runs so far: the last retention, the stops, the decreases of the retention
and what the starts regained. -/
structure Tally where
  retention : Option NonZeroUsize
  stops : Nat
  decreases : Nat
  regained : Nat

namespace Tally

def empty : Tally := ⟨none, 0, 0, 0⟩

def size (t : Tally) : Nat := (t.retention.map NonZeroUsize.val).getD 0

def bound (t : Tally) : Nat := t.stops + t.decreases + t.regained

def observe (t : Tally) (before after : ChainWorld core) : Tally :=
  match before.process, after.process with
  | none, some (.seeding retention keys) =>
    { retention := some retention
      stops := t.stops
      decreases := t.decreases + (t.size - retention.val)
      regained := t.regained +
        RootLeaks.regained before.ledger after.ledger (keys.map HashedKey.hash) }
  | some _, none => { t with stops := t.stops + 1 }
  | _, _ => t

theorem observe_self (t : Tally) (world : ChainWorld core) : t.observe world world = t := by
  unfold observe
  split
  next idle active => cases idle.symm.trans active
  next active idle => cases idle.symm.trans active
  next => rfl

end Tally

structure Tallied (core : LedgerCore) where
  world : ChainWorld core
  tally : Tally

def Tallied.empty : Tallied core := ⟨ChainWorld.empty, Tally.empty⟩

def talliedStep (backend : Sql.Backend) (s : Tallied core) (input : ChainInput core) :
    Tallied core :=
  let after := chainStep backend s.world input
  ⟨after, s.tally.observe s.world after⟩

/-- The roots of the newest stored keys. -/
def newestHashes (backend : Sql.Backend) (retention : NonZeroUsize)
    (blocks : List (BlockRow core.Key)) : List core.Hash :=
  match newestHashedKeys backend retention blocks with
  | .ok keys => keys.map HashedKey.hash
  | .error _ => []

/-- The total excess of the stored counts over the retention window of the last run. -/
def Tallied.excess (backend : Sql.Backend) (s : Tallied core) : Nat :=
  match s.tally.retention with
  | none => countsAbove s.world.ledger fun _ => 0
  | some retention =>
    countsAbove s.world.ledger fun hash =>
      (newestHashes backend retention s.world.blocks).count hash

/-- Heights are `u32`, and a block is indexed on top of the stored ones. -/
def HeightsFit (s : Tallied core) : ChainInput core → Prop
  | .persist _ height _ => height < 2 ^ 32 ∧ ∀ row ∈ s.world.blocks, row.height < height
  | _ => True

instance (s : Tallied core) : (input : ChainInput core) → Decidable (HeightsFit s input)
  | .persist _ height _ => inferInstanceAs
    (Decidable (height < 2 ^ 32 ∧ ∀ row ∈ s.world.blocks, row.height < height))
  | .gc _ | .start _ | .seed | .saveBlock | .pushBack | .evict | .flush | .crash => isTrue trivial

/-- A start raises no count for keys that are older than a culled one. -/
def RaisesNewer (backend : Sql.Backend) (s : Tallied core) (input : ChainInput core) : Prop :=
  (talliedStep backend s input).tally.regained = s.tally.regained

instance (backend : Sql.Backend) (s : Tallied core) (input : ChainInput core) :
    Decidable (RaisesNewer backend s input) :=
  inferInstanceAs (Decidable (_ = _))

/-! ### The stored rows -/

structure StoredRows (blocks : List (BlockRow core.Key)) (states : List core.State) : Prop where
  rows : List.Forall₂ RowOf blocks states
  increasing : blocks.Pairwise fun low high => low.height < high.height
  small : ∀ row ∈ blocks, row.height < 2 ^ 32

variable {row : BlockRow core.Key}

namespace StoredRows

variable {blocks : List (BlockRow core.Key)} {states : List core.State}
  (stored : StoredRows blocks states)

include stored

theorem few : blocks.length ≤ 2 ^ 63 := by
  have distinct : (blocks.map BlockRow.height).Nodup :=
    pairwise_map.mpr (stored.increasing.imp ne_of_lt)
  have inside : blocks.map BlockRow.height ⊆ range (2 ^ 32) := by
    intro height member
    obtain ⟨row, listed, rfl⟩ := mem_map.mp member
    exact mem_range.mpr (stored.small row listed)
  have short := (subperm_of_subset distinct inside).length_le
  rw [length_map, length_range] at short
  exact short.trans (Nat.pow_le_pow_right Nat.two_pos (by decide))

theorem newest {backend : Sql.Backend} {retention : NonZeroUsize}
    (accepts : Sql.Accepts backend retention) :
    newestHashes backend retention blocks = (states.map core.root).rtake retention.val := by
  rw [newestHashes, newestHashedKeys_eq accepts stored.rows stored.increasing stored.few]
  simp [rtake, Function.comp_def]

theorem save {state : core.State} (rowed : RowOf row state) (small : row.height < 2 ^ 32)
    (above : ∀ other ∈ blocks, other.height < row.height) :
    StoredRows (blocks ++ [row]) (states ++ [state]) := by
  refine ⟨rel_append stored.rows (.cons rowed .nil), ?_, fun other member => ?_⟩
  · rw [pairwise_append]
    refine ⟨stored.increasing, pairwise_singleton _ _, fun other member last new => ?_⟩
    rw [mem_singleton.mp new]
    exact above other member
  · rcases mem_append.mp member with old | new
    · exact stored.small other old
    · rw [mem_singleton.mp new]
      exact small

end StoredRows

/-! ### Between two runs -/

/-- Up to `bound` the counts are those of the last keys, all of them roots. -/
def Kept (ledger : LedgerDb core.Hash) (hashes : List core.Hash) (size bound : Nat) : Prop :=
  ∃ kept : List core.Hash, kept <:+ hashes ∧ kept.length ≤ size ∧
    (∀ hash ∈ kept, 0 < ledger.roots.getRootCount hash) ∧ Within (rootCount ledger []) kept bound

theorem rootCount_nil (ledger : LedgerDb core.Hash) (hash : core.Hash) :
    rootCount ledger [] hash = ledger.roots.getRootCount hash := by
  simp [rootCount, totalDelta]

variable {ledger : LedgerDb core.Hash} {repair : RootCountRepair}

theorem countsAbove_le {held : List core.Hash} {bound : Nat}
    (within : Within (rootCount ledger []) held bound) :
    countsAbove ledger (fun hash => held.count hash) ≤ bound := by
  have total := within.total_le ledger.roots.unique
  simp only [rootCount_nil, Int.toNat_sub] at total
  exact total

/-- The repair of a start: what it regains is the only surplus that it adds. -/
theorem Kept.start {after : LedgerDb core.Hash} {hashes : List core.Hash} {size bound : Nat}
    (kept : Kept ledger hashes size bound) (retention : NonZeroUsize)
    (repaired : raiseRootCounts core.childrenOf ledger
      (windowRootCounts (hashes.rtake retention.val)) = some (after, repair)) :
    Within (rootCount after []) (newerThanCulled after (hashes.rtake retention.val))
      (bound + (size - retention.val) + regained ledger after (hashes.rtake retention.val)) := by
  obtain ⟨last, part, short, rooted, within⟩ := kept
  obtain ⟨_, raises⟩ := raiseRootCounts_raises repaired
  have newer : last.rtake retention.val <:+ newerThanCulled after (hashes.rtake retention.val) := by
    refine suffix_rtakeWhile ?_ fun hash member => ?_
    · refine suffix_rtake ((rtake_suffix last _).trans part) ?_
      rw [length_rtake]
      exact min_le_left _ _
    · have listed : hash ∈ last := (rtake_suffix last _).mem member
      have stored := rooted hash listed
      have grown := (raises hash).1
      rw [decide_eq_true_iff]
      omega
  obtain ⟨extra, length, counts⟩ := exists_count after.roots.unique fun hash =>
    after.roots.getRootCount hash - max (ledger.roots.getRootCount hash)
      ((newerThanCulled after (hashes.rtake retention.val)).count hash)
  have moved := (within.rtake retention.val).sublist newer.sublist
  refine (moved.raise extra fun hash => ?_).mono ?_
  · rw [rootCount_nil, rootCount_nil, counts]
    split
    next => omega
    next absent =>
      rw [← RootTable.hashes, RootTable.mem_hashes_iff] at absent
      omega
  · rw [length]
    change _ + regained ledger after _ ≤ _
    omega

/-! ### While a process runs -/

/-- A state that is persisted and whose block is not saved. -/
def unsaved (r : Running core) : List core.Hash :=
  match r.phase with
  | .persisted _ => [core.root r.state]
  | .next | .saved _ | .rolling => []

/-- A state whose block is saved and whose key is not in the window. -/
def unpushed (r : Running core) : List core.Hash :=
  match r.phase with
  | .saved _ => [core.root r.state]
  | .next | .persisted _ | .rolling => []

/-- The last keys of the window are the last stored ones, and up to `bound` the
counts are theirs. At most one key is on its way in or out. -/
structure RunningKept (blocks : List (BlockRow core.Key)) (ledger : LedgerDb core.Hash)
    (r : Running core) (hashes : List core.Hash) (bound : Nat) : Prop where
  lowered : ∀ delta ∈ r.deltas, delta.2 = -1
  short : r.window.length + (unpushed r).length + (unsaved r).length + r.deltas.length ≤
    r.retention.val + 1
  single : (unpushed r).length + (unsaved r).length + r.deltas.length ≤ 1
  trimmed : r.phase = .next → r.window.length ≤ r.retention.val
  above : ∀ row, r.phase = .persisted row →
    row.height < 2 ^ 32 ∧ ∀ other ∈ blocks, other.height < row.height
  kept : ∃ tail, tail <:+ windowHashes r.window ∧ tail ++ unpushed r <:+ hashes ∧
    Within (rootCount ledger r.deltas) (tail ++ unpushed r ++ unsaved r) bound

theorem totalDelta_lowered {deltas : List (RootDelta core.Hash)}
    (lowered : ∀ delta ∈ deltas, delta.2 = -1) (hash : core.Hash) :
    totalDelta deltas hash = -((deltas.map Prod.fst).count hash : Int) := by
  induction deltas with
  | nil => rfl
  | cons delta rest ih =>
    have first := lowered delta mem_cons_self
    have later := ih fun other member => lowered other (mem_cons_of_mem _ member)
    rw [← singleton_append, totalDelta_append, totalDelta_singleton, later, first,
      singleton_append, map_cons, count_cons]
    by_cases same : delta.1 = hash
    · simp only [same, if_true, BEq.rfl]
      omega
    · simp only [same, if_false, beq_iff_eq]
      omega

theorem windowHashes_concat (window : List (WindowKey core)) (state : core.State) :
    windowHashes (window ++ [core.windowKey state]) = windowHashes window ++ [core.root state] := by
  simp [windowHashes, LedgerCore.windowKey, core.key_root]

namespace RunningKept

variable {blocks : List (BlockRow core.Key)} {ledger after : LedgerDb core.Hash}
  {r : Running core} {hashes : List core.Hash} {bound : Nat}
  (running : RunningKept blocks ledger r hashes bound)

include running

theorem stop (counts : RunningCounted ledger r) :
    Kept ledger hashes r.retention.val (bound + 1) := by
  obtain ⟨tail, part, saved, within⟩ := running.kept
  have rooted : ∀ hash ∈ tail ++ unpushed r, 0 < ledger.roots.getRootCount hash := by
    intro hash member
    refine stored_of_rootCount counts.lowering ?_
    have counted := counts.counted hash
    rcases mem_append.mp member with old | new
    · have occurs := count_pos_iff.mpr (part.mem old)
      omega
    · have pending : pendingCount r hash = 1 := by
        unfold unpushed at new
        split at new
        next phase =>
          rw [pendingCount, phase]
          exact if_pos (mem_singleton.mp new).symm
        all_goals cases new
      omega
  refine ⟨(tail ++ unpushed r).rtake r.retention.val, (rtake_suffix _ _).trans saved, ?_, ?_, ?_⟩
  · rw [length_rtake]
    exact min_le_left _ _
  · exact fun hash member => rooted hash ((rtake_suffix _ _).mem member)
  · have durable : ∀ hash, rootCount ledger [] hash ≤
        max (rootCount ledger r.deltas hash) ((tail ++ unpushed r ++ unsaved r).count hash) +
          (r.deltas.map Prod.fst).count hash := by
      intro hash
      have lowered := totalDelta_lowered running.lowered hash
      rw [rootCount_nil, rootCount]
      omega
    refine ((within.raise _ durable).of_append.rtake r.retention.val).mono ?_
    have length := part.length_le
    have hashed : (windowHashes r.window).length ≤ r.window.length := length_filterMap_le _ _
    have short := running.short
    have single := running.single
    rw [length_append, length_map]
    omega

theorem persist {next : core.State} {height : Nat} {version : ProtocolVersion}
    (phase : r.phase = .next) (fits : height < 2 ^ 32 ∧ ∀ row ∈ blocks, row.height < height)
    (flushed : flushAllChanges ledger (r.deltas ++ [(core.root next, 1)]) (core.dag next) =
      some after) : RunningKept blocks after { r with
      deltas := []
      state := next
      phase := .persisted ⟨height, version.intoI64, core.key next⟩ } hashes bound := by
  obtain ⟨tail, part, saved, within⟩ := running.kept
  have trimmed := running.trimmed phase
  refine ⟨by simp, ?_, by simp [unpushed, unsaved], by simp, ?_, tail, part, ?_, ?_⟩
  · simp only [unpushed, unsaved, length_nil, length_singleton]
    omega
  · rintro row same
    cases same
    exact fits
  · simpa [unpushed, phase] using saved
  · simp only [unpushed, unsaved, phase, append_nil] at within ⊢
    refine within.push fun hash => ?_
    rw [rootCount_flushed flushed, rootCount_append]

theorem saveBlock (phase : r.phase = .persisted row) :
    RunningKept (blocks ++ [row]) ledger { r with phase := .saved row }
      (hashes ++ [core.root r.state]) bound := by
  obtain ⟨tail, part, saved, within⟩ := running.kept
  have short := running.short
  have single := running.single
  simp only [unpushed, unsaved, phase, length_nil, length_singleton,
    append_nil] at short single saved within
  refine ⟨running.lowered, ?_, ?_, by simp, by simp, tail, part, ?_, ?_⟩
  · simpa [unpushed, unsaved] using short
  · simpa [unpushed, unsaved] using single
  · obtain ⟨front, same⟩ := saved
    exact ⟨front, by simp [unpushed, ← same]⟩
  · simpa [unpushed, unsaved] using within

theorem pushBack (counts : RunningCounted ledger r) (phase : r.phase = .saved row) :
    RunningKept blocks ledger { r with
      window := r.window ++ [⟨row.ledgerStateKey, core.version r.state⟩]
      phase := .rolling } hashes bound := by
  obtain ⟨tail, part, saved, within⟩ := running.kept
  have short := running.short
  have single := running.single
  simp only [unpushed, unsaved, phase, length_nil, length_singleton,
    append_nil] at short single saved within
  rw [(counts.rowed row (.inr phase)).1]
  refine ⟨running.lowered, ?_, ?_, by simp, by simp, tail ++ [core.root r.state], ?_, ?_, ?_⟩
  · simp only [unpushed, unsaved, length_append, length_nil, length_singleton]
    omega
  · simp only [unpushed, unsaved, length_nil]
    omega
  · obtain ⟨front, same⟩ := part
    rw [← LedgerCore.windowKey, windowHashes_concat, ← same]
    exact ⟨front, by simp⟩
  · simpa [unpushed] using saved
  · simpa [unpushed, unsaved] using within

theorem evict {oldest : WindowKey core} {rest : List (WindowKey core)} {root : core.Hash}
    (phase : r.phase = .rolling) (window : r.window = oldest :: rest)
    (tooLong : r.retention.val < r.window.length)
    (hashed : core.arenaRootHash oldest.key oldest.version = some root) :
    RunningKept blocks ledger { r with
      window := rest
      deltas := r.deltas ++ [(root, -1)] } hashes bound := by
  obtain ⟨tail, part, saved, within⟩ := running.kept
  have short := running.short
  have first : windowHashes r.window = root :: windowHashes rest := by
    simp [windowHashes, window, hashed]
  rw [window, length_cons] at short tooLong
  simp only [unpushed, unsaved, phase, length_nil, append_nil] at short saved within
  have shrunk : ∀ hash, rootCount ledger (r.deltas ++ [(root, -1)]) hash ≤
      rootCount ledger r.deltas hash - if root = hash then 1 else 0 := by
    intro hash
    rw [rootCount_append]
    split <;> omega
  refine ⟨?_, ?_, ?_, by simp [phase], by simp [phase], ?_⟩
  · intro delta member
    rcases mem_append.mp member with old | new
    · exact running.lowered delta old
    · rw [mem_singleton.mp new]
  · simp only [unpushed, unsaved, phase, length_nil, length_append, length_singleton]
    omega
  · simp only [unpushed, unsaved, phase, length_nil, length_append, length_singleton]
    omega
  · simp only [unpushed, unsaved, phase, append_nil]
    -- the evicted key is the first of the last stored ones or was surplus before
    rw [first] at part
    rcases suffix_cons_iff.mp part with rfl | later
    · exact ⟨windowHashes rest, suffix_rfl, (suffix_cons _ _).trans saved, within.pop shrunk⟩
    · refine ⟨tail, later, saved, within.lower fun hash => (shrunk hash).trans ?_⟩
      split <;> omega

theorem flush (flushed : flushAllChanges ledger r.deltas [] = some after) :
    RunningKept blocks after { r with deltas := [] } hashes bound := by
  obtain ⟨tail, part, saved, within⟩ := running.kept
  have short := running.short
  have single := running.single
  refine ⟨by simp, ?_, ?_, running.trimmed, running.above, tail, part, saved, ?_⟩
  · change r.window.length + (unpushed r).length + (unsaved r).length + 0 ≤ r.retention.val + 1
    omega
  · change (unpushed r).length + (unsaved r).length + 0 ≤ 1
    omega
  · exact within.lower fun hash => (rootCount_flushed flushed hash).le

theorem rolled (phase : r.phase = .rolling) (trimmed : r.window.length ≤ r.retention.val)
    (roots : after.roots = ledger.roots) :
    RunningKept blocks after { r with phase := .next } hashes bound := by
  obtain ⟨tail, part, saved, within⟩ := running.kept
  have short := running.short
  have single := running.single
  simp only [unpushed, unsaved, phase] at short single saved within
  refine ⟨running.lowered, short, single, fun _ => trimmed, by simp, tail, part, saved, ?_⟩
  exact within.lower fun hash => by rw [rootCount, roots, rootCount]

end RunningKept

/-! ### Whole sequences of runs -/

structure SeedingKept (ledger : LedgerDb core.Hash) (retention : NonZeroUsize)
    (keys : List (HashedKey core)) (hashes : List core.Hash) (bound : Nat) : Prop where
  newest : keys.map HashedKey.hash = hashes.rtake retention.val
  kept : Within (rootCount ledger []) (newerThanCulled ledger (keys.map HashedKey.hash)) bound

namespace SeedingKept

variable {ledger : LedgerDb core.Hash} {retention : NonZeroUsize} {keys : List (HashedKey core)}
  {hashes : List core.Hash} {bound : Nat} (seeding : SeedingKept ledger retention keys hashes bound)

include seeding

theorem suffix : newerThanCulled ledger (keys.map hash) <:+ hashes := by
  rw [seeding.newest]
  exact (rtakeWhile_suffix _ _).trans (rtake_suffix _ _)

theorem length_le : keys.length ≤ retention.val := by
  rw [← length_map (f := hash), seeding.newest, length_rtake]
  exact min_le_left _ _

theorem stop : Kept ledger hashes retention.val bound := by
  refine ⟨_, seeding.suffix, ?_, fun hash member => ?_, seeding.kept⟩
  · have short := (rtakeWhile_suffix (l := keys.map hash)
      fun hash => decide (0 < ledger.roots.getRootCount hash)).length_le
    rw [length_map] at short
    exact short.trans seeding.length_le
  · have stored := mem_rtakeWhile_imp member
    exact decide_eq_true_iff.mp stored

/-- The seeded window ends with the keys that are newer than every culled one. -/
theorem seed (counts : SeedingCounted ledger keys) (blocks : List (BlockRow core.Key))
    (state : core.State) :
    RunningKept blocks ledger ⟨retention, seedWindow keys ledger, [], state, .next⟩ hashes
      bound := by
  have short : (seedWindow keys ledger).length ≤ retention.val := by
    rw [seedWindow, length_map]
    exact (length_filter_le _ _).trans seeding.length_le
  refine ⟨by simp, ?_, by simp [unpushed, unsaved], fun _ => short, by simp, ?_⟩
  · simp only [unpushed, unsaved, length_nil]
    omega
  · refine ⟨newerThanCulled ledger (keys.map hash), ?_, ?_, ?_⟩
    · have filtered := rtakeWhile_suffix_filter
        (fun hash => decide (0 < ledger.roots.getRootCount hash)) (keys.map hash)
      rw [filter_map] at filtered
      simp only [windowHashes_seedWindow counts, RootTable.mem_hashes_iff]
      exact filtered
    · simpa [unpushed] using seeding.suffix
    · simpa [unpushed, unsaved] using seeding.kept

end SeedingKept

structure LeakInvariant (backend : Sql.Backend) (s : Tallied core) (states : List core.State) :
    Prop where
  counts : WindowCounted s.world
  stored : StoredRows s.world.blocks states
  accepts : ∀ retention, s.tally.retention = some retention → Sql.Accepts backend retention
  idle : s.world.process = none →
    Kept s.world.ledger (states.map core.root) s.tally.size s.tally.bound
  seeding : ∀ retention keys, s.world.process = some (.seeding retention keys) →
    s.tally.retention = some retention ∧
      SeedingKept s.world.ledger retention keys (states.map core.root) s.tally.bound
  running : ∀ r, s.world.process = some (.running r) →
    s.tally.retention = some r.retention ∧
      RunningKept s.world.blocks s.world.ledger r (states.map core.root) s.tally.bound

theorem leakInvariant_empty (backend : Sql.Backend) :
    LeakInvariant backend (Tallied.empty : Tallied core) [] where
  counts := windowCounted_empty
  stored := ⟨.nil, Pairwise.nil, by simp [Tallied.empty, ChainWorld.empty]⟩
  accepts := nofun
  idle := fun _ => ⟨[], nil_suffix, Nat.zero_le _, by simp, [], Nat.zero_le _, fun hash => by
    simp [rootCount_nil, Tallied.empty, ChainWorld.empty, LedgerDb.empty]⟩
  seeding := nofun
  running := nofun

namespace LeakInvariant

variable {backend : Sql.Backend} {s : Tallied core} {after : ChainWorld core}
  {states : List core.State} {r : Running core} (invariant : LeakInvariant backend s states)

include invariant in
/-- A running process adds one to what may be above the newest keys. -/
theorem kept : Kept s.world.ledger (states.map core.root) s.tally.size
      (s.tally.bound + if s.world.process.isSome then 1 else 0) := by
  cases process : s.world.process with
  | none => exact invariant.idle process
  | some phase =>
    cases phase with
    | seeding retention keys =>
      obtain ⟨same, seeding⟩ := invariant.seeding retention keys process
      obtain ⟨last, part, short, rooted, within⟩ := seeding.stop
      rw [Tally.size, same]
      exact ⟨last, part, short, rooted, within.mono (Nat.le_add_right _ _)⟩
    | running r =>
      obtain ⟨same, running⟩ := invariant.running r process
      rw [Tally.size, same]
      exact running.stop (invariant.counts.running r process)

include invariant in
theorem stop {process : Process core} (active : s.world.process = some process) :
    LeakInvariant backend ⟨{ s.world with process := none },
      { s.tally with stops := s.tally.stops + 1 }⟩ states := by
  refine ⟨invariant.counts.stop, invariant.stored, invariant.accepts, fun _ => ?_,
    nofun, nofun⟩
  have kept := invariant.kept
  rw [active] at kept
  have bounds : s.tally.bound + 1 = Tally.bound { s.tally with stops := s.tally.stops + 1 } := by
    simp only [Tally.bound]
    omega
  exact bounds ▸ kept

include invariant in
theorem start {retention : NonZeroUsize} {keys : List (HashedKey core)}
    (idle : s.world.process = none)
    (newest : newestHashedKeys backend retention s.world.blocks = .ok keys)
    (repaired : raiseRootCounts core.childrenOf s.world.ledger
      (windowRootCounts (keys.map hash)) = some (ledger, repair)) :
    LeakInvariant backend ⟨{ s.world with
        ledger := ledger, process := some (.seeding retention keys) },
      { retention := some retention
        stops := s.tally.stops
        decreases := s.tally.decreases + (s.tally.size - retention.val)
        regained := s.tally.regained +
          regained s.world.ledger ledger (keys.map hash) }⟩ states := by
  have accepts : Sql.Accepts backend retention := by
    obtain ⟨_, read, _⟩ := bind_success newest
    obtain ⟨_, limited, _⟩ := bind_success read
    exact Sql.limit_accepts (mapError_success limited)
  have hashes : keys.map hash = (states.map core.root).rtake retention.val := by
    rw [← invariant.stored.newest accepts, newestHashes, newest]
  refine ⟨invariant.counts.start newest repaired, invariant.stored, ?_,
    nofun, ?_, nofun⟩
  · intro last same
    cases same
    exact accepts
  · intro retention' keys' process
    cases process
    refine ⟨rfl, hashes, ?_⟩
    have raised := (invariant.idle idle).start retention (hashes ▸ repaired)
    rw [hashes]
    refine raised.mono ?_
    simp only [Tally.bound]
    omega

theorem ofRunning {blocks : List (BlockRow core.Key)} {tally : Tally}
    (counts : WindowCounted ⟨blocks, ledger, some (.running r)⟩)
    (stored : StoredRows blocks states) (accepts : Sql.Accepts backend r.retention)
    (same : tally.retention = some r.retention)
    (running : RunningKept blocks ledger r (states.map core.root) tally.bound) :
    LeakInvariant backend ⟨⟨blocks, ledger, some (.running r)⟩, tally⟩ states := by
  refine ⟨counts, stored, fun retention last => ?_, nofun,
    nofun, fun r' process => ?_⟩
  · cases same.symm.trans last
    exact accepts
  · cases process
    exact ⟨same, running⟩

variable {input : ChainInput core}

include invariant in
theorem loop (process : s.world.process = some (.running r)) (guard : HeightsFit s input)
    (move : LoopMove s.world.blocks s.world.ledger r input after) :
    ∃ states', LeakInvariant backend ⟨after, s.tally.observe s.world after⟩ states' := by
  obtain ⟨same, running⟩ := invariant.running r process
  have accepts := invariant.accepts _ same
  have counts := invariant.counts.loop process move
  have counted := invariant.counts.running r process
  rw [Tally.observe, process]
  cases move with
  | stay => exact ⟨states, ofRunning counts invariant.stored accepts same running⟩
  | stop => exact ⟨states, invariant.stop process⟩
  | persist phase _ flushed =>
    exact ⟨states, ofRunning counts invariant.stored accepts same
      (running.persist phase guard flushed)⟩
  | @saveBlock row phase _ =>
    obtain ⟨small, above⟩ := running.above row phase
    have rowed := counted.rowed row (.inl phase)
    refine ⟨states ++ [r.state], ofRunning counts (invariant.stored.save rowed small above) accepts
      same ?_⟩
    rw [map_append]
    exact running.saveBlock phase
  | pushBack phase =>
    exact ⟨states, ofRunning counts invariant.stored accepts same (running.pushBack counted phase)⟩
  | evict phase window tooLong hashed =>
    exact ⟨states, ofRunning counts invariant.stored accepts same
      (running.evict phase window tooLong hashed)⟩
  | gc phase trimmed | skipGc phase trimmed =>
    exact ⟨states, ofRunning counts invariant.stored accepts same
      (running.rolled phase trimmed rfl)⟩
  | flush flushed =>
    exact ⟨states, ofRunning counts invariant.stored accepts same (running.flush flushed)⟩

include invariant in
theorem step (guard : HeightsFit s input) (move : ChainMove backend s.world input after) :
    ∃ states', LeakInvariant backend ⟨after, s.tally.observe s.world after⟩ states' := by
  cases move with
  | stay =>
    rw [Tally.observe_self]
    exact ⟨states, invariant⟩
  | stop =>
    cases process : s.world.process with
    | none =>
      have unchanged : ({ s.world with process := none } : ChainWorld core) = s.world := by
        rw [← process]
      rw [unchanged, Tally.observe_self]
      exact ⟨states, invariant⟩
    | some phase =>
      rw [Tally.observe, process]
      exact ⟨states, invariant.stop process⟩
  | start idle newest repaired =>
    rw [Tally.observe, idle]
    exact ⟨states, invariant.start idle newest repaired⟩
  | @seed retention keys state seeding _ =>
    obtain ⟨same, kept⟩ := invariant.seeding retention keys seeding
    rw [Tally.observe, seeding]
    exact ⟨states, ofRunning (invariant.counts.seed seeding) invariant.stored
      (invariant.accepts _ same) same
      (kept.seed (invariant.counts.seeding retention keys seeding) _ state)⟩
  | loop running move => exact invariant.loop running guard move

include invariant in
theorem excess_le : s.excess backend ≤ s.tally.bound + if s.world.process.isSome then 1 else 0 := by
  obtain ⟨last, part, short, _, within⟩ := invariant.kept
  unfold Tallied.excess
  split
  next none =>
    rw [Tally.size, none] at short
    cases length_eq_zero_iff.mp (Nat.le_zero.mp short)
    exact countsAbove_le within
  next retention some =>
    rw [Tally.size, some] at short
    rw [invariant.stored.newest (invariant.accepts retention some)]
    exact countsAbove_le (within.sublist (suffix_rtake part short).sublist)

end LeakInvariant

theorem regained_eq_zero {backend : Sql.Backend} {inputs : List (ChainInput core)}
    (newer : Guarded (talliedStep backend) (RaisesNewer backend) Tallied.empty inputs) :
    (run (talliedStep backend) Tallied.empty inputs).tally.regained = 0 := by
  have keep : ∀ (s : Tallied core) input, s.tally.regained = 0 → RaisesNewer backend s input →
      (talliedStep backend s input).tally.regained = 0 :=
    fun _ _ zero same => same.trans zero
  exact run_invariant keep _ inputs rfl newer

/-- A stop with an unpersist in memory, and a smaller retention after it. -/
def sampleStops : List (ChainInput sampleCore) :=
  let version : ProtocolVersion := .first .V0_22
  let block (n height : Nat) : List (ChainInput sampleCore) :=
    [.persist (.V8, n) height version, .saveBlock, .pushBack]
  [.start (.ofNat 3), .seed] ++ block 5 0 ++ [.gc none] ++ block 6 1 ++ [.gc none] ++ block 7 2 ++
    [.gc none] ++ block 8 3 ++ [.evict, .crash, .start (.ofNat 2), .seed, .crash]

/-- The state of the first four blocks leaks once when the first run stops. The second run
culls the next four states. The third reads all ten keys, raises the leaked root back to
four and stores four more blocks before its window is full. -/
def regainingRuns : List (ChainInput sampleCore) :=
  let version : ProtocolVersion := .first .V0_22
  let block (n height : Nat) : List (ChainInput sampleCore) :=
    [.persist (.V8, n) height version, .saveBlock, .pushBack]
  let rolled (n height : Nat) : List (ChainInput sampleCore) := block n height ++ [.evict, .gc none]
  let collected (n height : Nat) (kept : List Nat) : List (ChainInput sampleCore) :=
    block n height ++ [.evict, .gc (some kept)]
  [.start (.ofNat 1), .seed] ++ rolled 1 0 ++ rolled 1 1 ++ rolled 1 2 ++ rolled 1 3 ++
    rolled 2 4 ++
  [.crash, .start (.ofNat 1), .seed] ++ collected 3 5 [0, 2, 3, 4] ++ collected 4 6 [0, 2, 4, 5] ++
    collected 5 7 [0, 2, 5, 6] ++ collected 6 8 [0, 2, 6, 7] ++ collected 7 9 [0, 2, 7, 8] ++
  [.crash, .start (.ofNat 10), .seed] ++ rolled 8 10 ++ rolled 9 11 ++ rolled 10 12 ++
    rolled 11 13 ++ [.crash]

end MidnightIndexer.Guarantees.RootLeaks
