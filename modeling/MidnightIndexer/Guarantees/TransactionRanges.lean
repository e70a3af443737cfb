import MidnightIndexer.Guarantees.RestartEquivalence
import MidnightIndexer.Lib.Tiling

/-!
# Validation times and index ranges of a block's transactions

chain-indexer/src/domain/ledger_state.rs:120-175,187-270. The loop carries a flag
that the first regular transaction clears, and reads the first free index of three
trees before and after each regular transaction. The times are compared with those
that follow from a transaction's position alone, for failing blocks too. The
readings before and after every transaction, also those that are not recorded, tile
the range from the state before the block to the state after its last transaction.

The end of a recorded range is exclusive. `index_block` bumps for a height above 0.
-/

namespace MidnightIndexer.Guarantees.TransactionRanges

open Lib List Tiling
open Source Source.ChainIndexer

variable {crates : LedgerCrates}

/-! ## The times -/

def isSystem : NodeTransaction crates → Bool
  | .regular _ => false
  | .system _ => true

/-- The time for a transaction after the given ones of its block. -/
def validationTime (height blockTimestamp parentBlockTimestamp : UInt64)
    (before : List (NodeTransaction crates)) : UInt64 :=
  if 0 < height ∧ before.all isSystem then parentBlockTimestamp + mempoolTblockBumpMillis
  else blockTimestamp

def withTimes (height blockTimestamp parentBlockTimestamp : UInt64)
    (transactions : List (NodeTransaction crates)) : List (NodeTransaction crates × UInt64) :=
  transactions.mapIdx fun i transaction =>
    (transaction,
      validationTime height blockTimestamp parentBlockTimestamp (transactions.take i))

/-- Apply the transactions, each regular one validated at its given time. -/
def applyEachAt (parentBlockHash : ByteVec) (blockTimestamp parentBlockTimestamp : UInt64)
    (ledger : LedgerState crates) :
    List (NodeTransaction crates × UInt64) →
      Except DomainError (LedgerState crates × List (Transaction crates))
  | [] => .ok (ledger, [])
  | (.regular transaction, time) :: rest => do
    let applied ← ledger.applyRegular transaction parentBlockHash blockTimestamp
      parentBlockTimestamp time
    let later ← applyEachAt parentBlockHash blockTimestamp parentBlockTimestamp applied.1 rest
    return (later.1, .regular applied.2 :: later.2)
  | (.system transaction, _) :: rest => do
    let applied ← ledger.applySystem transaction blockTimestamp
    let later ← applyEachAt parentBlockHash blockTimestamp parentBlockTimestamp applied.1 rest
    return (later.1, .system applied.2 :: later.2)

def applyTransactionsAt (ledger : LedgerState crates)
    (transactions : List (NodeTransaction crates × UInt64)) (parentBlockHash : ByteVec)
    (blockTimestamp parentBlockTimestamp : UInt64) :
    Except DomainError
      (LedgerState crates × List (Transaction crates) × LedgerParameters crates) := do
  let applied ← applyEachAt parentBlockHash blockTimestamp parentBlockTimestamp ledger transactions
  let finalized ← (applied.1.finalizeApplyTransactions blockTimestamp).mapError
    .postApplyTransactions
  return (finalized.1, applied.2, finalized.2)

open LedgerState

/-- The flag says that no regular transaction came before. -/
theorem applyEach_eq (height : UInt64) (parentBlockHash : ByteVec)
    (blockTimestamp parentBlockTimestamp : UInt64) (ledger : LedgerState crates)
    (before transactions : List (NodeTransaction crates)) :
    applyEach parentBlockHash blockTimestamp parentBlockTimestamp
        (decide (0 < height)) ledger (before.all isSystem) transactions =
      applyEachAt parentBlockHash blockTimestamp parentBlockTimestamp ledger
        (transactions.mapIdx fun i transaction => (transaction,
          validationTime height blockTimestamp parentBlockTimestamp
            (before ++ transactions.take i))) := by
  induction transactions generalizing ledger before with
  | nil => rfl
  | cons transaction rest ih =>
    have shifted : ∀ i, before ++ (transaction :: rest).take (i + 1) =
        (before ++ [transaction]) ++ rest.take i := by
      intro i
      rw [take_succ_cons, append_cons]
    rw [mapIdx_cons]
    simp only [shifted, take_zero, append_nil]
    cases transaction with
    | regular transaction =>
      have cleared : (before ++ [NodeTransaction.regular transaction]).all isSystem = false := by
        rw [all_append, all_cons, isSystem, Bool.false_and, Bool.and_false]
      have time : wellFormedTimestamp (before.all isSystem) (decide (0 < height))
          blockTimestamp parentBlockTimestamp =
            validationTime height blockTimestamp parentBlockTimestamp before := by
        simp only [wellFormedTimestamp, validationTime, Bool.and_eq_true,
          decide_eq_true_eq, and_comm]
      rw [applyEach, applyEachAt, time]
      refine bind_congr fun applied => ?_
      rw [← ih, cleared]
    | system transaction =>
      have same : (before ++ [NodeTransaction.system transaction]).all isSystem =
          before.all isSystem := by
        rw [all_append, all_cons, isSystem, all_nil, Bool.and_true, Bool.and_true]
      rw [applyEach, applyEachAt]
      refine bind_congr fun applied => ?_
      rw [← ih, same]

theorem applyTransactions_eq (height : UInt64) (ledger : LedgerState crates)
    (transactions : List (NodeTransaction crates)) (parentBlockHash : ByteVec)
    (blockTimestamp parentBlockTimestamp : UInt64) :
    ledger.applyTransactions transactions parentBlockHash blockTimestamp parentBlockTimestamp
        (decide (0 < height)) = applyTransactionsAt ledger
        (withTimes height blockTimestamp parentBlockTimestamp transactions) parentBlockHash
        blockTimestamp parentBlockTimestamp := by
  have loop := applyEach_eq height parentBlockHash blockTimestamp parentBlockTimestamp ledger []
    transactions
  rw [all_nil] at loop
  rw [applyTransactions, loop]
  rfl

/-! ## The ranges -/

inductive IndexTree where
  | zswap | dustCommitment | dustGeneration
  deriving DecidableEq, Repr

namespace IndexTree

def firstFree {version : LedgerVersion} (tree : IndexTree) (state : crates.State version) : Nat :=
  match tree with
  | .zswap => crates.zswapFirstFree state
  | .dustCommitment => crates.dustCommitmentsFirstFree state
  | .dustGeneration => crates.dustGenerationsFirstFree state

def range (tree : IndexTree) (t : RegularTransaction crates) : Segment :=
  match tree with
  | .zswap => (t.zswapStartIndex, t.zswapEndIndex)
  | .dustCommitment => (t.dustCommitmentStartIndex, t.dustCommitmentEndIndex)
  | .dustGeneration => (t.dustGenerationStartIndex, t.dustGenerationEndIndex)

end IndexTree

/-- Whether a transaction is regular, and its hash. -/
def nodeKey : NodeTransaction crates → Bool × ByteVec
  | .regular t => (true, t.hash)
  | .system t => (false, t.hash)

def recordedKey : Transaction crates → Bool × ByteVec
  | .regular t => (true, t.hash)
  | .system t => (false, t.hash)

/-- The assumption on the ledger: first free indices never decrease. -/
structure FirstFreeGrows (crates : LedgerCrates) : Prop where
  apply : ∀ (tree : IndexTree) (version : LedgerVersion) (state : crates.State version)
    (transaction : crates.VerifiedTransaction version) (context : BlockContext),
    tree.firstFree state ≤ tree.firstFree (crates.apply state transaction context).1
  applySystem : ∀ (tree : IndexTree) (version : LedgerVersion) (state : crates.State version)
    (transaction : crates.SystemTransaction version) (tblock : Nat)
    (applied : crates.State version × List (crates.Event version)),
    crates.applySystem state transaction tblock = some applied →
      tree.firstFree state ≤ tree.firstFree applied.1

section

variable {parentBlockHash : ByteVec} {blockTimestamp parentBlockTimestamp : UInt64}
  {ledger : LedgerState crates}

/-- A regular transaction records the indices between the readings around it. -/
theorem applyRegular_range (grows : FirstFreeGrows crates) (tree : IndexTree)
    {transaction : NodeRegularTransaction crates} {time : UInt64}
    {applied : LedgerState crates × RegularTransaction crates}
    (success : ledger.applyRegular transaction parentBlockHash blockTimestamp
      parentBlockTimestamp time = .ok applied) :
    tree.range applied.2 = (tree.firstFree ledger.state, tree.firstFree applied.1.state) ∧
      tree.firstFree ledger.state ≤ tree.firstFree applied.1.state := by
  have moved : tree.firstFree ledger.state ≤ tree.firstFree applied.1.state := by
    obtain ⟨_, verified, _, _, _, after, _⟩ := applyRegular_success success
    rw [after]
    exact grows.apply tree _ _ verified _
  refine ⟨?_, moved⟩
  unfold applyRegular at success
  obtain ⟨outcome, _, root, _, actions, _, success⟩ := bind₃_success success
  cases success
  cases tree <;> rfl

theorem applySystem_grows (grows : FirstFreeGrows crates) (tree : IndexTree)
    {transaction : NodeSystemTransaction} {applied : LedgerState crates × SystemTransaction crates}
    (success : ledger.applySystem transaction blockTimestamp = .ok applied) :
    tree.firstFree ledger.state ≤ tree.firstFree applied.1.state := by
  obtain ⟨_, moved, _, _, stepped, after, _⟩ := applySystem_success success
  rw [after]
  exact grows.applySystem tree _ _ _ _ moved stepped

variable {bump first : Bool} {transaction : NodeTransaction crates}
  {one : LedgerState crates × Transaction crates} {transactions : List (NodeTransaction crates)}
  {applied : LedgerState crates × List (Transaction crates)}

/-- A round moves the first free index on; a regular transaction records from where to where. -/
theorem applyOne_grows (grows : FirstFreeGrows crates) (tree : IndexTree)
    (success : applyOne parentBlockHash blockTimestamp parentBlockTimestamp bump
      ledger first transaction = .ok one) :
    tree.firstFree ledger.state ≤ tree.firstFree one.1.state ∧ ∀ t, one.2 = .regular t →
      tree.range t = (tree.firstFree ledger.state, tree.firstFree one.1.state) := by
  cases transaction with
  | regular transaction =>
    obtain ⟨done, step, rfl⟩ := map_success success
    obtain ⟨range, moved⟩ := applyRegular_range grows tree step
    refine ⟨moved, fun t same => ?_⟩
    cases same
    exact range
  | system transaction =>
    obtain ⟨done, step, rfl⟩ := map_success success
    exact ⟨applySystem_grows grows tree step, nofun⟩

variable (grows : FirstFreeGrows crates) (tree : IndexTree)
  (success : LedgerState.applyEach parentBlockHash blockTimestamp parentBlockTimestamp bump
      ledger first transactions = .ok applied)

include grows success in
/-- Every transaction moves the first free index over a segment, and that of a regular
one is recorded. -/
theorem applyEach_laid :
    ∃ laid : List (Transaction crates × Segment), laid.map Prod.fst = applied.2 ∧
      Tiles (tree.firstFree ledger.state) (laid.map Prod.snd) (tree.firstFree applied.1.state) ∧
      ∀ t segment, (.regular t, segment) ∈ laid → tree.range t = segment := by
  induction transactions generalizing ledger first applied with
  | nil =>
    cases success
    exact ⟨[], rfl, rfl, by simp⟩
  | cons transaction rest ih =>
    obtain ⟨one, later, step, tail, rfl⟩ := applyEach_cons_success success
    obtain ⟨laid, outputs, tiles, recorded⟩ := ih tail
    obtain ⟨moved, own⟩ := applyOne_grows grows tree step
    refine ⟨(one.2, (tree.firstFree ledger.state, tree.firstFree one.1.state)) :: laid,
      by rw [map_cons, outputs], ⟨rfl, moved, tiles⟩, ?_⟩
    intro t segment member
    rcases mem_cons.mp member with same | old
    · obtain ⟨is_t, rfl⟩ := Prod.mk.inj same
      exact own t is_t.symm
    · exact recorded t segment old

include grows success in
theorem applyEach_range_le (t : RegularTransaction crates) (member : .regular t ∈ applied.2) :
    (tree.range t).1 ≤ (tree.range t).2 := by
  refine (applyEach_keeps (fun _ => True)
    (fun t => (tree.range t).1 ≤ (tree.range t).2) ?_ (fun _ _ _ _ _ => trivial) trivial
    success).2 t member
  intro ledger transaction time applied _ step
  obtain ⟨range, moved⟩ := applyRegular_range grows tree step
  rw [range]
  exact ⟨trivial, moved⟩

theorem applyOne_recorded
    (success : applyOne parentBlockHash blockTimestamp parentBlockTimestamp bump
      ledger first transaction = .ok one) : recordedKey one.2 = nodeKey transaction := by
  cases transaction with
  | regular transaction =>
    obtain ⟨done, step, rfl⟩ := map_success success
    obtain ⟨_, _, _, _, _, _, hash, _⟩ := applyRegular_success step
    rw [recordedKey, nodeKey, hash]
  | system transaction =>
    obtain ⟨done, step, rfl⟩ := map_success success
    obtain ⟨_, _, _, _, _, _, hash⟩ := applySystem_success step
    rw [recordedKey, nodeKey, hash]

theorem applyEach_recorded
    (success : applyEach parentBlockHash blockTimestamp parentBlockTimestamp bump
      ledger first transactions = .ok applied) :
    applied.2.map recordedKey = transactions.map nodeKey := by
  induction transactions generalizing ledger first applied with
  | nil =>
    cases success
    rfl
  | cons transaction rest ih =>
    obtain ⟨one, later, step, tail, rfl⟩ := applyEach_cons_success success
    rw [map_cons, map_cons, ih tail, applyOne_recorded step]

include grows success in
theorem applyEach_pair {front between back : List (Transaction crates)}
    {t u : RegularTransaction crates}
    (shape : applied.2 = front ++ .regular t :: (between ++ .regular u :: back)) :
    (tree.range t).1 ≤ (tree.range t).2 ∧ (tree.range t).2 ≤ (tree.range u).1 ∧
      (between = [] → (tree.range t).2 = (tree.range u).1) := by
  obtain ⟨laid, outputs, tiles, recorded⟩ := applyEach_laid grows tree success
  rw [shape, map_eq_append_iff] at outputs
  obtain ⟨before, later, rfl, _, outputs⟩ := outputs
  obtain ⟨early, later, rfl, early_is, outputs⟩ := map_eq_cons_iff.mp outputs
  obtain ⟨middle, later, rfl, middle_is, outputs⟩ := map_eq_append_iff.mp outputs
  obtain ⟨late, after, rfl, late_is, _⟩ := map_eq_cons_iff.mp outputs
  have first_range : tree.range t = early.2 := recorded t early.2 (by simp [← early_is])
  have second_range : tree.range u = late.2 := recorded u late.2 (by simp [← late_is])
  simp only [map_append, map_cons] at tiles
  rw [first_range, second_range]
  obtain ⟨inside, ordered, adjacent⟩ := tiles.pair
  refine ⟨inside, ordered, fun empty => adjacent ?_⟩
  rw [empty] at middle_is
  rw [map_eq_nil_iff.mp middle_is, map_nil]

end

/-- Applying the transactions of a block is applying them at the times that follow from
their positions: the bumped parent time for the first regular one of a block that is not
the genesis, the block's time for all others. The transactions are recorded in order, and
the ranges of every tree are ordered and disjoint, with a gap between consecutive regular
transactions only if system transactions lie between them. -/
theorem block_transactions_ranged (grows : FirstFreeGrows crates) (ledger : LedgerState crates)
    (transactions : List (NodeTransaction crates)) (parentBlockHash : ByteVec)
    (blockTimestamp parentBlockTimestamp height : UInt64) :
    let result := ledger.applyTransactions transactions parentBlockHash blockTimestamp
      parentBlockTimestamp (decide (0 < height))
    result = applyTransactionsAt ledger
        (withTimes height blockTimestamp parentBlockTimestamp transactions) parentBlockHash
        blockTimestamp parentBlockTimestamp ∧
      ∀ applied, result = .ok applied →
        applied.2.1.map recordedKey = transactions.map nodeKey ∧
        ∀ tree : IndexTree,
          (∀ t, .regular t ∈ applied.2.1 → (tree.range t).1 ≤ (tree.range t).2) ∧
          ∀ front t between u back,
            applied.2.1 = front ++ .regular t :: (between ++ .regular u :: back) →
              (tree.range t).2 ≤ (tree.range u).1 ∧
              (indices [tree.range t]).Disjoint (indices [tree.range u]) ∧
              ((∀ w, .regular w ∉ between) → (tree.range t).2 ≠ (tree.range u).1 →
                ∃ system, .system system ∈ between) := by
  refine ⟨applyTransactions_eq height ledger transactions parentBlockHash blockTimestamp
    parentBlockTimestamp, fun applied success => ?_⟩
  obtain ⟨each, loop, success⟩ := bind_success success
  obtain ⟨finalized, _, success⟩ := bind_success success
  cases success
  refine ⟨applyEach_recorded loop, fun tree => ⟨applyEach_range_le grows tree loop, ?_⟩⟩
  intro front t between u back shape
  obtain ⟨_, ordered, adjacent⟩ := applyEach_pair grows tree loop shape
  refine ⟨ordered, ?_, fun consecutive gap => ?_⟩
  · intro index early late
    rw [mem_indices_singleton] at early late
    omega
  · cases between with
    | nil => exact absurd (adjacent rfl) gap
    | cons first rest =>
      cases first with
      | regular w => exact absurd List.mem_cons_self (consecutive w)
      | system system => exact ⟨system, List.mem_cons_self⟩

/-- A ledger whose system transactions also take indices. -/
def takingCrates : LedgerCrates :=
  { RestartEquivalence.sampleCrates with
    applySystem := fun (state transaction : ByteVec) _ => some (state ++ transaction, [])
    dustCommitmentsFirstFree := List.length
    dustGenerationsFirstFree := fun state => 2 * List.length state }

theorem takingCrates_grows : FirstFreeGrows takingCrates := by
  have appended : ∀ (tree : IndexTree) (version : LedgerVersion) (state more : ByteVec),
      @IndexTree.firstFree takingCrates version tree state ≤
        @IndexTree.firstFree takingCrates version tree (state ++ more) := by
    intro tree version state more
    have longer : state.length ≤ (state ++ more).length := by simp
    cases tree with
    | zswap | dustCommitment => exact longer
    | dustGeneration => exact Nat.mul_le_mul_left 2 longer
  constructor
  · intro tree version state transaction context
    exact appended tree version state _
  · intro tree version state transaction tblock applied success
    cases success
    exact appended tree version state _

/-- A block of height 1 at 20 s over a parent at 6 s. -/
def rangedTransactions : List (NodeTransaction takingCrates) :=
  let version : ProtocolVersion := .first .V1_0
  let regular (n : UInt8) : NodeTransaction takingCrates := .regular ⟨[n], version, [], [], []⟩
  let system (n : UInt8) (raw : ByteVec) : NodeTransaction takingCrates :=
    .system ⟨[n], version, raw⟩
  [system 1 [7], regular 2, regular 3, system 4 [7, 7], regular 5]

def rangesOf (tree : IndexTree) (transactions : List (Transaction takingCrates)) : List Segment :=
  transactions.filterMap fun
    | .regular t => some (tree.range t)
    | .system _ => none

/-- The state lists the times: 18 s for the first regular transaction, 20 s for the others. -/
theorem block_transactions_ranged_sample :
    ∃ applied, LedgerState.applyTransactions ⟨.V8, [], default⟩ rangedTransactions [] 20000 6000
        (decide (0 < (1 : UInt64))) = .ok applied ∧
      applied.1 = ⟨.V8, [7, 18, 6, 20, 6, 7, 7, 20, 6, 5], default⟩ ∧
      rangesOf .zswap applied.2.1 = [(1, 3), (3, 5), (7, 9)] ∧
      rangesOf .dustGeneration applied.2.1 = [(2, 6), (6, 10), (14, 18)] ∧
      ∀ tree : IndexTree, ∀ t, .regular t ∈ applied.2.1 → (tree.range t).1 ≤ (tree.range t).2 :=
  ⟨_, rfl, rfl, rfl, rfl, fun tree =>
    (((block_transactions_ranged takingCrates_grows ⟨.V8, [], default⟩ rangedTransactions [] 20000
      6000 1).2 _ rfl).2 tree).1⟩

end MidnightIndexer.Guarantees.TransactionRanges
