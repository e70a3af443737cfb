import MidnightIndexer.Source.CanonicalChain

/-!
# The catch-up yields the missing blocks

For every stored block on the chain, or none, and every first finalized block that
the subscription delivers: the catch-up ends and yields the blocks of every height
from the one after the stored block up to the first finalized one, in order and
each once. The walk by hash is never longer than the safety margin, so it ends
within a fuel that does not depend on the distance.
-/

namespace MidnightIndexer.Guarantees.CatchUp

open Lib List Source

variable {Hash Author Details : Type}

def between [Inhabited Hash] (chain : CanonicalChain Hash Author Details) (low high : Nat) :
    List (SubxtBlock Hash Author Details) :=
  (chain.blocks.take (high + 1)).drop low

theorem subscribe_head_above {lastHeight : Option Nat}
    {deliveries : List (Delivery Hash Author Details)} {first : SubxtBlock Hash Author Details}
    {received : List (Except (SubxtNodeError Hash) (SubxtBlock Hash Author Details))}
    (delivered : subscribeFinalizedBlocks lastHeight deliveries = .ok first :: received) :
    ∀ height ∈ lastHeight, height < first.number := by
  induction deliveries with
  | nil => cases delivered
  | cons delivery rest ih =>
    cases delivery with
    | block block =>
      rw [subscribeFinalizedBlocks] at delivered
      split at delivered
      next => exact ih delivered
      next above =>
        cases delivered
        intro height found
        rw [Option.mem_def.mp found] at above
        simpa using above
    | disconnected => exact ih delivered
    | failed => cases delivered

section

variable [Inhabited Hash] {chain : CanonicalChain Hash Author Details}
  {after : Option (BlockRef Hash)} {first : SubxtBlock Hash Author Details}

theorem split_at (stored : ∀ ref ∈ after, ∃ block ∈ chain.blocks, block.ref = ref)
    (member : first ∈ chain.blocks) (above : ∀ ref ∈ after, ref.height < first.number) :
    ∃ before missing rest, chain.blocks = before ++ (missing ++ first :: rest) ∧
      after = before.getLast?.map SubxtBlock.ref := by
  obtain ⟨front, rest, split⟩ := append_of_mem member
  have place := chain.number_eq split
  cases after with
  | none => exact ⟨[], front, rest, split, rfl⟩
  | some ref =>
    obtain ⟨block, listed, rfl⟩ := stored ref rfl
    obtain ⟨low, high, found⟩ := append_of_mem listed
    have below : low.length < front.length := by
      rw [← chain.number_eq found, ← place]
      exact above block.ref rfl
    rcases append_eq_append_iff.mp (found.symm.trans split) with
      ⟨missing, front_eq, tail⟩ | ⟨extra, low_eq, _⟩
    · cases missing with
      | nil =>
        rw [front_eq, append_nil] at below
        exact absurd below (Nat.lt_irrefl _)
      | cons next missing =>
        cases tail
        exact ⟨low ++ [block], missing, rest, by simp [split, front_eq], by simp⟩
    · rw [low_eq, length_append] at below
      omega

theorem between_split {before missing rest : List (SubxtBlock Hash Author Details)}
    (split : chain.blocks = before ++ (missing ++ first :: rest)) :
    between chain before.length first.number = missing ++ [first] := by
  have place : chain.blocks = (before ++ (missing ++ [first])) ++ rest := by simp [split]
  have number : first.number + 1 = (before ++ (missing ++ [first])).length := by
    have front : chain.blocks = (before ++ missing) ++ first :: rest := by simp [split]
    rw [chain.number_eq front]
    simp [Nat.add_assoc]
  rw [between, number, place, take_left, drop_left]

/-- For every stored block and every first finalized block that the subscription
delivers, the catch-up ends and its blocks are those of the heights from the one
after the stored block up to the first finalized one. The stream yields them
before everything else. -/
theorem catch_up_exact [DecidableEq Hash] (chain : CanonicalChain Hash Author Details)
    (makeable : ∀ block ∈ chain.blocks, block.Makeable) (after : Option (BlockRef Hash))
    (stored : ∀ ref ∈ after, ∃ block ∈ chain.blocks, block.ref = ref)
    (deliveries : List (Delivery Hash Author Details)) (first : SubxtBlock Hash Author Details)
    (received : List (Except (SubxtNodeError Hash) (SubxtBlock Hash Author Details)))
    (delivered : subscribeFinalizedBlocks (after.map BlockRef.height) deliveries =
      .ok first :: received)
    (member : first ∈ chain.blocks) (node : SubxtNode Hash Author Details)
    (serves : Serves node chain first.number) (fuel : Nat)
    (enough : finalizationSafetyMargin < fuel)
    (later : List (List (Delivery Hash Author Details))) :
    ∃ made cache, catchUp fuel node after first = ⟨made, .ok cache⟩ ∧
      made.map Block.ref =
        (between chain (startHeight after) first.number).map SubxtBlock.ref ∧
      made.map Block.height =
        List.range' (startHeight after) (first.number + 1 - startHeight after) ∧
      made <+: (finalizedBlocks fuel node after deliveries later).items := by
  have above : ∀ ref ∈ after, ref.height < first.number := fun ref found =>
    subscribe_head_above delivered ref.height (Option.mem_map_of_mem _ found)
  obtain ⟨before, missing, rest, split, rfl⟩ := split_at stored member above
  have different := chain.first_ne_after split
  have caught_up := catchUp_eq_makeAll split serves fuel enough
  have makes : ∀ block ∈ missing ++ [first], block.Makeable := by
    intro block listed
    rw [List.mem_append, List.mem_singleton] at listed
    exact makeable block (by simp only [split, List.mem_append, List.mem_cons]; tauto)
  obtain ⟨made, cache, all, refs⟩ := makeAll_total makes none
  have start := chain.startHeight_eq split
  refine ⟨made, cache, caught_up.trans all, ?_, ?_, ?_⟩
  · rw [start, between_split split, refs]
  · have heights := congrArg (List.map BlockRef.height) refs
    rw [List.map_map, List.map_map] at heights
    have regrouped : chain.blocks = before ++ ((missing ++ [first]) ++ rest) := by simp [split]
    have place : chain.blocks = (before ++ missing) ++ first :: rest := by simp [split]
    rw [start, chain.number_eq place]
    calc made.map Block.height = (missing ++ [first]).map SubxtBlock.number := heights
      _ = List.range' before.length (missing ++ [first]).length := chain.numbers_eq regrouped
      _ = _ := by
        congr 1
        simp only [List.length_append, List.length_singleton]
        omega
  · rw [finalizedBlocks, delivered]
    refine List.IsPrefix.trans ?_ (TryStream.items_prefix_bind _ _)
    rw [catchUpFrom, if_pos different, caught_up, all]
    exact List.prefix_append made []

end

theorem catch_up_exact_sample :
    ∃ made cache, catchUp 401 sampleNode (some ⟨1, 0⟩) (sampleBlock 2 [6, 5] false) =
        ⟨made, .ok cache⟩ ∧ made.map Block.height = [1, 2] := by
  obtain ⟨made, cache, caught_up, _, heights, _⟩ := catch_up_exact sampleChain
    sampleChain_makeable (some ⟨1, 0⟩)
    (fun ref found => ⟨sampleBlock 0 [5, 6] false, by simp [sampleChain], Option.mem_some.mp found⟩)
    [.block (sampleBlock 0 [5, 6] false), .block (sampleBlock 2 [6, 5] false)]
    (sampleBlock 2 [6, 5] false) [] rfl (by simp [sampleChain]) sampleNode (sampleNode_serves 2)
    401 (by decide) []
  exact ⟨made, cache, caught_up, heights⟩

end MidnightIndexer.Guarantees.CatchUp
