import MidnightIndexer.Lib.Chain
import MidnightIndexer.Source.NodeBlocks

/-!
# The node blocks form one parent chain

Whatever the node sends: the yielded blocks are linked from the given highest
block, and the block the loop carries as the highest is the last one of them.
Errors in between and reruns change neither. Without cycles among the parent
links of what the node sends, no block comes twice.
-/

namespace MidnightIndexer.Guarantees.ParentChain

open Lib List Source

variable {Hash Content Err : Type} [Inhabited Hash]

structure ChainInvariant (highest : Option (BlockRef Hash)) (s : NodeBlocks Hash Content Err) :
    Prop where
  linked : Chain.Linked Block.hash Block.parentHash (highestHash highest) s.blocks
  carried : highestHash s.highestBlock = Chain.tip Block.hash (highestHash highest) s.blocks

theorem chainInvariant_start (highest : Option (BlockRef Hash)) :
    ChainInvariant highest (nodeBlocks highest : NodeBlocks Hash Content Err) :=
  ⟨trivial, rfl⟩

variable [DecidableEq Hash]

theorem ChainInvariant.step {highest : Option (BlockRef Hash)} {s : NodeBlocks Hash Content Err}
    (invariant : ChainInvariant highest s) (input : NodeInput Hash Content Err) :
    ChainInvariant highest (nodeBlocksStep s input) := by
  rcases nodeBlocksStep_blocks s input with ⟨same, kept⟩ | ⟨block, _, parent, moved, yielded⟩
  · constructor
    · rw [kept]
      exact invariant.linked
    · rw [same, kept]
      exact invariant.carried
  · constructor
    · rw [yielded, Chain.linked_append]
      exact ⟨invariant.linked, parent.trans invariant.carried, trivial⟩
    · rw [moved, yielded, Chain.tip_concat]
      rfl

theorem blocks_subset_sent (s : NodeBlocks Hash Content Err)
    (inputs : List (NodeInput Hash Content Err)) :
    (run nodeBlocksStep s inputs).blocks ⊆ s.blocks ++ sentBlocks inputs := by
  induction inputs generalizing s with
  | nil => simp [sentBlocks]
  | cons input rest ih =>
    apply Subset.trans (ih (nodeBlocksStep s input))
    rcases nodeBlocksStep_blocks s input with ⟨_, kept⟩ | ⟨block, sent, _, _, yielded⟩
    · rw [kept]
      have later : sentBlocks rest ⊆ sentBlocks (input :: rest) :=
        ((sublist_cons_self input rest).filterMap _).subset
      exact append_subset.mpr ⟨subset_append_left _ _, Subset.trans later (subset_append_right _ _)⟩
    · rw [yielded, sent]
      simp [sentBlocks]

/-- For every behaviour of the node the yielded blocks are one parent chain on
top of the given highest block, and none of them comes twice. -/
theorem node_blocks_parent_chain (highest : Option (BlockRef Hash))
    (inputs : List (NodeInput Hash Content Err))
    (acyclic : Chain.Acyclic Block.hash Block.parentHash (sentBlocks inputs)) :
    let blocks := (run nodeBlocksStep (nodeBlocks highest) inputs).blocks
    Chain.Linked Block.hash Block.parentHash (highestHash highest) blocks ∧
      (highestHash highest :: blocks.map Block.hash).Nodup := by
  intro blocks
  have keep : ∀ (s : NodeBlocks Hash Content Err) input, ChainInvariant highest s →
      ChainInvariant highest (nodeBlocksStep s input) := fun _ input kept => kept.step input
  have invariant := run_keeps keep (nodeBlocks highest) inputs (chainInvariant_start highest)
  exact ⟨invariant.linked, invariant.linked.nodup acyclic (blocks_subset_sent _ inputs)⟩

/-- A node that skips a block, fails, repeats itself and forks, over two reruns. -/
def sampleStreams : List (NodeInput Nat Unit Unit) :=
  let block (hash parent : Nat) : NodeInput Nat Unit Unit := .next (.ok ⟨hash, 0, parent, ()⟩)
  [.rerun, block 1 0, block 3 2, .rerun, .next (.error ()), block 2 1, block 2 1, .rerun,
    block 3 2, block 4 2, .rerun, .ended]

theorem node_blocks_parent_chain_sample :
    let blocks := (run nodeBlocksStep (nodeBlocks none) sampleStreams).blocks
    blocks.map Block.hash = [1, 2, 3] ∧
      Chain.Linked Block.hash Block.parentHash 0 blocks ∧ (0 :: blocks.map Block.hash).Nodup :=
  ⟨by decide, node_blocks_parent_chain none sampleStreams
    (Chain.acyclic_of_rank id (by decide))⟩

end MidnightIndexer.Guarantees.ParentChain
