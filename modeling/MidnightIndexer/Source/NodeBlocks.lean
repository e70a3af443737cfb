import MidnightIndexer.Lib.Run

/-!
# The stream of node blocks

chain-indexer/src/application.rs:307-351. `node_blocks` reruns the node's
`finalized_blocks` stream for ever. The node is the environment: it decides the
items of every stream and where a stream ends. The sleep between two reruns is a
phase without an effect.
-/

namespace MidnightIndexer.Source

/-- `node::Block`, with what `finalized_blocks` and `node_blocks` do not read as
its content. -/
structure Block (Hash Content : Type) where
  hash : Hash
  height : Nat
  parentHash : Hash
  content : Content
  deriving DecidableEq

structure BlockRef (Hash : Type) where
  hash : Hash
  height : Nat
  deriving DecidableEq

variable {Hash Content Err : Type}

def Block.ref (block : Block Hash Content) : BlockRef Hash := ⟨block.hash, block.height⟩

inductive NodePhase where
  | sleeping | streaming
  deriving DecidableEq

structure NodeBlocks (Hash Content Err : Type) where
  highestBlock : Option (BlockRef Hash)
  phase : NodePhase
  yielded : List (Except Err (Block Hash Content))

/-- `node_blocks` as it is called. -/
def nodeBlocks (highestBlock : Option (BlockRef Hash)) : NodeBlocks Hash Content Err :=
  ⟨highestBlock, .sleeping, []⟩

inductive NodeInput (Hash Content Err : Type) where
  /-- The loop calls `finalized_blocks` with the highest block. -/
  | rerun
  | next (block : Except Err (Block Hash Content))
  | ended

/-- The hash the next block has to name; the zero hash if there is no block. -/
def highestHash [Inhabited Hash] (highestBlock : Option (BlockRef Hash)) : Hash :=
  (highestBlock.map BlockRef.hash).getD default

def nodeBlocksStep [DecidableEq Hash] [Inhabited Hash] (s : NodeBlocks Hash Content Err)
    (input : NodeInput Hash Content Err) : NodeBlocks Hash Content Err :=
  match s.phase, input with
  | .sleeping, .rerun => { s with phase := .streaming }
  | .streaming, .next (.ok block) =>
    -- an unexpected block ends the stream and is not yielded
    if block.parentHash ≠ highestHash s.highestBlock then { s with phase := .sleeping }
    else { s with highestBlock := some block.ref, yielded := s.yielded ++ [.ok block] }
  | .streaming, .next (.error e) => { s with yielded := s.yielded ++ [.error e] }
  | .streaming, .ended => { s with phase := .sleeping }
  | _, _ => s

/-- The blocks among the yielded items. -/
def NodeBlocks.blocks (s : NodeBlocks Hash Content Err) : List (Block Hash Content) :=
  s.yielded.filterMap fun
    | .ok block => some block
    | .error _ => none

def sentBlocks (inputs : List (NodeInput Hash Content Err)) : List (Block Hash Content) :=
  inputs.filterMap fun
    | .next (.ok block) => some block
    | _ => none

/-- A step yields a block that the node sent on top of the highest one, or no
block at all. -/
theorem nodeBlocksStep_blocks [DecidableEq Hash] [Inhabited Hash] (s : NodeBlocks Hash Content Err)
    (input : NodeInput Hash Content Err) : (nodeBlocksStep s input).highestBlock = s.highestBlock ∧
        (nodeBlocksStep s input).blocks = s.blocks ∨
      ∃ block, input = .next (.ok block) ∧ block.parentHash = highestHash s.highestBlock ∧
        (nodeBlocksStep s input).highestBlock = some block.ref ∧
        (nodeBlocksStep s input).blocks = s.blocks ++ [block] := by
  unfold nodeBlocksStep
  split
  next => exact .inl ⟨rfl, rfl⟩
  next block _ =>
    split
    next => exact .inl ⟨rfl, rfl⟩
    next expected =>
      have parent := Decidable.not_not.mp expected
      exact .inr ⟨block, rfl, parent, rfl, by simp [NodeBlocks.blocks, List.filterMap_append]⟩
  next => exact .inl ⟨rfl, by simp [NodeBlocks.blocks, List.filterMap_append]⟩
  next => exact .inl ⟨rfl, rfl⟩
  next => exact .inl ⟨rfl, rfl⟩

end MidnightIndexer.Source
