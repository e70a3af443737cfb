import MidnightIndexer.Source.CanonicalChain

/-!
# Calls of the finalized blocks stream

A stream is called with the stored block and dropped after any number of yielded
blocks. While it lives the node's subscription delivers the chain: first some
finalized block, then the following ones, over any number of subscriptions. Such a
stream comes to making the blocks after the stored one in chain order.
-/

namespace MidnightIndexer.Source

open Lib List

variable {Hash Author Details : Type}

structure StreamCall (Hash Author Details : Type) where
  after : Option (BlockRef Hash)
  deliveries : List (Delivery Hash Author Details)
  later : List (List (Delivery Hash Author Details))
  /-- How many blocks are yielded before the stream is dropped. -/
  taken : Nat

/-- The blocks that the subscriptions after a timeout deliver. -/
inductive Live : Option Nat → List (List (Delivery Hash Author Details)) →
    List (SubxtBlock Hash Author Details) → Prop where
  | done (lastYielded) : Live lastYielded [] []
  | more {lastYielded deliveries later} {blocks rest : List (SubxtBlock Hash Author Details)}
      (delivered : subscribeFinalizedBlocks lastYielded deliveries = blocks.map .ok)
      (live : Live ((blocks.getLast?.map SubxtBlock.number).or lastYielded) later rest) :
      Live lastYielded (deliveries :: later) (blocks ++ rest)

theorem makeReceived_eq_makeAll (node : SubxtNode Hash Author Details)
    (blocks : List (SubxtBlock Hash Author Details)) (cache : Option (List Author))
    (lastYielded : Option Nat) (served : ∀ block ∈ blocks, node.blockAt block.hash = .ok block) :
    makeReceived node (blocks.map .ok) cache lastYielded = makeAll blocks cache >>= fun cache =>
        pure (cache, (blocks.getLast?.map SubxtBlock.number).or lastYielded) := by
  induction blocks generalizing cache lastYielded with
  | nil => rfl
  | cons block rest ih =>
    rw [map_cons, makeReceived, served block mem_cons_self, TryStream.lift_ok_bind,
      makeAll, bind_assoc, Chain.last_or_cons]
    congr 1
    funext cache
    exact ih cache _ fun other member => served other (mem_cons_of_mem block member)

theorem resubscribe_eq_makeAll {node : SubxtNode Hash Author Details} {lastYielded : Option Nat}
    {later : List (List (Delivery Hash Author Details))}
    {blocks : List (SubxtBlock Hash Author Details)} (live : Live lastYielded later blocks)
    (served : ∀ block ∈ blocks, node.blockAt block.hash = .ok block)
    (cache : Option (List Author)) :
    resubscribe node later cache lastYielded = makeAll blocks cache >>= fun _ => pure () := by
  induction live generalizing cache with
  | done => rfl
  | @more lastYielded deliveries later blocks rest delivered live ih =>
    have now : ∀ block ∈ blocks, node.blockAt block.hash = .ok block :=
      fun block member => served block (mem_append_left rest member)
    rw [resubscribe, delivered, makeReceived_eq_makeAll node blocks cache lastYielded now,
      makeAll_append, bind_assoc, bind_assoc]
    congr 1
    funext cache
    exact ih (fun block member => served block (mem_append_right blocks member)) cache

variable [Inhabited Hash]

/-- The stream called after the blocks `before` meets the chain's `blocks`. -/
structure StreamOf (chain : CanonicalChain Hash Author Details)
    (before : List (SubxtBlock Hash Author Details)) (call : StreamCall Hash Author Details)
    (blocks : List (SubxtBlock Hash Author Details)) : Prop where
  after : call.after = before.getLast?.map SubxtBlock.ref
  inside : ∃ rest, chain.blocks = before ++ (blocks ++ rest)
  delivered : ∃ missing first live later, blocks = missing ++ first :: (live ++ later) ∧
    subscribeFinalizedBlocks (call.after.map BlockRef.height) call.deliveries =
      .ok first :: live.map .ok ∧
    Live ((live.getLast?.map SubxtBlock.number).or (some first.number)) call.later later

theorem Serves.mono {node : SubxtNode Hash Author Details}
    {chain : CanonicalChain Hash Author Details} {low high : Nat} (serves : Serves node chain high)
    (lower : low ≤ high) : Serves node chain low :=
  ⟨serves.genesis, serves.byHash,
    fun block member below => serves.byHeight block member (Nat.lt_of_lt_of_le below lower)⟩

theorem StreamOf.finalizedBlocks_eq [DecidableEq Hash] {chain : CanonicalChain Hash Author Details}
    {before blocks : List (SubxtBlock Hash Author Details)}
    {call : StreamCall Hash Author Details} {node : SubxtNode Hash Author Details}
    (stream : StreamOf chain before call blocks) (serves : Serves node chain chain.blocks.length)
    (fuel : Nat) (enough : finalizationSafetyMargin < fuel) :
    finalizedBlocks fuel node call.after call.deliveries call.later =
      makeAll blocks none >>= fun _ => pure () := by
  obtain ⟨rest, inside⟩ := stream.inside
  obtain ⟨missing, first, live, later, rfl, delivered, resubscribed⟩ := stream.delivered
  have split : chain.blocks = before ++ (missing ++ first :: (live ++ later ++ rest)) := by
    simp [inside]
  have served : ∀ block ∈ live ++ later, node.blockAt block.hash = .ok block := by
    intro block member
    refine serves.byHash block ?_
    rw [split]
    exact mem_append_right _ (mem_append_right _ (mem_cons_of_mem _ (mem_append_left rest member)))
  have low : first.number ≤ chain.blocks.length := by
    have place : chain.blocks = (before ++ missing) ++ first :: (live ++ later ++ rest) := by
      simp [split]
    rw [chain.number_eq place, split]
    simp only [length_append]
    omega
  have caught_up := catchUp_eq_makeAll split (serves.mono low) fuel enough
  have different := chain.first_ne_after split
  rw [finalizedBlocks, delivered]
  dsimp only
  rw [catchUpFrom, stream.after, if_pos different, caught_up, bind_assoc]
  have joined : missing ++ first :: (live ++ later) = (missing ++ [first]) ++ (live ++ later) := by
    simp
  rw [joined, makeAll_append (missing ++ [first]), bind_assoc]
  congr 1
  funext cache
  rw [pure_bind]
  dsimp only
  rw [makeReceived_eq_makeAll node live cache _
      (fun block member => served block (mem_append_left later member)),
    makeAll_append, bind_assoc, bind_assoc]
  congr 1
  funext cache
  exact resubscribe_eq_makeAll resubscribed
    (fun block member => served block (mem_append_right live member)) cache

end MidnightIndexer.Source
