import MidnightIndexer.Lib.Chain
import MidnightIndexer.Lib.Outcome
import MidnightIndexer.Source.FinalizedBlocks

/-!
# Finalized blocks over a canonical chain

On a canonical chain that the node serves, each fetch strategy of the catch-up
comes to the same: make the blocks of a stretch of the chain in their order.
`makeAll` is that meaning, and the catch-up over both strategies is `makeAll` of
everything between the stored block and the first finalized one.
-/

namespace MidnightIndexer.Source

open Lib List SubxtBlock Chain

variable {Hash Author Details : Type}

def SubxtBlock.ref (block : SubxtBlock Hash Author Details) : BlockRef Hash :=
  ⟨block.hash, block.number⟩

/-- Parent links without a cycle, from genesis on. The zero hash stands for no
block and is the hash of none. -/
structure CanonicalChain (Hash Author Details : Type) [Inhabited Hash] where
  genesisParentHash : Hash
  blocks : List (SubxtBlock Hash Author Details)
  linked : Chain.Linked SubxtBlock.hash SubxtBlock.parentHash genesisParentHash blocks
  numbered : blocks.map SubxtBlock.number = List.range blocks.length
  distinct : (genesisParentHash :: blocks.map SubxtBlock.hash).Nodup
  nonzero : default ∉ blocks.map SubxtBlock.hash

/-- The node answers from the chain: every block by its hash, and those below the
tip by their height. -/
structure Serves [Inhabited Hash] (node : SubxtNode Hash Author Details)
    (chain : CanonicalChain Hash Author Details) (tip : Nat) : Prop where
  genesis : chain.blocks.head?.map SubxtBlock.hash = some node.genesisHash
  byHash : ∀ block ∈ chain.blocks, node.blockAt block.hash = .ok block
  byHeight : ∀ block ∈ chain.blocks, block.number < tip →
    node.blockAtHeight block.number = .ok block

/-- Make the blocks in order, with one cache. -/
def makeAll : List (SubxtBlock Hash Author Details) → Option (List Author) →
    BlockStream Hash Author Details (Option (List Author))
  | [], cache => return cache
  | block :: rest, cache => do
    let cache ← makeAndYield cache block
    makeAll rest cache

theorem makeAll_append (xs ys : List (SubxtBlock Hash Author Details))
    (cache : Option (List Author)) :
    makeAll (xs ++ ys) cache = makeAll xs cache >>= makeAll ys := by
  induction xs generalizing cache with
  | nil => rfl
  | cons block rest ih =>
    rw [cons_append, makeAll, makeAll, bind_assoc]
    congr 1
    funext cache
    exact ih cache

variable {cache next : Option (List Author)} {block : SubxtBlock Hash Author Details}
  {made : Block Hash (BlockContent Author Details)}

theorem makeBlock_links (success : makeBlock cache block = .ok (made, next)) :
    made.ref = block.ref ∧ made.parentHash = block.parentHash := by
  obtain ⟨authorities, _, author, _, details, _, success⟩ := bind₃_success success
  cases success
  exact ⟨rfl, rfl⟩

/-- Everything `make_block` reads of the block can be read and decoded. -/
structure SubxtBlock.Makeable (block : SubxtBlock Hash Author Details) : Prop where
  authorities : ∃ authorities, block.authorities = .ok authorities
  digests : ∀ log ∈ block.digestLogs,
    DigestDecodes block.contentNodeVersion block.babeSupported log
  details : ∃ details, block.details = .ok details

theorem SubxtBlock.Makeable.makeBlock (makeable : block.Makeable) (cache : Option (List Author)) :
    ∃ made next, makeBlock cache block = .ok (made, next) := by
  obtain ⟨details, read⟩ := makeable.details
  have fetched : ∃ authorities, fetchIfNone cache block = .ok authorities := by
    cases cache with
    | none => exact makeable.authorities
    | some authorities => exact ⟨authorities, rfl⟩
  obtain ⟨authorities, fetched⟩ := fetched
  obtain ⟨author, derived⟩ : ∃ author, extractBlockAuthor block authorities = .ok author :=
    authorFromDigestLogs_total makeable.digests authorities
  refine ⟨⟨block.hash, block.number, block.parentHash, ⟨author, details⟩⟩,
    if block.newSession then none else some authorities, ?_⟩
  simp only [Source.makeBlock, fetched, bind, Except.bind, derived, read]
  rfl

theorem makeAndYield_of_ok (success : makeBlock cache block = .ok (made, next)) :
    makeAndYield cache block = ⟨[made], .ok next⟩ := by
  rw [makeAndYield, success]
  rfl

/-- Blocks that can be made are all yielded, in order. -/
theorem makeAll_total {blocks : List (SubxtBlock Hash Author Details)}
    (makeable : ∀ block ∈ blocks, block.Makeable) (cache : Option (List Author)) :
    ∃ made next, makeAll blocks cache = ⟨made, .ok next⟩ ∧ made.map Block.ref = blocks.map ref := by
  induction blocks generalizing cache with
  | nil => exact ⟨[], cache, rfl, rfl⟩
  | cons block rest ih =>
    obtain ⟨made, next, success⟩ := (makeable block mem_cons_self).makeBlock cache
    obtain ⟨later, last, all, refs⟩ :=
      ih (fun other member => makeable other (mem_cons_of_mem block member)) next
    refine ⟨made :: later, last, ?_, ?_⟩
    · rw [makeAll, makeAndYield_of_ok success]
      change (⟨[made] ++ (makeAll rest next).items, (makeAll rest next).outcome⟩ :
        BlockStream Hash Author Details (Option (List Author))) = _
      rw [all]
      rfl
    · rw [map_cons, map_cons, refs, (makeBlock_links success).1]

theorem replay_eq_makeAll (node : SubxtNode Hash Author Details)
    (blocks : List (SubxtBlock Hash Author Details)) (cache : Option (List Author))
    (served : ∀ block ∈ blocks, node.blockAt block.hash = .ok block) :
    replay node (blocks.map hash) cache = makeAll blocks cache := by
  induction blocks generalizing cache with
  | nil => rfl
  | cons block rest ih =>
    rw [map_cons, replay, makeAll, served block mem_cons_self, TryStream.lift_ok_bind]
    congr 1
    funext cache
    exact ih cache fun other member => served other (mem_cons_of_mem block member)

section

variable [DecidableEq Hash]
  (node : SubxtNode Hash Author Details) (blocks : List (SubxtBlock Hash Author Details))

include node blocks

/-- The fetch by height makes a linked stretch, and returns the hash of its last
block. -/
theorem fetchForward_eq_makeAll {start : Hash} (last : Option Hash) (cache : Option (List Author))
    (linked : Chain.Linked hash parentHash start blocks)
    (first : ∀ expected ∈ last, expected = start)
    (served : ∀ block ∈ blocks, node.blockAtHeight block.number = .ok block) :
    fetchForward node (blocks.map number) last cache = makeAll blocks cache >>= fun cache =>
        pure ((blocks.getLast?.map hash).or last, cache) := by
  induction blocks generalizing start last cache with
  | nil => rfl
  | cons block rest ih =>
    obtain ⟨parent, linked⟩ := linked
    rw [map_cons, fetchForward, makeAll, served block mem_cons_self, TryStream.lift_ok_bind]
    cases making : makeBlock cache block with
    | error e =>
      rw [makeAndYield, making]
      rfl
    | ok result =>
      obtain ⟨made, next⟩ := result
      have verified : verifyParent block.number last made = .ok () := by
        cases last with
        | none => rfl
        | some expected =>
          rw [verifyParent, if_neg]
          rw [(makeBlock_links making).2, parent, first expected rfl]
          exact fun different => different rfl
      have later := ih (some block.hash) next linked (by simp)
        fun other member => served other (mem_cons_of_mem block member)
      rw [TryStream.lift_ok_bind]
      dsimp only
      rw [verified, TryStream.lift_ok_bind, later, makeAndYield_of_ok making, last_or_cons,
        bind_assoc]
      rfl

/-- The walk by hash collects a linked stretch from its tip down to its start. -/
theorem walkBack_linked {stopHash genesisParentHash start : Hash} (collected : List Hash)
    (fuel : Nat) (linked : Chain.Linked hash parentHash start blocks)
    (served : ∀ block ∈ blocks, node.blockAt block.hash = .ok block)
    (inside : ∀ block ∈ blocks, block.hash ≠ stopHash ∧ block.hash ≠ genesisParentHash)
    (ends : start = stopHash ∨ start = genesisParentHash) (enough : blocks.length < fuel) :
    walkBack node stopHash genesisParentHash fuel (tip hash start blocks) collected =
      .ok (collected ++ (blocks.map hash).reverse) := by
  induction blocks using reverseRecOn generalizing collected fuel with
  | nil =>
    obtain ⟨fuel, rfl⟩ := Nat.exists_eq_add_one.mpr enough
    rw [tip_nil, walkBack, if_neg (by tauto)]
    simp
  | append_singleton front block ih =>
    obtain ⟨fuel, rfl⟩ := Nat.exists_eq_add_one.mpr (Nat.zero_lt_of_lt enough)
    have last : block ∈ front ++ [block] := by simp
    obtain ⟨front_linked, parent, _⟩ := linked_append.mp linked
    rw [tip_concat, walkBack, if_pos (inside block last), served block last]
    dsimp only
    rw [parent, ih (collected ++ [block.hash]) fuel front_linked]
    · simp
    · exact fun other member => served other (by simp [member])
    · exact fun other member => inside other (by simp [member])
    · rw [length_append, length_singleton] at enough
      omega

end

section

variable [Inhabited Hash] {chain : CanonicalChain Hash Author Details}
  {before between rest : List (SubxtBlock Hash Author Details)}

theorem CanonicalChain.number_eq (split : chain.blocks = before ++ block :: rest) :
    block.number = before.length := by
  have numbered := congrArg (fun numbers => numbers[before.length]?) chain.numbered
  simpa [split] using numbered

theorem CanonicalChain.numbers_eq (split : chain.blocks = before ++ (between ++ rest)) :
    between.map number = range' before.length between.length := by
  induction between generalizing before with
  | nil => rfl
  | cons block later ih =>
    have first : chain.blocks = before ++ block :: (later ++ rest) := split
    have next : chain.blocks = (before ++ [block]) ++ (later ++ rest) := by
      rw [split, append_assoc]
      rfl
    rw [map_cons, length_cons, range'_succ, chain.number_eq first, ih next,
      length_append, length_singleton]

theorem CanonicalChain.startHeight_eq (split : chain.blocks = before ++ rest) :
    startHeight (before.getLast?.map ref) = before.length := by
  cases before using reverseRecOn with
  | nil => rfl
  | append_singleton front last _ =>
    have place : chain.blocks = front ++ last :: rest := by
      rw [split, append_assoc]
      rfl
    simp [startHeight, ref, chain.number_eq place]

variable {forward backward : List (SubxtBlock Hash Author Details)}
  {first : SubxtBlock Hash Author Details} {node : SubxtNode Hash Author Details}

/-- The walk by hash is over a linked stretch that ends at the stop hash, or at
genesis if there is no block below. -/
theorem CanonicalChain.walk_bounds
    (split : chain.blocks = before ++ (forward ++ (backward ++ rest))) :
    let last := (forward.getLast?.map hash).or (before.getLast?.map hash)
    Chain.Linked hash parentHash (last.getD chain.genesisParentHash) (backward ++ rest) ∧
      ∀ block ∈ backward, block.hash ≠ last.getD default ∧
        block.hash ≠ chain.genesisParentHash := by
  intro last
  have joined : last = (before ++ forward).getLast?.map hash := by
    rw [getLast?_append, Option.map_or]
  have linked := chain.linked
  rw [split, ← append_assoc, linked_append] at linked
  have distinct := chain.distinct
  rw [nodup_cons, split, ← append_assoc, map_append, nodup_append] at distinct
  obtain ⟨fresh, _, _, apart⟩ := distinct
  refine ⟨?_, fun block member => ⟨fun same => ?_, fun same => ?_⟩⟩
  · rw [joined]
    exact linked.2
  · rw [joined] at same
    cases found : (before ++ forward).getLast? with
    | none =>
      rw [found] at same
      exact chain.nonzero (mem_map.mpr ⟨block, by simp [split, member], same⟩)
    | some below =>
      rw [found] at same
      exact apart below.hash (mem_map_of_mem (mem_of_getLast? found)) block.hash
        (mem_map_of_mem (by simp [member])) same.symm
  · refine fresh ?_
    rw [← map_append, ← same]
    exact mem_map_of_mem (by simp [member])

theorem Serves.genesis_block {tip : Nat} (serves : Serves node chain tip) :
    ∃ genesis, node.blockAt node.genesisHash = .ok genesis ∧
      genesis.parentHash = chain.genesisParentHash := by
  obtain ⟨genesis, head, hash⟩ := Option.map_eq_some_iff.mp serves.genesis
  obtain ⟨later, blocks⟩ := head?_eq_some_iff.mp head
  have linked := chain.linked
  rw [blocks] at linked
  refine ⟨genesis, ?_, linked.1⟩
  rw [← hash]
  exact serves.byHash genesis (by simp [blocks])

theorem CanonicalChain.forward_linked
    (split : chain.blocks = before ++ (forward ++ (backward ++ rest))) :
    Chain.Linked hash parentHash (tip hash chain.genesisParentHash before) forward := by
  have linked := chain.linked
  rw [split, linked_append, linked_append] at linked
  exact linked.2.1

/-- Both strategies together, with the two stretches given. -/
theorem catchUp_split [DecidableEq Hash]
    (split : chain.blocks = before ++ (forward ++ (backward ++ first :: rest)))
    (serves : Serves node chain first.number) (heights : forward.length =
      max (first.number - finalizationSafetyMargin) before.length - before.length)
    (fuel : Nat) (enough : backward.length < fuel) :
    catchUp fuel node (before.getLast?.map ref) first =
      makeAll (forward ++ (backward ++ [first])) none := by
  have start := chain.startHeight_eq split
  have numbers := chain.numbers_eq split
  obtain ⟨linked, inside⟩ := chain.walk_bounds split
  obtain ⟨linked, parent, _⟩ := linked_append.mp linked
  have served : ∀ block ∈ backward, node.blockAt block.hash = .ok block :=
    fun block member => serves.byHash block (by simp [split, member])
  have hashes : (before.getLast?.map ref).map BlockRef.hash = before.getLast?.map hash := by
    rw [Option.map_map]
    rfl
  have by_height := fetchForward_eq_makeAll node forward (before.getLast?.map hash) none
    (chain.forward_linked split) (fun expected found => ?_) (fun block member => ?_)
  · obtain ⟨genesis, genesis_found, genesis_parent⟩ := serves.genesis_block
    have stop : ∀ last : Option Hash, (last.or (before.getLast?.map hash)).getD
        (highestHash (before.getLast?.map ref)) =
          (last.or (before.getLast?.map hash)).getD default := by
      intro last
      rw [highestHash, hashes]
      cases last <;> cases before.getLast? <;> rfl
    have by_hash := walkBack_linked node backward [] fuel linked served inside
      (by cases (forward.getLast?.map hash).or (before.getLast?.map hash) <;>
        simp) enough
    have listed : first ∈ chain.blocks := by simp [split]
    unfold catchUp
    simp only [start, ← heights, ← numbers, hashes, by_height, bind_assoc, pure_bind]
    rw [makeAll_append]
    congr 1
    funext cache
    rw [genesis_found, TryStream.lift_ok_bind, stop, genesis_parent, parent, by_hash,
      TryStream.lift_ok_bind, nil_append, reverse_reverse,
      replay_eq_makeAll node backward cache served, makeAll_append]
    congr 1
    funext cache
    rw [serves.byHash first listed, TryStream.lift_ok_bind]
    exact (TryStream.bind_pure _).symm
  · rw [Option.mem_def] at found
    rw [tip, found]
    rfl
  · refine serves.byHeight block (by simp [split, member]) ?_
    have place : chain.blocks = (before ++ forward ++ backward) ++ first :: rest := by
      simp [split]
    have number : block.number ∈ forward.map number := mem_map_of_mem member
    rw [numbers, mem_range'_1] at number
    rw [chain.number_eq place, length_append, length_append]
    omega

variable (split : chain.blocks = before ++ (between ++ first :: rest))

include split

/-- A later block of the chain is not the stored one. -/
theorem CanonicalChain.first_ne_after : first.hash ≠ highestHash (before.getLast?.map ref) := by
  intro same
  cases found : before.getLast? with
  | none =>
    rw [found] at same
    exact chain.nonzero (mem_map.mpr ⟨first, by simp [split], same⟩)
  | some below =>
    rw [found] at same
    have distinct := (nodup_cons.mp chain.distinct).2
    rw [split, map_append, nodup_append] at distinct
    exact distinct.2.2 below.hash (mem_map_of_mem (mem_of_getLast? found)) first.hash
      (mem_map_of_mem (by simp)) same.symm

/-- The catch-up makes every block after the stored one up to the first finalized
one, in chain order. -/
theorem catchUp_eq_makeAll [DecidableEq Hash] (serves : Serves node chain first.number)
    (fuel : Nat) (enough : finalizationSafetyMargin < fuel) :
    catchUp fuel node (before.getLast?.map ref) first = makeAll (between ++ [first]) none := by
  have place : chain.blocks = (before ++ between) ++ first :: rest := by simp [split]
  have number := chain.number_eq place
  rw [length_append] at number
  let near := max (first.number - finalizationSafetyMargin) before.length - before.length
  have parts : between = between.take near ++ between.drop near :=
    (take_append_drop near between).symm
  rw [parts, append_assoc] at split ⊢
  refine catchUp_split split serves ?_ fuel ?_
  · rw [length_take]
    omega
  · rw [length_drop]
    omega

end

/-- A block of hash `number + 1` in slot 0. -/
def sampleBlock (number : Nat) (authorities : List Nat) (newSession : Bool) :
    SubxtBlock Nat Nat Unit where
  hash := number + 1
  number := number
  parentHash := number
  digestLogs := [.preRuntime .aura (List.replicate 8 0)]
  contentNodeVersion := .V1_0
  babeSupported := false
  authorities := .ok authorities
  newSession := newSession
  details := .ok ()

theorem sampleBlock_makeable (number : Nat) (authorities : List Nat) (newSession : Bool) :
    (sampleBlock number authorities newSession).Makeable where
  authorities := ⟨authorities, rfl⟩
  digests := by
    intro log member
    rw [mem_singleton.mp member]
    exact ⟨0, rfl⟩
  details := ⟨(), rfl⟩

/-- Three blocks, with a session change in the second. -/
def sampleChain : CanonicalChain Nat Nat Unit where
  genesisParentHash := 0
  blocks := [sampleBlock 0 [5, 6] false, sampleBlock 1 [6, 5] true, sampleBlock 2 [6, 5] false]
  linked := ⟨rfl, rfl, rfl, trivial⟩
  numbered := rfl
  distinct := by decide
  nonzero := by decide

def sampleNode : SubxtNode Nat Nat Unit where
  genesisHash := 1
  blockAt hash :=
    match sampleChain.blocks.find? (fun block => block.hash = hash) with
    | some block => .ok block
    | none => .error (.getOnlineClientAt hash)
  blockAtHeight height :=
    match sampleChain.blocks.find? (fun block => block.number = height) with
    | some block => .ok block
    | none => .error (.getOnlineClientAtHeight height)

theorem sampleNode_serves (tip : Nat) : Serves sampleNode sampleChain tip where
  genesis := rfl
  byHash := by
    intro block member
    simp only [sampleChain, mem_cons, not_mem_nil, or_false] at member
    rcases member with rfl | rfl | rfl <;> rfl
  byHeight := by
    intro block member _
    simp only [sampleChain, mem_cons, not_mem_nil, or_false] at member
    rcases member with rfl | rfl | rfl <;> rfl

theorem sampleChain_makeable : ∀ block ∈ sampleChain.blocks, block.Makeable := by
  intro block member
  simp only [sampleChain, mem_cons, not_mem_nil, or_false] at member
  rcases member with rfl | rfl | rfl <;> exact sampleBlock_makeable ..

end MidnightIndexer.Source
