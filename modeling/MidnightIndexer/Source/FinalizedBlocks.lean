import MidnightIndexer.Lib.TryStream
import MidnightIndexer.Source.BlockAuthor
import MidnightIndexer.Source.NodeBlocks

/-!
# Finalized blocks of a node

chain-indexer/src/infra/subxt_node.rs:136-183, 185-350 and 387-527, and the
`NewSession` case of `make_block_details` in its runtimes. A stream first catches
up to the first finalized block it receives, by height up to a safe distance and
by hash from there on, and then makes every block it receives. One cache of the
authority set goes through all of it.

A block is what the node serves at it: header, storage and events. Everything
that `make_block` reads and does not use for the author or for the links is
`details`. The walk by hash has a fuel argument, since it ends only if the node's
parent links lead to the stop hash or to genesis.
-/

namespace MidnightIndexer.Source

open Lib

inductive SubxtNodeError (Hash : Type) where
  | receiveBlock
  | getOnlineClientAt (hash : Hash)
  | getOnlineClientAtHeight (height : Nat)
  | parentHashMismatch (height : Nat) (expected actual : Hash)
  | fetchAuthorities
  | digest (error : DigestError)
  | blockDetails
  /-- Not an error of the source: the walk has used up its fuel. -/
  | unfinished
  deriving DecidableEq

structure SubxtBlock (Hash Author Details : Type) where
  hash : Hash
  number : Nat
  parentHash : Hash
  digestLogs : List DigestItem
  contentNodeVersion : NodeVersion
  babeSupported : Bool
  /-- The authority set in the block's state. -/
  authorities : Except (SubxtNodeError Hash) (List Author)
  /-- Its events hold a `NewSession`. -/
  newSession : Bool
  details : Except (SubxtNodeError Hash) Details

/-- The part of a made block that is not its links. -/
structure BlockContent (Author Details : Type) where
  author : Option Author
  details : Details
  deriving DecidableEq

structure SubxtNode (Hash Author Details : Type) where
  genesisHash : Hash
  blockAt : Hash → Except (SubxtNodeError Hash) (SubxtBlock Hash Author Details)
  blockAtHeight : Nat → Except (SubxtNodeError Hash) (SubxtBlock Hash Author Details)

/-- Blocks within this distance of the first finalized block are fetched by hash. -/
def finalizationSafetyMargin : Nat := 400

variable {Hash Author Details : Type}

abbrev BlockStream (Hash Author Details α : Type) :=
  TryStream (SubxtNodeError Hash) (Block Hash (BlockContent Author Details)) α

def extractBlockAuthor (block : SubxtBlock Hash Author Details) (authorities : List Author) :
    Except DigestError (Option Author) :=
  authorFromDigestLogs block.digestLogs authorities block.contentNodeVersion block.babeSupported

/-- Fetch the authority set if there is none, initially or after a `NewSession`. -/
def fetchIfNone (cache : Option (List Author)) (block : SubxtBlock Hash Author Details) :
    Except (SubxtNodeError Hash) (List Author) :=
  match cache with
  | some authorities => .ok authorities
  | none => block.authorities

/-- `make_block`. The cache is filled before the author is derived and cleared by
a `NewSession` after it. -/
def makeBlock (cache : Option (List Author)) (block : SubxtBlock Hash Author Details) :
    Except (SubxtNodeError Hash)
      (Block Hash (BlockContent Author Details) × Option (List Author)) := do
  let authorities ← fetchIfNone cache block
  let author ← (extractBlockAuthor block authorities).mapError .digest
  let details ← block.details
  return (⟨block.hash, block.number, block.parentHash, ⟨author, details⟩⟩,
    if block.newSession then none else some authorities)

def makeAndYield (cache : Option (List Author)) (block : SubxtBlock Hash Author Details) :
    BlockStream Hash Author Details (Option (List Author)) := do
  let (made, cache) ← TryStream.lift (makeBlock cache block)
  TryStream.yield made
  return cache

variable [DecidableEq Hash] [Inhabited Hash]

def verifyParent (height : Nat) (lastForwardHash : Option Hash)
    (made : Block Hash (BlockContent Author Details)) : Except (SubxtNodeError Hash) Unit :=
  match lastForwardHash with
  | some expected =>
    if made.parentHash ≠ expected then .error (.parentHashMismatch height expected made.parentHash)
    else .ok ()
  | none => .ok ()

/-- The blocks of the given heights, each verified against the one before it. -/
def fetchForward (node : SubxtNode Hash Author Details) :
    List Nat → Option Hash → Option (List Author) →
      BlockStream Hash Author Details (Option Hash × Option (List Author))
  | [], lastForwardHash, cache => return (lastForwardHash, cache)
  | height :: rest, lastForwardHash, cache => do
    let block ← TryStream.lift (node.blockAtHeight height)
    let (made, cache) ← TryStream.lift (makeBlock cache block)
    TryStream.lift (verifyParent height lastForwardHash made)
    TryStream.yield made
    fetchForward node rest (some block.hash) cache

def walkBack (node : SubxtNode Hash Author Details) (stopHash genesisParentHash : Hash) :
    Nat → Hash → List Hash → Except (SubxtNodeError Hash) (List Hash)
  | 0, _, _ => .error .unfinished
  | fuel + 1, parentHash, hashes =>
    if parentHash ≠ stopHash ∧ parentHash ≠ genesisParentHash then
      match node.blockAt parentHash with
      | .error e => .error e
      | .ok parent =>
        walkBack node stopHash genesisParentHash fuel parent.parentHash (hashes ++ [parent.hash])
    else .ok hashes

def replay (node : SubxtNode Hash Author Details) :
    List Hash → Option (List Author) → BlockStream Hash Author Details (Option (List Author))
  | [], cache => return cache
  | hash :: rest, cache => do
    let block ← TryStream.lift (node.blockAt hash)
    let cache ← makeAndYield cache block
    replay node rest cache

def startHeight (after : Option (BlockRef Hash)) : Nat :=
  ((after.map BlockRef.height).map (· + 1)).getD 0

/-- From the block after `after` up to the first finalized block. -/
def catchUp (fuel : Nat) (node : SubxtNode Hash Author Details) (after : Option (BlockRef Hash))
    (first : SubxtBlock Hash Author Details) :
    BlockStream Hash Author Details (Option (List Author)) := do
  let endHeight := first.number
  let safeHeight := max (endHeight - finalizationSafetyMargin) (startHeight after)
  let (lastForwardHash, cache) ← fetchForward node
    (List.range' (startHeight after) (safeHeight - startHeight after))
    (after.map BlockRef.hash) none
  let stopHash := lastForwardHash.getD (highestHash after)
  let genesis ← TryStream.lift (node.blockAt node.genesisHash)
  let hashes ← TryStream.lift (walkBack node stopHash genesis.parentHash fuel first.parentHash [])
  let cache ← replay node hashes.reverse cache
  let block ← TryStream.lift (node.blockAt first.hash)
  makeAndYield cache block

/-- What the node's subscription delivers. -/
inductive Delivery (Hash Author Details : Type) where
  | block (block : SubxtBlock Hash Author Details)
  | disconnected
  | failed

/-- `subscribe_finalized_blocks`: without duplicates and disconnects. -/
def subscribeFinalizedBlocks :
    Option Nat → List (Delivery Hash Author Details) →
      List (Except (SubxtNodeError Hash) (SubxtBlock Hash Author Details))
  | _, [] => []
  | lastHeight, .block block :: rest =>
    if lastHeight.any (block.number ≤ ·) then subscribeFinalizedBlocks lastHeight rest
    else .ok block :: subscribeFinalizedBlocks (some block.number) rest
  | lastHeight, .disconnected :: rest => subscribeFinalizedBlocks lastHeight rest
  | lastHeight, .failed :: rest => .error .receiveBlock :: subscribeFinalizedBlocks lastHeight rest

def makeReceived (node : SubxtNode Hash Author Details) :
    List (Except (SubxtNodeError Hash) (SubxtBlock Hash Author Details)) →
      Option (List Author) → Option Nat →
        BlockStream Hash Author Details (Option (List Author) × Option Nat)
  | [], cache, lastYielded => return (cache, lastYielded)
  | .error e :: _, _, _ => TryStream.fail e
  | .ok received :: rest, cache, _ => do
    let block ← TryStream.lift (node.blockAt received.hash)
    let cache ← makeAndYield cache block
    makeReceived node rest cache (some block.number)

/-- Every later subscription follows a timeout of the one before it. -/
def resubscribe (node : SubxtNode Hash Author Details) :
    List (List (Delivery Hash Author Details)) → Option (List Author) → Option Nat →
      BlockStream Hash Author Details Unit
  | [], _, _ => return
  | deliveries :: later, cache, lastYielded => do
    let (cache, lastYielded) ← makeReceived node
      (subscribeFinalizedBlocks lastYielded deliveries) cache lastYielded
    resubscribe node later cache lastYielded

/-- Catch up, unless the stored block is the first finalized one. -/
def catchUpFrom (fuel : Nat) (node : SubxtNode Hash Author Details)
    (after : Option (BlockRef Hash)) (first : SubxtBlock Hash Author Details) :
    BlockStream Hash Author Details (Option (List Author) × Option Nat) :=
  if first.hash ≠ highestHash after then do
    let cache ← catchUp fuel node after first
    return (cache, some first.number)
  else return (none, after.map BlockRef.height)

def finalizedBlocks (fuel : Nat) (node : SubxtNode Hash Author Details)
    (after : Option (BlockRef Hash)) (deliveries : List (Delivery Hash Author Details))
    (later : List (List (Delivery Hash Author Details))) : BlockStream Hash Author Details Unit :=
  match subscribeFinalizedBlocks (after.map BlockRef.height) deliveries with
  | [] => return
  | .error e :: _ => TryStream.fail e
  | .ok first :: received => do
    let (cache, lastYielded) ← catchUpFrom fuel node after first
    let (cache, lastYielded) ← makeReceived node received cache lastYielded
    resubscribe node later cache lastYielded

end MidnightIndexer.Source
