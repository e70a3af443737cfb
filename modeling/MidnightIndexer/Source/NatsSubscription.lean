import Mathlib.Data.List.Dedup
import MidnightIndexer.Source.LiveFeeds

/-!
# `unshieldedTransactions` behind the NATS subscriber

indexer-common/src/infra/pub_sub/nats/subscriber.rs:63-88 with the subscription of
indexer-api/src/infra/api/v4/subscription/unshielded.rs:135-217 and the publishes of
chain-indexer/src/application.rs:580-628. `NatsSubscriber::subscribe` returns a
stream that asks the server for the topic when it is polled for the first time.
The subscription polls it only once the existing transactions have been read, and
some time later the request takes effect. From then on NATS delivers every message
in order; what was published before is gone.

The addresses that a block affects are published one by one, in the order of a
hash set, behind the commit.
-/

namespace MidnightIndexer.Source.IndexerApi

open Lib
open ChainIndexer (ByteVec)

/-- The owners of what the transactions create and spend, as a set. -/
def ChainBlock.affectedAddresses (block : ChainBlock) : List ByteVec :=
  ((block.transactions.flatMap fun t => t.createdUtxos ++ t.spentUtxos).map (·.owner)).dedup

/-- The subscription, the addresses whose event is still to be published, and
whether the NATS subscription has taken effect. -/
structure NatsState where
  live : LiveState UnshieldedUtxoIndexed TransactionRow UnshieldedTransaction
  unpublished : List ByteVec
  established : Bool

inductive NatsInput where
  | commit (block : ChainBlock)
  | publish (address : ByteVec)
  | establish
  | poll

namespace NatsState

/-- A block that was saved is followed by its events. -/
def commit (backend : Sql.Backend) (s : NatsState) (block : ChainBlock) : NatsState :=
  let db := s.live.db.commit backend block
  { s with
    live := { s.live with db := db }
    unpublished :=
      if db.blocks = s.live.db.blocks then s.unpublished
      else s.unpublished ++ block.affectedAddresses }

def publish (s : NatsState) (address : ByteVec) : NatsState :=
  if address ∈ s.unpublished then
    { s with
      live :=
        if s.established then { s.live with queue := s.live.queue ++ [⟨address⟩] } else s.live
      unpublished := s.unpublished.erase address }
  else s

/-- The event stream has been polled, so the subscription may take effect. -/
def establish (s : NatsState) : NatsState :=
  if s.live.phase = .waiting then { s with established := true } else s

def step (feed : LiveFeed UnshieldedUtxoIndexed TransactionRow UnshieldedTransaction)
    (backend : Sql.Backend) (s : NatsState) : NatsInput → NatsState
  | .commit block => s.commit backend block
  | .publish address => s.publish address
  | .establish => s.establish
  | .poll => { s with live := feed.poll s.live }

def start (db : ChainDb) (transactionId : Option UInt64) : NatsState :=
  ⟨startUnshieldedTransactions db transactionId, [], false⟩

end NatsState

end MidnightIndexer.Source.IndexerApi
