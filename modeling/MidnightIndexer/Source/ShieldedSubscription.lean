import MidnightIndexer.Source.RelevantTransactions

/-!
# The `shieldedTransactions` subscription among the wallet services

indexer-api/src/infra/api/v4/subscription/shielded.rs:203-327 and the publishes
of wallet-indexer/src/application.rs:275-282 and 333-340. The state is what the
services share (the tables), the commits whose event is still to be published,
the published events the subscription has not taken yet, and the subscription
itself. One poll of the subscription handles one item, one query or one event.

The progress events, the keep-alive and the computation of a collapsed update are
left out; of the update its index range is kept. A process that stops between
commit and publish leaves its event unpublished.
-/

namespace MidnightIndexer.Source

open Lib

/-- Item of the subscription. The collapsed update covers the indices between
the reader's index and the transaction. -/
structure RelevantTransaction where
  transaction : RegularTransaction
  zswapCollapsedUpdate : Option (Nat × Nat)
  deriving DecidableEq

def makeRelevantTransaction (index : Nat) (transaction : RegularTransaction) :
    RelevantTransaction where
  transaction := transaction
  zswapCollapsedUpdate :=
    if index < transaction.zswapStartIndex then some (index, transaction.zswapStartIndex - 1)
    else none

/-- Where the subscription stands: inside a storage stream, whose own cursor and
unread rest of the last page it holds, or between two streams. -/
inductive Phase where
  | streaming (cursor : Nat) (buffer : List RegularTransaction)
  | waiting
  deriving DecidableEq

structure Subscription where
  index : Nat
  phase : Phase
  delivered : List RelevantTransaction
  deriving DecidableEq

/-- The arguments of `make_relevant_transactions`. -/
structure ShieldedParams where
  walletId : Uuid
  index : Nat
  batchSize : NonZeroU32

structure ShieldedState where
  db : WalletDb
  pending : List Uuid
  events : List Uuid
  subscription : Option Subscription

def ShieldedState.empty : ShieldedState := ⟨WalletDb.empty, [], [], none⟩

def ShieldedParams.start (params : ShieldedParams) : Subscription where
  index := params.index
  phase := .streaming params.index []
  delivered := []

/-- One poll: yield the next row of the page, or query the next page, or take the
next event and open a stream if it is for this wallet. -/
def poll (params : ShieldedParams) (db : WalletDb) (events : List Uuid) (sub : Subscription) :
    List Uuid × Subscription :=
  match sub.phase with
  | .streaming cursor (t :: rest) =>
    (events, {
      index := t.zswapEndIndex
      phase := .streaming cursor rest
      delivered := sub.delivered ++ [makeRelevantTransaction sub.index t] })
  | .streaming cursor [] =>
    let page := db.relevantTransactionsPage params.walletId params.batchSize cursor
    match page.getLast? with
    | some last => (events, { sub with phase := .streaming last.zswapEndIndex page })
    | none => (events, { sub with phase := .waiting })
  | .waiting =>
    match events with
    | [] => ([], sub)
    | event :: later =>
      if event = params.walletId then
        (later, { sub with phase := .streaming sub.index [] })
      else (later, sub)

inductive ShieldedInput where
  | wallet (input : WalletInput)
  | publish (walletId : Uuid)
  | subscribe
  | poll

def shieldedStep (env : WalletEnv) (params : ShieldedParams) (s : ShieldedState) :
    ShieldedInput → ShieldedState
  | .wallet (.index call) =>
    match env.indexWallet call s.db with
    | .ok (after, published) =>
      { s with
        db := after
        pending := if published then call.walletId :: s.pending else s.pending }
    | .error _ => s
  | .wallet input => { s with db := walletStep env s.db input }
  | .publish walletId =>
    if walletId ∈ s.pending then
      { s with
        pending := s.pending.erase walletId
        events := if s.subscription.isSome then s.events ++ [walletId] else s.events }
    else s
  | .subscribe =>
    match s.subscription with
    | none => { s with subscription := some params.start }
    | some _ => s
  | .poll =>
    match s.subscription with
    | none => s
    | some sub =>
      let (events, sub) := poll params s.db s.events sub
      { s with events := events, subscription := some sub }

end MidnightIndexer.Source
