import MidnightIndexer.Lib.Broadcast
import MidnightIndexer.Source.IndexBlock
import MidnightIndexer.Source.WalletIndexer

/-!
# The in-memory publisher and subscriber

indexer-common/src/domain/pub_sub.rs:21-105, indexer-common/src/infra/pub_sub/in_mem.rs,
in_mem/publisher.rs and in_mem/subscriber.rs; the publishes of
chain-indexer/src/application.rs:596-639 and the `BlockIndexed` task of
wallet-indexer/src/application.rs:68-97.

There is one broadcast channel for each of three topics. The channels are created
with a capacity of 42; tokio may allocate more, so the capacity is a parameter. The
JSON conversions that serde derives are parameters as well.

A stream borrows the subscriber it came from, so it keeps the channels open by
itself. A drain is the receiver that a channel is created with.
-/

namespace MidnightIndexer.Source.PubSub

open Lib ChainIndexer

/-! ## Messages -/

structure Topic where
  name : String
  deriving DecidableEq, Repr

/-- The types that implement `Message`. -/
inductive MessageType where
  | blockIndexed | walletIndexed | unshieldedUtxoIndexed | bridgeEventIndexed
  deriving DecidableEq, Repr

def MessageType.topic : MessageType → Topic
  | .blockIndexed => ⟨"BlockIndexed"⟩
  | .walletIndexed => ⟨"WalletIndexed"⟩
  | .unshieldedUtxoIndexed => ⟨"UnshieldedUtxoIndexed"⟩
  | .bridgeEventIndexed => ⟨"BridgeEventIndexed"⟩

inductive Message where
  | blockIndexed (height : UInt64) (maxTransactionId : Option UInt64) (caughtUp : Bool)
  | walletIndexed (walletId : Uuid)
  | unshieldedUtxoIndexed (address : ByteVec)
  | bridgeEventIndexed (blockHeight : UInt64) (event : ByteVec)
  deriving DecidableEq

def Message.type : Message → MessageType
  | .blockIndexed .. => .blockIndexed
  | .walletIndexed .. => .walletIndexed
  | .unshieldedUtxoIndexed .. => .unshieldedUtxoIndexed
  | .bridgeEventIndexed .. => .bridgeEventIndexed

/-- `serde_json::to_value` and `serde_json::from_value` at each message type. -/
structure Serde where
  Value : Type
  Error : Type
  toValue : Message → Except Error Value
  fromValue : MessageType → Value → Except Error Message

/-- Every message is converted into a value and back. -/
def Serde.RoundTrips (serde : Serde) : Prop :=
  ∀ message, ∃ value, serde.toValue message = .ok value ∧
    serde.fromValue message.type value = .ok message

variable {serde : Serde}

/-! ## Channels -/

inductive ChannelName where
  | blockIndexed | walletIndexed | unshieldedUtxo
  deriving DecidableEq, Repr

structure InMemPubSub (serde : Serde) where
  blockIndexed : Broadcast serde.Value
  walletIndexed : Broadcast serde.Value
  unshieldedUtxo : Broadcast serde.Value

namespace InMemPubSub

def default (serde : Serde) : InMemPubSub serde := ⟨.new _, .new _, .new _⟩

def channel (pubSub : InMemPubSub serde) : ChannelName → Broadcast serde.Value
  | .blockIndexed => pubSub.blockIndexed
  | .walletIndexed => pubSub.walletIndexed
  | .unshieldedUtxo => pubSub.unshieldedUtxo

def set (pubSub : InMemPubSub serde) (name : ChannelName) (channel : Broadcast serde.Value) :
    InMemPubSub serde :=
  match name with
  | .blockIndexed => { pubSub with blockIndexed := channel }
  | .walletIndexed => { pubSub with walletIndexed := channel }
  | .unshieldedUtxo => { pubSub with unshieldedUtxo := channel }

theorem channel_set (pubSub : InMemPubSub serde) (name other : ChannelName)
    (channel : Broadcast serde.Value) : (pubSub.set name channel).channel other =
      if other = name then channel else pubSub.channel other := by
  cases name <;> cases other <;> rfl

/-- Receivers come and go without a change to what was sent. -/
theorem sent_set {pubSub : InMemPubSub serde} {name : ChannelName} {channel : Broadcast serde.Value}
    (same : channel.sent = (pubSub.channel name).sent) (other : ChannelName) :
    ((pubSub.set name channel).channel other).sent = (pubSub.channel other).sent := by
  rw [channel_set]
  split
  next equal => rw [same, equal]
  next => rfl

end InMemPubSub

/-! ## Publishing -/

/-- The publisher's and the subscriber's errors, and their panics. -/
inductive Failure (serde : Serde) where
  | serialize (cause : serde.Error)
  | send
  | unexpectedTopic (topic : Topic)

/-- The publisher's `match T::TOPIC`; the last arm panics. -/
def publisherChannel : Topic → Option ChannelName
  | ⟨"BlockIndexed"⟩ => some .blockIndexed
  | ⟨"WalletIndexed"⟩ => some .walletIndexed
  | ⟨"UnshieldedUtxoIndexed"⟩ => some .unshieldedUtxo
  | _ => none

def publish (pubSub : InMemPubSub serde) (message : Message) :
    Except (Failure serde) (InMemPubSub serde) := do
  let value ← (serde.toValue message).mapError .serialize
  match publisherChannel message.type.topic with
  | some name =>
    let channel ← okOr ((pubSub.channel name).send value) .send
    return pubSub.set name channel
  | none => .error (.unexpectedTopic message.type.topic)

/-! ## Subscribing -/

inductive SubscriberError (serde : Serde) where
  | receive (lagged : Nat)
  | deserialize (cause : serde.Error)

/-- The subscriber's `match T::TOPIC`; the last arm panics. -/
def subscriberChannel : Topic → Option ChannelName
  | ⟨"BlockIndexed"⟩ => some .blockIndexed
  | ⟨"WalletIndexed"⟩ => some .walletIndexed
  | ⟨"UnshieldedUtxoIndexed"⟩ => some .unshieldedUtxo
  | _ => none

/-- A stream that `subscribe` has returned, with what it has yielded. -/
structure Subscription (serde : Serde) where
  type : MessageType
  channel : ChannelName
  receiver : Broadcast.Receiver
  alive : Bool
  items : List (Except (SubscriberError serde) Message)
  ended : Bool

/-- `BroadcastStream` with the `map` behind it. -/
def Subscription.pollNext (capacity : Nat) (isOpen : Bool) (channel : Broadcast serde.Value)
    (subscription : Subscription serde) : Subscription serde :=
  match channel.recv capacity isOpen subscription.receiver with
  | (receiver, .value value) =>
    { subscription with
      receiver := receiver
      items := subscription.items ++
        [(serde.fromValue subscription.type value).mapError .deserialize] }
  | (receiver, .lagged skipped) =>
    { subscription with
      receiver := receiver
      items := subscription.items ++ [.error (.receive skipped)] }
  | (_, .pending) => subscription
  | (_, .closed) => { subscription with ended := true }

/-! ## The system -/

/-- The handles are the clones of `InMemPubSub` with its publishers and subscribers,
those aside that a stream borrows. `published` are the messages whose publish has
returned. -/
structure PubSubState (serde : Serde) where
  pubSub : InMemPubSub serde
  drains : ChannelName → Option Broadcast.Receiver
  handles : Nat
  subscriptions : List (Subscription serde)
  published : List Message
  failures : List (Failure serde)

inductive PubSubInput where
  | publish (message : Message)
  | subscribe (type : MessageType)
  | poll (index : Nat)
  | unsubscribe (index : Nat)
  | drain (name : ChannelName)
  | clone
  | release

namespace PubSubState

def start (serde : Serde) : PubSubState serde :=
  ⟨.default serde, fun _ => some 0, 1, [], [], []⟩

def isOpen (s : PubSubState serde) : Bool :=
  decide (0 < s.handles) || s.subscriptions.any (·.alive)

def publish (s : PubSubState serde) (message : Message) : PubSubState serde :=
  match PubSub.publish s.pubSub message with
  | .ok pubSub => { s with pubSub := pubSub, published := s.published ++ [message] }
  | .error failure => { s with failures := s.failures ++ [failure] }

def subscribe (s : PubSubState serde) (type : MessageType) : PubSubState serde :=
  match subscriberChannel type.topic with
  | some name =>
    let (channel, receiver) := (s.pubSub.channel name).subscribe
    { s with
      pubSub := s.pubSub.set name channel
      subscriptions := s.subscriptions ++ [⟨type, name, receiver, true, [], false⟩] }
  | none => { s with failures := s.failures ++ [.unexpectedTopic type.topic] }

def poll (capacity : Nat) (s : PubSubState serde) (index : Nat) : PubSubState serde :=
  match s.subscriptions[index]? with
  | some subscription =>
    if subscription.alive then
      let polled := subscription.pollNext capacity s.isOpen (s.pubSub.channel subscription.channel)
      { s with subscriptions := s.subscriptions.set index polled }
    else s
  | none => s

def unsubscribe (s : PubSubState serde) (index : Nat) : PubSubState serde :=
  match s.subscriptions[index]? with
  | some subscription =>
    if subscription.alive then
      { s with
        pubSub := s.pubSub.set subscription.channel (s.pubSub.channel subscription.channel).release
        subscriptions := s.subscriptions.set index { subscription with alive := false } }
    else s
  | none => s

/-- One turn of the loop of `spawn_drain`. -/
def drain (capacity : Nat) (s : PubSubState serde) (name : ChannelName) : PubSubState serde :=
  match s.drains name with
  | some receiver =>
    match (s.pubSub.channel name).recv capacity s.isOpen receiver with
    | (_, .closed) =>
      { s with
        pubSub := s.pubSub.set name (s.pubSub.channel name).release
        drains := Function.update s.drains name none }
    | (receiver, _) => { s with drains := Function.update s.drains name (some receiver) }
  | none => s

/-- Without a handle nobody can publish, subscribe or clone. -/
def step (capacity : Nat) (s : PubSubState serde) : PubSubInput → PubSubState serde
  | .publish message => if s.handles = 0 then s else s.publish message
  | .subscribe type => if s.handles = 0 then s else s.subscribe type
  | .poll index => s.poll capacity index
  | .unsubscribe index => s.unsubscribe index
  | .drain name => s.drain capacity name
  | .clone => if s.handles = 0 then s else { s with handles := s.handles + 1 }
  | .release => { s with handles := s.handles - 1 }

end PubSubState

/-! ## What a step does -/

variable {capacity : Nat}

open PubSubState

/-- A publish fails, or the value is sent in the channel of the topic. -/
theorem publish_cases (s : PubSubState serde) (message : Message) :
    (∃ failure, s.publish message = { s with failures := s.failures ++ [failure] } ∧
      PubSub.publish s.pubSub message = .error failure) ∨
    ∃ name value, publisherChannel message.type.topic = some name ∧
      serde.toValue message = .ok value ∧ s.publish message = { s with
        pubSub := s.pubSub.set name
          { s.pubSub.channel name with sent := (s.pubSub.channel name).sent ++ [value] }
        published := s.published ++ [message] } := by
  unfold PubSubState.publish
  cases published : PubSub.publish s.pubSub message with
  | error failure => exact .inl ⟨failure, rfl, rfl⟩
  | ok pubSub =>
    refine .inr ?_
    obtain ⟨value, converted, routed⟩ := bind_success published
    have converted := mapError_success converted
    cases route : publisherChannel message.type.topic with
    | none =>
      simp [route] at routed
    | some name =>
      rw [route] at routed
      obtain ⟨channel, sent, same⟩ := bind_success routed
      cases same
      refine ⟨name, value, rfl, converted, ?_⟩
      unfold Broadcast.send at sent
      split at sent
      · cases sent
      · cases sent
        rfl

inductive Move (capacity : Nat) (s : PubSubState serde) : PubSubInput → PubSubState serde → Prop
  | refuse {input : PubSubInput} (failure : Failure serde) :
      Move capacity s input { s with failures := s.failures ++ [failure] }
  | send {message : Message} {name : ChannelName} {value : serde.Value}
      (route : publisherChannel message.type.topic = some name)
      (converted : serde.toValue message = .ok value) :
      Move capacity s (.publish message) { s with
        pubSub := s.pubSub.set name
          { s.pubSub.channel name with sent := (s.pubSub.channel name).sent ++ [value] }
        published := s.published ++ [message] }
  | subscribe {type : MessageType} {name : ChannelName}
      (route : subscriberChannel type.topic = some name) (handle : 0 < s.handles) :
      Move capacity s (.subscribe type) { s with
        pubSub := s.pubSub.set name (s.pubSub.channel name).subscribe.1
        subscriptions := s.subscriptions ++
          [⟨type, name, (s.pubSub.channel name).sent.length, true, [], false⟩] }
  | poll {index : Nat} {subscription : Subscription serde}
      (found : s.subscriptions[index]? = some subscription) (alive : subscription.alive = true) :
      Move capacity s (.poll index) { s with
        subscriptions := s.subscriptions.set index
          (subscription.pollNext capacity s.isOpen (s.pubSub.channel subscription.channel)) }
  | unsubscribe {index : Nat} {subscription : Subscription serde}
      (found : s.subscriptions[index]? = some subscription) (alive : subscription.alive = true) :
      Move capacity s (.unsubscribe index) { s with
        pubSub := s.pubSub.set subscription.channel (s.pubSub.channel subscription.channel).release
        subscriptions := s.subscriptions.set index { subscription with alive := false } }
  | drain {name : ChannelName} (running : (s.drains name).isSome = true)
      (receiver : Broadcast.Receiver) :
      Move capacity s (.drain name) { s with
        drains := Function.update s.drains name (some receiver) }
  | stop {name : ChannelName} (running : (s.drains name).isSome = true) (shut : s.isOpen = false) :
      Move capacity s (.drain name) { s with
        pubSub := s.pubSub.set name (s.pubSub.channel name).release
        drains := Function.update s.drains name none }
  | handle {input : PubSubInput} {handles : Nat} (held : 0 < handles → 0 < s.handles) :
      Move capacity s input { s with handles := handles }
  | idle {input : PubSubInput} : Move capacity s input s

theorem drain_move (s : PubSubState serde) (name : ChannelName) :
    Move capacity s (.drain name) (s.drain capacity name) := by
  unfold drain
  split
  next receiver running =>
    have some_running : (s.drains name).isSome = true := by rw [running]; rfl
    split
    next next received =>
      refine .stop some_running ?_
      have reads := Broadcast.recv_reads (s.pubSub.channel name) capacity s.isOpen receiver
      rw [received] at reads
      cases reads with
      | closed _ _ shut => exact shut
    next => exact .drain some_running _
  next => exact .idle

theorem step_move (capacity : Nat) (s : PubSubState serde) (input : PubSubInput) :
    Move capacity s input (s.step capacity input) := by
  cases input with
  | publish message =>
    dsimp only [step]
    split
    · exact .idle
    · rcases publish_cases s message with ⟨failure, refused, _⟩ | ⟨name, value, route, converted, sent⟩
      · rw [refused]
        exact .refuse failure
      · rw [sent]
        exact .send route converted
  | subscribe type =>
    dsimp only [step]
    split
    · exact .idle
    next handle =>
      unfold subscribe
      split
      next name route => exact .subscribe route (Nat.pos_of_ne_zero handle)
      · exact .refuse _
  | poll index =>
    dsimp only [step, poll]
    split
    next subscription found =>
      split
      next alive => exact .poll found alive
      · exact .idle
    · exact .idle
  | unsubscribe index =>
    dsimp only [step, unsubscribe]
    split
    next subscription found =>
      split
      next alive => exact .unsubscribe found alive
      · exact .idle
    · exact .idle
  | drain name => exact drain_move s name
  | clone =>
    dsimp only [step]
    split
    · exact .idle
    next handle => exact .handle fun _ => Nat.pos_of_ne_zero handle
  | release => exact .handle fun held => Nat.lt_of_lt_of_le held (Nat.sub_le _ _)

/-! ## The parties of standalone mode -/

section

variable {crates : LedgerCrates}

def transactionOwners (owner : crates.UnshieldedUtxo → ByteVec) :
    Transaction crates → List ByteVec
  | .regular transaction =>
    (transaction.createdUnshieldedUtxos ++ transaction.spentUnshieldedUtxos).map owner
  | .system transaction => transaction.createdUnshieldedUtxos.map owner

/-- What `index_block` publishes behind `save_block`. The addresses are collected in a
hash set, which is left in an order of its own. -/
def notifications (owner : crates.UnshieldedUtxo → ByteVec)
    (hashSet : List ByteVec → List ByteVec) (block : NodeBlock crates)
    (computed : Computed crates) (maxTransactionId : Option UInt64) (caughtUp : Bool) :
    List Message :=
  .blockIndexed block.height maxTransactionId caughtUp ::
    ((hashSet (computed.transactions.flatMap (transactionOwners owner))).map
        .unshieldedUtxoIndexed
      ++ block.bridgeEvents.map (.bridgeEventIndexed block.height))

end

/-- The closure of the wallet indexer's `try_for_each`. -/
def observeBlockIndexed (maxTransactionId : UInt64) : Message → UInt64
  | .blockIndexed _ (some id) _ =>
    if maxTransactionId = UInt64.ofNat (2 ^ 64 - 1) ∨ maxTransactionId < id then id
    else maxTransactionId
  | _ => maxTransactionId

/-- `block_indexed_task`, over what its stream has yielded. -/
def blockIndexedTask (items : List (Except (SubscriberError serde) Message)) :
    Except (SubscriberError serde) UInt64 :=
  items.foldlM (fun maxTransactionId item => return observeBlockIndexed maxTransactionId (← item))
    (UInt64.ofNat (2 ^ 64 - 1))

end MidnightIndexer.Source.PubSub
