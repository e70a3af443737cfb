import MidnightIndexer.Source.InMemPubSub

/-!
# What the in-memory pub/sub delivers

A channel has a receiver as long as anybody holds the channels, so a publish fails
only for a topic without a channel. `BridgeEventIndexed` is such a topic. A stream
that keeps up yields the messages of its type in the order of the publishes; one that
has fallen further behind than the capacity yields an error.
-/

namespace MidnightIndexer.Guarantees.InMemDelivery

open Lib List Source Source.ChainIndexer Source.PubSub PubSubState InMemPubSub

variable {serde : Serde} {capacity : Nat} {s t : PubSubState serde} {input : PubSubInput}

/-! ## Receivers -/

theorem isOpen_iff :
    s.isOpen = true ↔ 0 < s.handles ∨ ∃ stream ∈ s.subscriptions, stream.alive = true := by
  simp [isOpen]

variable (isOpen : Bool) (channel : Broadcast serde.Value) (stream : Subscription serde)

@[simp] theorem pollNext_type : (stream.pollNext capacity isOpen channel).type = stream.type := by
  unfold Subscription.pollNext
  split <;> rfl

@[simp] theorem pollNext_channel :
    (stream.pollNext capacity isOpen channel).channel = stream.channel := by
  unfold Subscription.pollNext
  split <;> rfl

@[simp] theorem pollNext_alive :
    (stream.pollNext capacity isOpen channel).alive = stream.alive := by
  unfold Subscription.pollNext
  split <;> rfl

/-- Channels that are closed stay closed. -/
theorem isOpen_of_move (move : Move capacity s input t) (opened : t.isOpen = true) :
    s.isOpen = true := by
  rw [isOpen_iff] at opened ⊢
  cases move with
  | refuse | send | drain | stop | idle => exact opened
  | subscribe route handle => exact .inl handle
  | poll found alive | unsubscribe found alive =>
    exact .inr ⟨_, mem_of_getElem? found, alive⟩
  | handle held => exact opened.imp_left held

def readsFrom (name : ChannelName) (stream : Subscription serde) : Bool :=
  stream.alive && decide (stream.channel = name)

/-- The drain of a channel and the streams that read it. -/
def listeners (s : PubSubState serde) (name : ChannelName) : Nat :=
  (if (s.drains name).isSome then 1 else 0) + s.subscriptions.countP (readsFrom name)

/-- The channels know their receivers, and no drain stops while they are open. -/
structure Wired (s : PubSubState serde) : Prop where
  counted : ∀ name, (s.pubSub.channel name).receivers = listeners s name
  drained : s.isOpen = true → ∀ name, (s.drains name).isSome = true

theorem Wired.start : Wired (start serde) where
  counted name := by cases name <;> rfl
  drained _ _ := rfl

variable {index base : Nat} {stream : Subscription serde} {name : ChannelName} {type : MessageType}
  {sent : List serde.Value} {item : Except (SubscriberError serde) Message}

/-- The streams that read a channel, after one of them has changed. -/
theorem countP_replaced (name : ChannelName) {streams : List (Subscription serde)}
    {old : Subscription serde} (found : streams[index]? = some old) (new : Subscription serde) :
    (streams.set index new).countP (readsFrom name) + (if readsFrom name old then 1 else 0) =
      streams.countP (readsFrom name) + if readsFrom name new then 1 else 0 := by
  obtain ⟨inside, same⟩ := List.getElem?_eq_some_iff.mp found
  have present : readsFrom name old = true → 0 < streams.countP (readsFrom name) := fun reads =>
    countP_pos_iff.mpr ⟨old, mem_of_getElem? found, reads⟩
  rw [countP_set inside, same]
  split
  next reads =>
    have positive := present reads
    omega
  next => omega

theorem Wired.subscribe (wired : Wired s) (type : MessageType) (name other : ChannelName) :
    ((s.pubSub.set name (s.pubSub.channel name).subscribe.1).channel other).receivers =
      listeners { s with subscriptions := s.subscriptions ++
        [⟨type, name, (s.pubSub.channel name).sent.length, true, [], false⟩] } other := by
  have before := wired.counted other
  unfold listeners at before ⊢
  rw [channel_set, countP_append, countP_singleton, readsFrom, Bool.true_and]
  by_cases same : other = name
  · subst same
    simp only [decide_true, if_true, Broadcast.subscribe]
    omega
  · rw [if_neg same, before]
    simp [Ne.symm same]

theorem Wired.unsubscribe (wired : Wired s) (found : s.subscriptions[index]? = some stream)
    (alive : stream.alive = true) (other : ChannelName) :
    ((s.pubSub.set stream.channel (s.pubSub.channel stream.channel).release).channel
      other).receivers = listeners { s with
        subscriptions := s.subscriptions.set index { stream with alive := false } } other := by
  have before := wired.counted other
  have replaced := countP_replaced other found { stream with alive := false }
  unfold listeners at before ⊢
  rw [channel_set]
  simp only [readsFrom, alive, Bool.true_and, Bool.false_and, decide_eq_true_eq] at replaced
  split
  next same =>
    subst same
    simp only [if_true, Bool.false_eq_true, if_false] at replaced
    simp only [Broadcast.release]
    omega
  next differ =>
    rw [if_neg (Ne.symm differ)] at replaced
    simp only [Bool.false_eq_true, if_false, Nat.add_zero] at replaced
    rw [replaced]
    exact before

theorem Wired.stop (wired : Wired s) (running : (s.drains name).isSome = true)
    (other : ChannelName) :
    ((s.pubSub.set name (s.pubSub.channel name).release).channel other).receivers =
      listeners { s with drains := Function.update s.drains name none } other := by
  have before := wired.counted other
  unfold listeners at before ⊢
  rw [channel_set]
  split
  next same =>
    subst same
    rw [running] at before
    simp only [Broadcast.release, Function.update_self, Option.isSome_none, Bool.false_eq_true,
      if_false, if_true] at before ⊢
    omega
  next differ =>
    simpa only [Function.update_of_ne differ] using before

theorem Wired.move (move : Move capacity s input t) (wired : Wired s) : Wired t := by
  have drained := fun opened => wired.drained (isOpen_of_move move opened)
  cases move with
  | refuse | handle | idle => exact ⟨wired.counted, drained⟩
  | send route converted =>
    refine ⟨fun other => ?_, drained⟩
    rw [channel_set]
    split
    next same => exact same ▸ wired.counted _
    next => exact wired.counted other
  | @subscribe type name route handle => exact ⟨wired.subscribe type name, drained⟩
  | @poll index stream found alive =>
    refine ⟨fun other => ?_, drained⟩
    have replaced := countP_replaced other found
      (stream.pollNext capacity s.isOpen (s.pubSub.channel stream.channel))
    have reads : readsFrom other
        (stream.pollNext capacity s.isOpen (s.pubSub.channel stream.channel)) =
        readsFrom other stream := by
      rw [readsFrom, pollNext_alive, pollNext_channel, readsFrom]
    rw [reads, Nat.add_right_cancel_iff] at replaced
    rw [listeners, replaced]
    exact wired.counted other
  | unsubscribe found alive => exact ⟨wired.unsubscribe found alive, drained⟩
  | @drain name running receiver =>
    have same : ∀ other,
        (Function.update s.drains name (some receiver) other).isSome = (s.drains other).isSome := by
      intro other
      by_cases equal : other = name
      · rw [equal, Function.update_self, running]
        rfl
      · rw [Function.update_of_ne equal]
    refine ⟨fun other => ?_, fun opened other => ?_⟩
    · rw [listeners, same]
      exact wired.counted other
    · exact (same other).trans (drained opened other)
  | stop running shut =>
    refine ⟨wired.stop running, fun opened => ?_⟩
    have still : s.isOpen = true := opened
    rw [shut] at still
    cases still

/-! ## Failures -/

theorem publisherChannel_none :
    publisherChannel type.topic = none ↔ type = .bridgeEventIndexed := by
  cases type <;> decide

theorem publisherChannel_some (known : type ≠ .bridgeEventIndexed) :
    ∃ name, publisherChannel type.topic = some name :=
  Option.ne_none_iff_exists'.mp fun none => known (publisherChannel_none.mp none)

theorem subscriberChannel_eq (type : MessageType) :
    subscriberChannel type.topic = publisherChannel type.topic := by
  cases type <;> rfl

theorem publisherChannel_inj {first second : MessageType}
    (one : publisherChannel first.topic = some name)
    (other : publisherChannel second.topic = some name) : first = second := by
  rw [← other] at one
  revert one
  cases first <;> cases second <;> decide

/-- A publish or a subscription of a topic that has a channel. -/
def HasChannel (s : PubSubState serde) : PubSubInput → Prop
  | .publish message => 0 < s.handles → message.type ≠ .bridgeEventIndexed
  | .subscribe type => 0 < s.handles → type ≠ .bridgeEventIndexed
  | _ => True

theorem failures_of_move (move : Move capacity s input t) : s.failures <+: t.failures := by
  cases move with
  | refuse failure => exact prefix_append _ _
  | send | subscribe | poll | unsubscribe | drain | stop | handle | idle => exact prefix_rfl

theorem Wired.heard (wired : Wired s) (handle : 0 < s.handles) (name : ChannelName) :
    0 < (s.pubSub.channel name).receivers := by
  have running := wired.drained (isOpen_iff.mpr (.inl handle)) name
  rw [wired.counted, listeners, if_pos running]
  omega

/-- With a receiver for every channel, a publish fails only for want of a channel. -/
theorem publish_failures (roundTrips : serde.RoundTrips) (wired : Wired s) (handle : 0 < s.handles)
    (message : Message) :
    (s.publish message).failures = s.failures ↔ message.type ≠ .bridgeEventIndexed := by
  obtain ⟨value, converted, _⟩ := roundTrips message
  rw [ne_eq, ← publisherChannel_none, PubSubState.publish, PubSub.publish, converted]
  cases route : publisherChannel message.type.topic with
  | none => simp [bind, Except.bind, Except.mapError]
  | some name =>
    have sent := Broadcast.send_eq value (wired.heard handle name)
    simp [bind, Except.bind, pure, Except.pure, Except.mapError, sent, okOr]

theorem subscribe_failures (type : MessageType) :
    (s.subscribe type).failures = s.failures ↔ type ≠ .bridgeEventIndexed := by
  rw [subscribe, subscriberChannel_eq, ne_eq, ← publisherChannel_none]
  cases route : publisherChannel type.topic with
  | none | some => simp

theorem failures_step (roundTrips : serde.RoundTrips) (wired : Wired s) (input : PubSubInput) :
    (s.step capacity input).failures = s.failures ↔ HasChannel s input := by
  have guarded : ∀ {same : Prop} {after : PubSubState serde},
      (0 < s.handles → (after.failures = s.failures ↔ same)) →
      ((if s.handles = 0 then s else after).failures = s.failures ↔ (0 < s.handles → same)) := by
    intro same after known
    split
    next none => simp [none]
    next handle => simp [Nat.pos_of_ne_zero handle, known (Nat.pos_of_ne_zero handle)]
  cases input with
  | publish message => exact guarded fun handle => publish_failures roundTrips wired handle message
  | subscribe type => exact guarded fun _ => subscribe_failures type
  | poll | unsubscribe | drain | clone | release =>
    refine iff_of_true ?_ trivial
    dsimp only [step, poll, unsubscribe, drain]
    repeat' split
    all_goals rfl

/-! ## One stream -/

theorem step_poll (found : s.subscriptions[index]? = some stream) (alive : stream.alive = true) :
    s.step capacity (.poll index) = { s with
      subscriptions := s.subscriptions.set index
        (stream.pollNext capacity s.isOpen (s.pubSub.channel stream.channel)) } := by
  simp [step, poll, found, alive]

theorem found_poll (found : s.subscriptions[index]? = some stream) (alive : stream.alive = true) :
    (s.step capacity (.poll index)).subscriptions[index]? =
      some (stream.pollNext capacity s.isOpen (s.pubSub.channel stream.channel)) := by
  obtain ⟨inside, _⟩ := List.getElem?_eq_some_iff.mp found
  rw [step_poll found alive]
  exact getElem?_set_self inside

/-- Only a poll of its own makes a stream read. -/
theorem found_of_move (move : Move capacity s input t)
    (found : s.subscriptions[index]? = some stream)
    (unpolled : ¬(input = .poll index ∧ stream.alive = true)) :
    ∃ alive, t.subscriptions[index]? = some { stream with alive := alive } := by
  obtain ⟨inside, _⟩ := List.getElem?_eq_some_iff.mp found
  cases move with
  | refuse | send | drain | stop | handle | idle => exact ⟨stream.alive, found⟩
  | subscribe route handle => exact ⟨stream.alive, by rw [getElem?_append_left inside, found]⟩
  | @poll other polled present alive =>
    by_cases same : other = index
    · subst same
      rw [found, Option.some_inj] at present
      rw [← present] at alive
      exact absurd ⟨rfl, alive⟩ unpolled
    · exact ⟨stream.alive, by rw [getElem?_set_ne same, found]⟩
  | @unsubscribe other dropped present alive =>
    by_cases same : other = index
    · subst same
      rw [found, Option.some_inj] at present
      exact ⟨false, by rw [getElem?_set_self inside, present]⟩
    · exact ⟨stream.alive, by rw [getElem?_set_ne same, found]⟩

/-- A step sends nothing, or it sends one message in the channel of its topic. -/
theorem sent_of_move (move : Move capacity s input t) : (t.published = s.published ∧
      ∀ name, (t.pubSub.channel name).sent = (s.pubSub.channel name).sent) ∨
    ∃ message value, serde.toValue message = .ok value ∧ t.published = s.published ++ [message] ∧
      ∀ name, (t.pubSub.channel name).sent = if publisherChannel message.type.topic = some name then
          (s.pubSub.channel name).sent ++ [value] else (s.pubSub.channel name).sent := by
  cases move with
  | refuse | poll | drain | handle | idle => exact .inl ⟨rfl, fun _ => rfl⟩
  | subscribe | unsubscribe | stop => exact .inl ⟨rfl, sent_set rfl⟩
  | @send message other value route converted =>
    refine .inr ⟨message, value, converted, rfl, fun name => ?_⟩
    rw [channel_set, route]
    by_cases same : name = other
    · simp [same]
    · simp [same, Ne.symm same]

def convert (type : MessageType) (value : serde.Value) : Except (SubscriberError serde) Message :=
  (serde.fromValue type value).mapError .deserialize

/-- The stream has yielded what was sent from `base` on up to its receiver. -/
structure Yields (base : Nat) (sent : List serde.Value) (stream : Subscription serde) : Prop where
  inside : base ≤ sent.length
  reached : stream.receiver ≤ sent.length
  items : stream.items ++ (sent.drop stream.receiver).map (convert stream.type) =
    (sent.drop base).map (convert stream.type)

theorem Yields.mem (yields : Yields base sent stream) (member : item ∈ stream.items) :
    ∃ value ∈ sent, convert stream.type value = item := by
  have listed : item ∈ (sent.drop base).map (convert stream.type) := by
    rw [← yields.items]
    exact mem_append_left _ member
  obtain ⟨value, present, same⟩ := mem_map.mp listed
  exact ⟨value, mem_of_mem_drop present, same⟩

theorem Yields.grow {more : List serde.Value} (yields : Yields base sent stream)
    (grown : sent <+: more) : Yields base more stream := by
  obtain ⟨new, rfl⟩ := grown
  refine ⟨?_, ?_, ?_⟩
  · exact yields.inside.trans (by simp)
  · exact yields.reached.trans (by simp)
  · rw [drop_append_of_le_length yields.reached, drop_append_of_le_length yields.inside,
      map_append, map_append, ← append_assoc, yields.items]

theorem Yields.poll {channel : Broadcast serde.Value} (yields : Yields base channel.sent stream)
    (keeps : channel.lag stream.receiver ≤ capacity) (isOpen : Bool) :
    Yields base channel.sent (stream.pollNext capacity isOpen channel) := by
  have reads := Broadcast.recv_reads channel capacity isOpen stream.receiver
  unfold Subscription.pollNext
  generalize channel.recv capacity isOpen stream.receiver = received at reads
  cases reads with
  | lagged behind => exact absurd keeps (Nat.not_le_of_lt behind)
  | @value _ value rest left =>
    have further : channel.sent.drop (stream.receiver + 1) = rest := by
      rw [← tail_drop, left, tail_cons]
    have below : stream.receiver < channel.sent.length := by
      by_contra beyond
      simp [drop_eq_nil_of_le (Nat.le_of_not_lt beyond)] at left
    have items := yields.items
    rw [left, map_cons] at items
    refine ⟨yields.inside, below, ?_⟩
    dsimp only
    rw [further, ← items, append_assoc]
    rfl
  | pending | closed => exact ⟨yields.inside, yields.reached, yields.items⟩

/-- A stream is polled only while it is at most the capacity behind. -/
def KeepsUp (capacity index : Nat) (s : PubSubState serde) : PubSubInput → Prop
  | .poll polled => polled = index → ∀ stream ∈ s.subscriptions[index]?, stream.alive = true →
    (s.pubSub.channel stream.channel).lag stream.receiver ≤ capacity
  | _ => True

/-- The stream at this index with the values of its channel from `base` on. -/
def Following (type : MessageType) (name : ChannelName) (base index : Nat)
    (s : PubSubState serde) : Prop :=
  ∃ stream, s.subscriptions[index]? = some stream ∧ stream.type = type ∧ stream.channel = name ∧
    Yields base (s.pubSub.channel name).sent stream

theorem Following.step (following : Following type name base index s) (input : PubSubInput)
    (keeps : KeepsUp capacity index s input) :
    Following type name base index (s.step capacity input) := by
  obtain ⟨stream, found, typed, named, yields⟩ := following
  by_cases polled : input = .poll index ∧ stream.alive = true
  · obtain ⟨rfl, alive⟩ := polled
    have near := keeps rfl stream found alive
    refine ⟨_, found_poll found alive, by rw [pollNext_type, typed], by rw [pollNext_channel, named],
      ?_⟩
    rw [named] at near ⊢
    rw [step_poll found alive]
    exact yields.poll near s.isOpen
  · have move := step_move capacity s input
    obtain ⟨alive, later⟩ := found_of_move move found polled
    have grown : (s.pubSub.channel name).sent <+:
        ((s.step capacity input).pubSub.channel name).sent := by
      rcases sent_of_move move with ⟨_, same⟩ | ⟨message, value, _, _, sent⟩
      · exact (same name).symm ▸ prefix_rfl
      · rw [sent name]
        split
        · exact prefix_append _ _
        · exact prefix_rfl
    have still := yields.grow grown
    exact ⟨_, later, typed, named, still.inside, still.reached, still.items⟩

/-! ## Order -/

/-- A channel holds the messages of its topic in the order of the publishes. -/
def Carried (s : PubSubState serde) : Prop :=
  ∀ name, (s.pubSub.channel name).sent.map Except.ok =
    (s.published.filter fun message => publisherChannel message.type.topic = some name).map
      serde.toValue

theorem Carried.move (move : Move capacity s input t) (carried : Carried s) : Carried t := by
  intro name
  rcases sent_of_move move with ⟨published, same⟩ | ⟨message, value, converted, published, sent⟩
  · rw [same, published]
    exact carried name
  · rw [sent, published, filter_append, map_append, ← carried name]
    split
    next route => simp [route, converted]
    next other => simp [other]

theorem Carried.start : Carried (start serde) := fun name => by cases name <;> rfl

theorem Carried.run (carried : Carried s) (capacity : Nat) (inputs : List PubSubInput) :
    Carried (run (step capacity) s inputs) :=
  run_keeps (fun s input carried => carried.move (step_move capacity s input)) s inputs carried

theorem converted_back (roundTrips : serde.RoundTrips) {messages : List Message}
    (typed : ∀ message ∈ messages, message.type = type)
    (carried : sent.map Except.ok = messages.map serde.toValue) :
    sent.map (convert type) = messages.map .ok := by
  induction messages generalizing sent with
  | nil => simpa using carried
  | cons message rest ih =>
    cases sent with
    | nil => simp at carried
    | cons value later =>
      rw [map_cons, map_cons, cons.injEq] at carried
      obtain ⟨again, converted, back⟩ := roundTrips message
      rw [← carried.1, Except.ok.injEq] at converted
      have tail := ih (fun other member => typed other (mem_cons_of_mem _ member)) carried.2
      rw [map_cons, map_cons, tail, convert, converted, ← typed message mem_cons_self, back]
      rfl

def messagesOf (type : MessageType) (published : List Message) : List Message :=
  published.filter fun message => message.type = type

theorem messagesOf_append (type : MessageType) (first later : List Message) :
    messagesOf type (first ++ later) = messagesOf type first ++ messagesOf type later :=
  filter_append ..

theorem Carried.back (roundTrips : serde.RoundTrips) (carried : Carried s)
    (route : publisherChannel type.topic = some name) :
    (s.pubSub.channel name).sent.map (convert type) = (messagesOf type s.published).map .ok := by
  have same : (s.published.filter fun message =>
      publisherChannel message.type.topic = some name) = messagesOf type s.published := by
    apply filter_congr
    intro message _
    rw [decide_eq_decide]
    exact ⟨fun other => publisherChannel_inj other route, fun equal => equal ▸ route⟩
  apply converted_back roundTrips
  · intro message member
    exact of_decide_eq_true (mem_filter.mp member).2
  · rw [← same]
    exact carried name

theorem Carried.length (roundTrips : serde.RoundTrips) (carried : Carried s)
    (route : publisherChannel type.topic = some name) :
    (s.pubSub.channel name).sent.length = (messagesOf type s.published).length := by
  have lengths := congrArg List.length (carried.back roundTrips route)
  simpa using lengths

theorem Following.mem (following : Following type name base index s)
    (found : s.subscriptions[index]? = some stream) (member : item ∈ stream.items) :
    ∃ value ∈ (s.pubSub.channel name).sent, convert type value = item := by
  obtain ⟨_, same, rfl, _, yields⟩ := following
  rw [found, Option.some_inj] at same
  exact same ▸ yields.mem (same ▸ member)

/-- What a stream has yielded and what it has still to read are the messages of its type
that were published since. -/
theorem Following.delivered (roundTrips : serde.RoundTrips)
    (route : publisherChannel type.topic = some name) (carried : Carried s) (later : Carried t)
    {published : List Message} (grown : t.published = s.published ++ published)
    (following : Following type name (s.pubSub.channel name).sent.length index t) :
    ∃ (unread : List Message) (stream : Subscription serde), t.subscriptions[index]? = some stream ∧
      stream.items ++ unread.map .ok = (messagesOf type published).map .ok ∧
      unread.length = (t.pubSub.channel stream.channel).lag stream.receiver := by
  obtain ⟨stream, found, typed, named, yields⟩ := following
  have back := later.back roundTrips route
  refine ⟨(messagesOf type t.published).drop stream.receiver, stream, found, ?_, ?_⟩
  · have items := yields.items
    rw [typed, map_drop, map_drop, back, carried.length roundTrips route] at items
    rw [map_drop, items, grown, messagesOf_append, map_append]
    exact drop_left' (length_map _)
  · rw [length_drop, named, Broadcast.lag, later.length roundTrips route]

/-! ## The results -/

theorem published_of_move (move : Move capacity s input t) : s.published <+: t.published := by
  rcases sent_of_move move with ⟨same, _⟩ | ⟨message, _, _, published, _⟩
  · exact same ▸ prefix_rfl
  · rw [published]
    exact prefix_append _ _

variable (route : publisherChannel type.topic = some name) (handle : 0 < s.handles)

include route handle in
theorem step_subscribe : s.step capacity (.subscribe type) = { s with
      pubSub := s.pubSub.set name (s.pubSub.channel name).subscribe.1
      subscriptions := s.subscriptions ++
        [⟨type, name, (s.pubSub.channel name).sent.length, true, [], false⟩] } := by
  rw [step, if_neg handle.ne', subscribe, subscriberChannel_eq, route]
  rfl

include route handle in
theorem found_subscribe :
    (s.step capacity (.subscribe type)).subscriptions[s.subscriptions.length]? =
      some ⟨type, name, (s.pubSub.channel name).sent.length, true, [], false⟩ := by
  rw [step_subscribe route handle]
  exact getElem?_concat_length

include route handle in
theorem Following.subscribe :
    Following type name ((s.step capacity (.subscribe type)).pubSub.channel name).sent.length
      s.subscriptions.length (s.step capacity (.subscribe type)) := by
  have same : ((s.step capacity (.subscribe type)).pubSub.channel name).sent =
      (s.pubSub.channel name).sent := by
    have sent : (s.pubSub.channel name).subscribe.1.sent = (s.pubSub.channel name).sent := rfl
    rw [step_subscribe route handle]
    exact sent_set sent name
  refine ⟨_, found_subscribe route handle, rfl, rfl, ?_⟩
  rw [same]
  exact ⟨le_rfl, le_rfl, nil_append _⟩

include route handle in
theorem Following.run (later : List PubSubInput)
    (keeps : Guarded (PubSubState.step capacity) (KeepsUp capacity s.subscriptions.length)
      (s.step capacity (.subscribe type)) later) :
    Following type name ((s.step capacity (.subscribe type)).pubSub.channel name).sent.length
      s.subscriptions.length
      (Lib.run (PubSubState.step capacity) (s.step capacity (.subscribe type)) later) :=
  run_invariant (fun _ input following near => following.step input near) _ later
    (Following.subscribe route handle) keeps

/-- A topic without a channel is what `index_block` publishes for a bridge event. -/
theorem notifications_have_channel {crates : LedgerCrates}
    (owner : crates.UnshieldedUtxo → ByteVec) (hashSet : List ByteVec → List ByteVec)
    (block : NodeBlock crates) (computed : Computed crates) (maxTransactionId : Option UInt64)
    (caughtUp : Bool) :
    (∀ message ∈ notifications owner hashSet block computed maxTransactionId caughtUp,
      message.type ≠ .bridgeEventIndexed) ↔ block.bridgeEvents = [] := by
  constructor
  · intro typed
    refine eq_nil_iff_forall_not_mem.mpr fun event member => ?_
    refine typed (.bridgeEventIndexed block.height event) ?_ rfl
    simp [notifications, member]
  · intro none message member
    rw [notifications, none, map_nil, append_nil] at member
    rcases mem_cons.mp member with rfl | addressed
    · simp [Message.type]
    · obtain ⟨address, _, rfl⟩ := mem_map.mp addressed
      simp [Message.type]

theorem inMem_delivers_unless_bridge (serde : Serde) (roundTrips : serde.RoundTrips)
    (capacity : Nat) (inputs : List PubSubInput) :
    let step := PubSubState.step capacity
    let s := run step (.start serde) inputs
    (s.failures = [] ↔ Guarded step HasChannel (.start serde) inputs) ∧
    (∀ type, type ≠ .bridgeEventIndexed → 0 < s.handles → ∀ later,
      let attached := step s (.subscribe type)
      Guarded step (KeepsUp capacity s.subscriptions.length) attached later →
      let t := run step attached later
      ∃ (published unread : List Message) (stream : Subscription serde),
        t.published = attached.published ++ published ∧
        t.subscriptions[s.subscriptions.length]? = some stream ∧
        stream.items ++ unread.map .ok = (messagesOf type published).map .ok ∧
        unread.length = (t.pubSub.channel stream.channel).lag stream.receiver) ∧
    (∀ (crates : LedgerCrates) owner hashSet block (computed : Computed crates) maxTransactionId
      caughtUp, 0 < s.handles →
      ((∀ message ∈ notifications owner hashSet block computed maxTransactionId caughtUp,
        (step s (.publish message)).failures = s.failures) ↔ block.bridgeEvents = [])) := by
  intro step s
  have keepWired : ∀ s input, Wired s → Wired (step s input) :=
    fun s input wired => wired.move (step_move capacity s input)
  have wired : Wired s := run_keeps keepWired _ inputs .start
  have carried : Carried s := Carried.start.run capacity inputs
  refine ⟨?_, ?_, ?_⟩
  · exact run_log_iff PubSubState.failures keepWired
      (fun s input _ => failures_of_move (step_move capacity s input))
      (fun s input wired => failures_step roundTrips wired input) (.start serde) inputs .start
  · intro type known handle later attached keeps t
    obtain ⟨name, route⟩ := publisherChannel_some known
    have carriedAttached : Carried attached := carried.move (step_move capacity s _)
    have carriedLater : Carried t := carriedAttached.run capacity later
    have following := Following.run route handle later keeps
    have keepPublished : ∀ u input, attached.published <+: PubSubState.published u →
        attached.published <+: (step u input).published :=
      fun u input grown => grown.trans (published_of_move (step_move capacity u input))
    obtain ⟨published, grown⟩ := run_keeps keepPublished attached later List.prefix_rfl
    obtain ⟨unread, stream, found, items, length⟩ :=
      following.delivered roundTrips route carriedAttached carriedLater grown.symm
    exact ⟨published, unread, stream, grown.symm, found, items, length⟩
  · intro crates owner hashSet block computed maxTransactionId caughtUp handle
    rw [← notifications_have_channel owner hashSet block computed maxTransactionId caughtUp]
    refine forall₂_congr fun message _ => ?_
    rw [failures_step roundTrips wired]
    exact forall_prop_of_true handle

def plain : Serde where
  Value := Message
  Error := Unit
  toValue := .ok
  fromValue type message := if message.type = type then .ok message else .error ()

theorem plain_roundTrips : plain.RoundTrips := fun message => ⟨message, rfl, by simp [plain]⟩

/-- Two blocks are indexed, with an address between them. -/
def indexedInputs : List PubSubInput :=
  [.publish (.blockIndexed 1 (some 7) false), .poll 0, .publish (.unshieldedUtxoIndexed [3]),
    .publish (.blockIndexed 2 none false)]

theorem indexedInputs_keepUp : Guarded (step 42) (KeepsUp 42 0)
    ((start plain).step 42 (.subscribe .blockIndexed)) indexedInputs := by
  refine ⟨trivial, fun _ stream found _ => ?_, trivial, trivial, trivial⟩
  cases found
  decide

theorem inMem_delivers_sample :
    (run (PubSubState.step 42) (.start plain) indexedInputs).failures = [] ∧
    ∃ (published unread : List Message) (stream : Subscription plain),
      (run (PubSubState.step 42) (.start plain)
        (.subscribe .blockIndexed :: indexedInputs)).subscriptions[0]? = some stream ∧
      stream.items ++ unread.map .ok = (messagesOf .blockIndexed published).map .ok ∧
      unread.length = 1 := by
  have routed : Guarded (PubSubState.step 42) HasChannel (.start plain) indexedInputs :=
    ⟨fun _ => by decide, trivial, fun _ => by decide, fun _ => by decide, trivial⟩
  refine ⟨(inMem_delivers_unless_bridge plain plain_roundTrips 42 indexedInputs).1.mpr routed, ?_⟩
  obtain ⟨published, unread, stream, _, found, items, length⟩ :=
    (inMem_delivers_unless_bridge plain plain_roundTrips 42 []).2.1 .blockIndexed (by decide)
      (by decide) indexedInputs indexedInputs_keepUp
  refine ⟨published, unread, stream, found, items, ?_⟩
  cases found
  exact length

/-- Neither the publisher nor the subscriber knows `BridgeEventIndexed`. -/
theorem bridge_topic_panics :
    (run (PubSubState.step 42) (.start plain)
      [.publish (.blockIndexed 5 none true), .publish (.bridgeEventIndexed 5 [1]),
        .subscribe .bridgeEventIndexed]).failures =
      [.unexpectedTopic ⟨"BridgeEventIndexed"⟩, .unexpectedTopic ⟨"BridgeEventIndexed"⟩] := rfl

end MidnightIndexer.Guarantees.InMemDelivery
