import MidnightIndexer.Guarantees.InMemDelivery

/-!
# When an in-memory stream yields an error

A stream holds the channels open, so it never ends. A poll yields the lag of the
receiver as an error exactly if the receiver is further behind than the capacity. The
wallet indexer's `BlockIndexed` task stops at the first error.
-/

namespace MidnightIndexer.Guarantees.InMemLag

open InMemDelivery Lib List Source.PubSub

variable {serde : Serde} {capacity : Nat} {s t : PubSubState serde} {input : PubSubInput}

/-! ## No end -/

def Endless (s : PubSubState serde) : Prop :=
  ∀ stream ∈ s.subscriptions, stream.ended = false

variable {stream : Subscription serde} {index : Nat}

theorem pollNext_ended {channel : Broadcast serde.Value} (running : stream.ended = false) :
    (stream.pollNext capacity true channel).ended = false := by
  have reads := Broadcast.recv_reads channel capacity true stream.receiver
  unfold Subscription.pollNext
  generalize channel.recv capacity true stream.receiver = received at reads
  cases reads with
  | lagged | value | pending => exact running
  | closed _ _ shut => cases shut

theorem Endless.move (move : Move capacity s input t) (endless : Endless s) : Endless t := by
  cases move with
  | refuse | send | drain | stop | handle | idle => exact endless
  | subscribe route handle =>
    intro stream member
    rcases mem_append.mp member with old | new
    · exact endless stream old
    · rw [mem_singleton.mp new]
  | @poll index polled found alive =>
    have present := mem_of_getElem? found
    have opened : s.isOpen = true := isOpen_iff.mpr (.inr ⟨polled, present, alive⟩)
    intro stream member
    rcases mem_or_eq_of_mem_set member with old | rfl
    · exact endless stream old
    · rw [opened]
      exact pollNext_ended (endless polled present)
  | @unsubscribe index dropped found alive =>
    intro stream member
    rcases mem_or_eq_of_mem_set member with old | rfl
    · exact endless stream old
    · exact endless dropped (mem_of_getElem? found)

/-! ## Lag -/

def isReceive : Except (SubscriberError serde) Message → Bool
  | .error (.receive _) => true
  | _ => false

def lags (index : Nat) (s : PubSubState serde) : List (Except (SubscriberError serde) Message) :=
  match s.subscriptions[index]? with
  | some stream => stream.items.filter isReceive
  | none => []

theorem isReceive_convert (type : MessageType) (value : serde.Value) :
    isReceive (convert type value) = false := by
  unfold convert
  cases serde.fromValue type value <;> rfl

theorem pollNext_lags (capacity : Nat) (isOpen : Bool) (channel : Broadcast serde.Value)
    (stream : Subscription serde) : stream.items.filter isReceive <+:
        (stream.pollNext capacity isOpen channel).items.filter isReceive ∧
      ((stream.pollNext capacity isOpen channel).items.filter isReceive =
        stream.items.filter isReceive ↔ channel.lag stream.receiver ≤ capacity) := by
  have reads := Broadcast.recv_reads channel capacity isOpen stream.receiver
  unfold Subscription.pollNext
  generalize channel.recv capacity isOpen stream.receiver = received at reads
  cases reads with
  | lagged behind next bound skipped =>
    dsimp only
    rw [filter_append]
    exact ⟨prefix_append _ _, iff_of_false (by simp [isReceive]) (Nat.not_le_of_lt behind)⟩
  | @value keeps value rest left =>
    dsimp only
    rw [filter_append, ← convert, filter_cons_of_neg (by simp [isReceive_convert]),
      filter_nil, append_nil]
    exact ⟨prefix_rfl, iff_of_true rfl keeps⟩
  | pending keeps | closed keeps => exact ⟨prefix_rfl, iff_of_true rfl keeps⟩

def Present (index : Nat) (s : PubSubState serde) : Prop :=
  ∃ stream, s.subscriptions[index]? = some stream

theorem lags_step (present : Present index s) (input : PubSubInput) :
    lags index s <+: lags index (s.step capacity input) ∧
      (lags index (s.step capacity input) = lags index s ↔ KeepsUp capacity index s input) := by
  obtain ⟨stream, found⟩ := present
  by_cases polled : input = .poll index ∧ stream.alive = true
  · obtain ⟨rfl, alive⟩ := polled
    obtain ⟨grown, same⟩ := pollNext_lags capacity s.isOpen (s.pubSub.channel stream.channel) stream
    simp only [lags, found, found_poll found alive]
    refine ⟨grown, same.trans ⟨fun near _ other present _ => ?_, fun keeps => ?_⟩⟩
    · rw [found] at present
      cases present
      exact near
    · exact keeps rfl stream found alive
  · obtain ⟨alive, later⟩ := found_of_move (step_move capacity s input) found polled
    have same : lags index (s.step capacity input) = lags index s := by
      simp only [lags, found, later]
    refine ⟨same ▸ prefix_rfl, iff_of_true same ?_⟩
    cases input with
    | poll other =>
      intro own stream present living
      rw [found] at present
      cases present
      exact absurd ⟨congrArg _ own, living⟩ polled
    | publish | subscribe | unsubscribe | drain | clone | release => trivial

theorem Present.step (present : Present index s) (input : PubSubInput) :
    Present index (s.step capacity input) := by
  obtain ⟨stream, found⟩ := present
  by_cases polled : input = .poll index ∧ stream.alive = true
  · obtain ⟨rfl, alive⟩ := polled
    exact ⟨_, found_poll found alive⟩
  · obtain ⟨alive, later⟩ := found_of_move (step_move capacity s input) found polled
    exact ⟨_, later⟩

/-! ## The task -/

/-- The task goes on exactly as long as no item is an error. -/
theorem blockIndexedTask_ok (items : List (Except (SubscriberError serde) Message)) :
    (∃ maxTransactionId, blockIndexedTask items = .ok maxTransactionId) ↔
      ∀ error, .error error ∉ items := by
  unfold blockIndexedTask
  generalize UInt64.ofNat (2 ^ 64 - 1) = first
  induction items generalizing first with
  | nil => exact iff_of_true ⟨first, rfl⟩ (by simp)
  | cons item rest ih =>
    rw [foldlM_cons]
    cases item with
    | error cause =>
      refine iff_of_false ?_ fun none => none cause mem_cons_self
      rintro ⟨_, success⟩
      cases success
    | ok message =>
      refine (ih (observeBlockIndexed first message)).trans ?_
      simp

/-! ## The result -/

/-- The error says that a value of this type cannot be converted. -/
def Unconvertible (type : MessageType) (error : SubscriberError serde) : Prop :=
  ∃ value cause, serde.fromValue type value = .error cause ∧ error = .deserialize cause

theorem unconvertible_of_convert {type : MessageType} {value : serde.Value}
    {error : SubscriberError serde} (failed : convert type value = .error error) :
    Unconvertible type error := by
  unfold convert at failed
  cases back : serde.fromValue type value with
  | ok message =>
    rw [back] at failed
    cases failed
  | error cause =>
    rw [back] at failed
    cases failed
    exact ⟨value, cause, back, rfl⟩

/-- Values that convert back leave no error at all. -/
theorem no_error_of_following (roundTrips : serde.RoundTrips) {type : MessageType}
    {name : ChannelName} (route : publisherChannel type.topic = some name) (carried : Carried s)
    {base : Nat} (following : Following type name base index s)
    (found : s.subscriptions[index]? = some stream) (error : SubscriberError serde) :
    .error error ∉ stream.items := by
  intro member
  obtain ⟨value, sent, failed⟩ := following.mem found member
  have back : convert type value ∈ (s.pubSub.channel name).sent.map (convert type) :=
    mem_map_of_mem sent
  rw [failed, carried.back roundTrips route] at back
  obtain ⟨_, _, impossible⟩ := mem_map.mp back
  cases impossible

theorem lags_eq_nil_iff (found : s.subscriptions[index]? = some stream) :
    lags index s = [] ↔ ∀ skipped, .error (.receive skipped) ∉ stream.items := by
  rw [lags, found, filter_eq_nil_iff]
  constructor
  · intro none skipped member
    exact none _ member rfl
  · intro absent item member hit
    match item with
    | .error (.receive skipped) => exact absent skipped member

theorem inMem_errors_iff_lagged (serde : Serde) (capacity : Nat) (inputs : List PubSubInput)
    (type : MessageType) (known : type ≠ .bridgeEventIndexed) (later : List PubSubInput) :
    let step := PubSubState.step capacity
    let s := run step (.start serde) inputs
    let attached := step s (.subscribe type)
    let t := run step attached later
    let keepsUp := Guarded step (KeepsUp capacity s.subscriptions.length) attached later
    0 < s.handles → ∃ stream, t.subscriptions[s.subscriptions.length]? = some stream ∧
      stream.ended = false ∧
      ((∀ error, .error error ∈ stream.items → Unconvertible type error) ↔ keepsUp) ∧
      (serde.RoundTrips →
        ((∃ maxTransactionId, blockIndexedTask stream.items = .ok maxTransactionId) ↔ keepsUp)) := by
  intro step s attached t keepsUp handle
  obtain ⟨name, route⟩ := publisherChannel_some known
  have keepEndless : ∀ s input, Endless s → Endless (step s input) :=
    fun s input endless => endless.move (step_move capacity s input)
  have none : Endless (PubSubState.start serde) := by simp [Endless, PubSubState.start]
  have endless : Endless t :=
    run_keeps keepEndless _ later (keepEndless s _ (run_keeps keepEndless _ inputs none))
  have carried : Carried t :=
    ((Carried.start.run capacity inputs).move (step_move capacity s _)).run capacity later
  have keepPresent : ∀ u input, Present s.subscriptions.length u →
      Present s.subscriptions.length (step u input) := fun _ input present => present.step input
  have present : Present s.subscriptions.length attached := ⟨_, found_subscribe route handle⟩
  obtain ⟨stream, found⟩ := run_keeps keepPresent _ later present
  have silent : lags s.subscriptions.length attached = [] := by
    simp only [lags, attached, step, found_subscribe route handle, List.filter_nil]
  have lagged : lags s.subscriptions.length t = lags s.subscriptions.length attached ↔ keepsUp :=
    run_log_iff _ keepPresent (fun _ input present => (lags_step present input).1)
      (fun _ input present => (lags_step present input).2) attached later present
  rw [silent, lags_eq_nil_iff found] at lagged
  refine ⟨stream, found, endless stream (List.mem_of_getElem? found), ⟨fun only => ?_, ?_⟩, ?_⟩
  · refine lagged.mp fun skipped member => ?_
    obtain ⟨_, _, _, impossible⟩ := only _ member
    cases impossible
  · intro keeps error member
    obtain ⟨value, _, failed⟩ := (Following.run route handle later keeps).mem found member
    exact unconvertible_of_convert failed
  · intro roundTrips
    rw [blockIndexedTask_ok]
    exact ⟨fun none => lagged.mp fun skipped => none _,
      fun keeps => no_error_of_following roundTrips route carried
        (Following.run route handle later keeps) found⟩

theorem inMem_errors_sample :
    ∃ stream, (run (PubSubState.step 42) (.start plain)
        (.subscribe .blockIndexed :: indexedInputs)).subscriptions[0]? = some stream ∧
      stream.ended = false ∧
      ∃ maxTransactionId, blockIndexedTask stream.items = .ok maxTransactionId := by
  obtain ⟨stream, found, running, _, task⟩ :=
    inMem_errors_iff_lagged plain 42 [] .blockIndexed (by decide) indexedInputs (by decide)
  exact ⟨stream, found, running, (task plain_roundTrips).mpr indexedInputs_keepUp⟩

/-- The wallet indexer's stream, 65 blocks, and only then a poll. -/
def burst : List PubSubInput :=
  .subscribe .blockIndexed ::
    (List.replicate 65 (.publish (.blockIndexed 1 none false)) ++ [.poll 0])

set_option maxRecDepth 4000 in
/-- The task fails, whether the channel has the capacity that was asked for or the next
power of two. -/
theorem burst_fails_task :
    ((run (PubSubState.step 42) (.start plain) burst).subscriptions.map fun stream =>
      blockIndexedTask stream.items) = [.error (.receive 23)] ∧
    ((run (PubSubState.step 64) (.start plain) burst).subscriptions.map fun stream =>
      blockIndexedTask stream.items) = [.error (.receive 1)] :=
  ⟨rfl, rfl⟩

end MidnightIndexer.Guarantees.InMemLag
