import Mathlib.Data.List.Basic

/-!
# Bounded broadcast channels

Every receiver gets every value that is sent after it was created. The channel
keeps the last `capacity` values. A receiver that has fallen further behind is told
how many values it has missed and goes on with the oldest value that is kept. A
value is refused when nobody is there to receive it.
-/

namespace MidnightIndexer.Lib

/-- Everything that was sent, and the number of receivers. -/
structure Broadcast (α : Type) where
  sent : List α
  receivers : Nat

namespace Broadcast

variable {α : Type}

def new (α : Type) : Broadcast α := ⟨[], 1⟩

/-- The number of values a receiver is past. -/
abbrev Receiver := Nat

inductive Received (α : Type) where
  | value (value : α)
  | lagged (skipped : Nat)
  | pending
  | closed
  deriving DecidableEq

variable (channel : Broadcast α)

/-- `none`: there is no receiver. -/
def send (value : α) : Option (Broadcast α) :=
  if channel.receivers = 0 then none else some { channel with sent := channel.sent ++ [value] }

def subscribe : Broadcast α × Receiver :=
  ({ channel with receivers := channel.receivers + 1 }, channel.sent.length)

def release : Broadcast α := { channel with receivers := channel.receivers - 1 }

def lag (receiver : Receiver) : Nat := channel.sent.length - receiver

/-- An open channel is one with a sender. -/
def recv (capacity : Nat) (isOpen : Bool) (receiver : Receiver) : Receiver × Received α :=
  if capacity < channel.lag receiver then
    (channel.sent.length - capacity, .lagged (channel.lag receiver - capacity))
  else
    match channel.sent[receiver]? with
    | some value => (receiver + 1, .value value)
    | none => (receiver, if isOpen then .pending else .closed)

/-! ## What a receiver gets -/

variable {channel} {capacity : Nat} {isOpen : Bool} {receiver : Receiver}

inductive Reads (channel : Broadcast α) (capacity : Nat) (isOpen : Bool) (receiver : Receiver) :
    Receiver × Received α → Prop
  | lagged (behind : capacity < channel.lag receiver) (next : Receiver)
      (bound : next ≤ channel.sent.length) (skipped : Nat) :
      Reads channel capacity isOpen receiver (next, .lagged skipped)
  | value (keeps : channel.lag receiver ≤ capacity) {value : α} {rest : List α}
      (left : channel.sent.drop receiver = value :: rest) :
      Reads channel capacity isOpen receiver (receiver + 1, .value value)
  | pending (keeps : channel.lag receiver ≤ capacity) (left : channel.sent.drop receiver = [])
      (live : isOpen = true) : Reads channel capacity isOpen receiver (receiver, .pending)
  | closed (keeps : channel.lag receiver ≤ capacity) (left : channel.sent.drop receiver = [])
      (shut : isOpen = false) : Reads channel capacity isOpen receiver (receiver, .closed)

theorem recv_reads (channel : Broadcast α) (capacity : Nat) (isOpen : Bool) (receiver : Receiver) :
    Reads channel capacity isOpen receiver (channel.recv capacity isOpen receiver) := by
  unfold recv
  split
  next behind => exact .lagged behind _ (Nat.sub_le _ _) _
  next keeps =>
    have keeps := Nat.le_of_not_lt keeps
    split
    next value found =>
      obtain ⟨inside, same⟩ := List.getElem?_eq_some_iff.mp found
      exact .value keeps (by rw [List.drop_eq_getElem_cons inside, same])
    next missing =>
      have left := List.drop_eq_nil_of_le (List.getElem?_eq_none_iff.mp missing)
      cases status : isOpen with
      | true => exact .pending keeps left rfl
      | false => exact .closed keeps left rfl

theorem send_eq (value : α) (heard : 0 < channel.receivers) :
    channel.send value = some { channel with sent := channel.sent ++ [value] } :=
  if_neg (Nat.ne_of_gt heard)

end Broadcast

end MidnightIndexer.Lib
