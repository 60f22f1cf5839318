import Mathlib
/-!
# Consuming messages from the client's event queue

`async_client` hands incoming messages and connection events to the application through a
consumer queue. `try_consume_event_for` and `try_consume_event_until` pop its head, give a
shutdown event once it is closed and empty, and time out on an open empty queue
(`tryConsumeEvent`; on a finite queue the time bound plays no part). The two message
readers loop on them, skipping events until they can answer.

`try_consume_message_for` answers as `consume_message` is documented to: with the first
message if one comes before any disconnect, with an empty message at the first
connection loss, disconnect or shutdown, and with a time-out when an open queue runs out
(`consumeMessageSpec`, `tryConsumeMessageFor_spec`). It never needs more passes than the
queue has events, plus one.

`try_consume_message_until` tests `!evt.is_any_disconnect()` where the other tests
`evt.is_any_disconnect()`. It answers with an empty message at the first event that is
neither a message nor a disconnect (a `connected` event), skips every disconnect, and on
a closed queue never returns: once the queue is empty each pass gets a fresh shutdown
event and skips it (`tryConsumeMessageUntil_diverges`).
-/

namespace PahoMqtt

/-- Modelled from the spec: the events of the consumer queue (`event.h`, not among the
sources): a connection made, a connection lost, a disconnect, an arrived message, and the
shutdown event a closed queue yields. -/
inductive ClientEvent (M : Type)
  | connected
  | connectionLost
  | disconnected
  | message (msg : M)
  | shutdown
  deriving DecidableEq, Repr

namespace ClientEvent

variable {M : Type}

/-- Modelled from the spec: `event::is_any_disconnect`, a connection loss, a disconnect or a
shutdown. -/
def isAnyDisconnect : ClientEvent M → Bool
  | connectionLost | disconnected | shutdown => true
  | connected | message _ => false

/-- Modelled from the spec: `event::get_message_if`, the message of a message event. -/
def getMessageIf : ClientEvent M → Option M
  | message msg => some msg
  | _ => none

end ClientEvent

/-- The consumer queue: the events not yet read, and whether it has been closed. -/
structure ConsumerQueue (M : Type) where
  events : List (ClientEvent M)
  closed : Bool
  deriving DecidableEq, Repr

namespace ConsumerQueue

variable {M : Type}

/-- Modelled from the spec: `try_consume_event_for` and `try_consume_event_until`, over the
queue of `thread_queue.h` (not among the sources): the head of the queue; a shutdown event
when it is closed and empty; `none`, a time-out, when it is open and empty. -/
def tryConsumeEvent (q : ConsumerQueue M) : Option (ClientEvent M) × ConsumerQueue M :=
  match q.events with
  | evt :: events => (some evt, { q with events })
  | [] => (if q.closed then some .shutdown else none, q)

/-- The loop of `try_consume_message_for(&msg, relTime)` with `fuel` passes: the return
value, `msg` as it leaves it, and the queue; `none` when the passes run out. -/
def tryConsumeMessageFor (msg : Option M) : ℕ → ConsumerQueue M →
    Option (Bool × Option M × ConsumerQueue M)
  | 0, _ => none
  | fuel + 1, q =>
    match q.tryConsumeEvent with
    | (none, q) => some (false, msg, q)
    | (some evt, q) =>
      match evt.getMessageIf with
      | some m => some (true, some m, q)
      | none => if evt.isAnyDisconnect then some (true, none, q) else tryConsumeMessageFor msg fuel q

/-- The loop of `try_consume_message_until(&msg, absTime)` with `fuel` passes. It tests
`!evt.is_any_disconnect()` where `try_consume_message_for` tests `evt.is_any_disconnect()`. -/
def tryConsumeMessageUntil (msg : Option M) : ℕ → ConsumerQueue M →
    Option (Bool × Option M × ConsumerQueue M)
  | 0, _ => none
  | fuel + 1, q =>
    match q.tryConsumeEvent with
    | (none, q) => some (false, msg, q)
    | (some evt, q) =>
      match evt.getMessageIf with
      | some m => some (true, some m, q)
      | none => if !evt.isAnyDisconnect then some (true, none, q) else tryConsumeMessageUntil msg fuel q

/-- What `consume_message` is documented to do, on a finite queue: the first message if it
comes before any disconnect-class event, an empty message at the first such event (the
shutdown of a closed queue included), and a time-out, `msg` untouched, when an open queue
runs out. -/
def consumeMessageSpec (msg : Option M) : List (ClientEvent M) → Bool → Bool × Option M
  | [], closed => if closed then (true, none) else (false, msg)
  | .message m :: _, _ => (true, some m)
  | evt :: events, closed =>
    if evt.isAnyDisconnect then (true, none) else consumeMessageSpec msg events closed

/-! ## `try_consume_message_for` -/

/-- **`try_consume_message_for` keeps the documented promise** on every queue, within one
pass more than the queue has events: its answer and `msg` are those of
`consumeMessageSpec`. -/
theorem tryConsumeMessageFor_spec (msg : Option M) :
    ∀ (fuel : ℕ) (q : ConsumerQueue M), q.events.length < fuel →
      (tryConsumeMessageFor msg fuel q).map (fun r => (r.1, r.2.1)) =
        some (consumeMessageSpec msg q.events q.closed)
  | 0, _, h => absurd h (Nat.not_lt_zero _)
  | fuel + 1, ⟨[], closed⟩, _ => by
    cases closed <;> rfl
  | fuel + 1, ⟨evt :: events, closed⟩, h => by
    -- a `connected` event is skipped; every other event answers at once
    cases evt
    case connected => exact tryConsumeMessageFor_spec msg fuel ⟨events, closed⟩ (by simpa using h)
    all_goals rfl

/-- A `connected` event, then a message: the message is returned. -/
theorem tryConsumeMessageFor_spec_connected :
    (⟨[.connected, .message 7], false⟩ : ConsumerQueue ℕ).events.length < 3 ∧
    (tryConsumeMessageFor none 3 (⟨[.connected, .message 7], false⟩ : ConsumerQueue ℕ)).map
        (fun r => (r.1, r.2.1)) = some (consumeMessageSpec none [.connected, .message 7] false) :=
  have h : (⟨[.connected, .message 7], false⟩ : ConsumerQueue ℕ).events.length < 3 := by decide
  ⟨h, tryConsumeMessageFor_spec none 3 _ h⟩

/-! ## `try_consume_message_until` -/

/-- A closed queue holding only disconnect-class events keeps the loop going: every event
is skipped, and the empty queue then yields shutdown events without end. -/
theorem tryConsumeMessageUntil_closed (msg : Option M) :
    ∀ (fuel : ℕ) (events : List (ClientEvent M)), (∀ evt ∈ events, evt.isAnyDisconnect) →
      tryConsumeMessageUntil msg fuel ⟨events, true⟩ = none
  | 0, _, _ => rfl
  | fuel + 1, [], _ => tryConsumeMessageUntil_closed msg fuel [] (by simp)
  | fuel + 1, evt :: events, h => by
    have ih := tryConsumeMessageUntil_closed msg fuel events fun e he => h e (List.mem_cons_of_mem _ he)
    have hevt := h evt (List.mem_cons_self _ _)
    cases evt
    case connected | message => exact absurd hevt Bool.false_ne_true
    all_goals exact ih

/-- **`try_consume_message_until` does not agree with `try_consume_message_for`.** On a
closed empty queue it never returns, however many passes it is given, where
`try_consume_message_for` answers at once with an empty message; and on an open queue
holding a `connected` event and then a message it answers with an empty message where
`try_consume_message_for` returns the message. -/
theorem tryConsumeMessageUntil_diverges (msg : Option M) (m : M) :
    (∀ fuel, tryConsumeMessageUntil msg fuel (⟨[], true⟩ : ConsumerQueue M) = none) ∧
    tryConsumeMessageFor msg 1 (⟨[], true⟩ : ConsumerQueue M) = some (true, none, ⟨[], true⟩) ∧
    tryConsumeMessageUntil msg 2 ⟨[.connected, .message m], false⟩ =
      some (true, none, ⟨[.message m], false⟩) ∧
    tryConsumeMessageFor msg 2 ⟨[.connected, .message m], false⟩ =
      some (true, some m, ⟨[], false⟩) :=
  ⟨fun fuel => tryConsumeMessageUntil_closed msg fuel [] (by simp), rfl, rfl, rfl⟩

end ConsumerQueue

end PahoMqtt
