import PahoMqtt.Manager.Step
/-!
# No message is lost or duplicated

The manager's offline queue changes in two ways only (`step_cases`): `publish` appends to
it through `add_message_to_queue`, when disconnected or when the forward throws, evicting
the front of a full queue; and every successful connect flushes it through
`resend_queued_messages`, which hands a prefix of it to the new client. So along every run
the manager's queue is the queue of a run of the queue model of `PahoMqtt.Queue`
(`Refines`), and what that model proves (the bound, FIFO order, eviction of the oldest)
holds of it.

The ghost log `sent` of the messages the clients accepted closes the account
(`messageQueue_refines`): every message the application published is, exactly once,
accepted by a client, evicted from a full queue, or still waiting; the queue takes the
published messages in the order they were published, and the clients accept the flushed
ones in queue order. The queue of every reachable manager holds at most `MAX_QUEUE_SIZE`
messages (`messageQueue_length_le`).
-/

namespace PahoMqtt

namespace SelfAdaptiveMqttManager

open scoped List

variable {K : Type} [LinearOrderedField K]

/-- `ops` is a run of the queue model that follows the manager from `s` to `t` while the
application publishes `pub`. -/
structure Refines (s t : SelfAdaptiveMqttManager K) (pub : List QueuedMessage)
    (ops : List QueueOp) : Prop where
  /-- The model's queue is the manager's. -/
  queue : (runQueue ops s.messageQueue).1 = t.messageQueue
  /-- The model enqueues published messages, in the order they were published. -/
  added : ops.flatMap QueueOp.added <+ pub
  /-- The clients accept what the model forwards, in order. -/
  forwarded : s.sent ++ (runQueue ops s.messageQueue).2.filterMap Exit.forwardedMessage <+ t.sent
  /-- Every message is accepted, evicted or waiting, exactly once. -/
  conserve : s.sent ++ s.messageQueue ++ pub ~
    t.sent ++ (runQueue ops s.messageQueue).2.filterMap Exit.evictedMessage ++ t.messageQueue

section refines

omit [LinearOrderedField K]

variable {s t u : SelfAdaptiveMqttManager K}

theorem Refines.trans {p₁ p₂ : List QueuedMessage} {ops₁ ops₂ : List QueueOp}
    (h₁ : Refines s u p₁ ops₁) (h₂ : Refines u t p₂ ops₂) : Refines s t (p₁ ++ p₂) (ops₁ ++ ops₂) := by
  obtain ⟨hq₁, ha₁, hf₁, hc₁⟩ := h₁
  obtain ⟨hq₂, ha₂, hf₂, hc₂⟩ := h₂
  refine ⟨by rw [runQueue_append, hq₁, hq₂], by rw [List.flatMap_append]; exact ha₁.append ha₂, ?_, ?_⟩
  · rw [runQueue_append, hq₁, List.filterMap_append, ← List.append_assoc]
    exact (hf₁.append_right _).trans hf₂
  · rw [runQueue_append, hq₁, List.filterMap_append]
    rw [List.perm_iff_count] at hc₁ hc₂ ⊢
    intro a
    have h₁ := hc₁ a
    have h₂ := hc₂ a
    simp only [List.count_append] at h₁ h₂ ⊢
    omega

/-- A flush is a run of the model: one flush in which exactly the messages handed over
are delivered. -/
theorem Drains.refines (h : Drains s t) : ∃ ops, Refines s t [] ops := by
  obtain ⟨pre, hq, hs⟩ := h
  refine ⟨[.flush fun i => decide (i < pre.length)], ?_, List.nil_sublist _, ?_, ?_⟩ <;>
    simp [runQueue, hq, hs, QueueOp.apply_flush_prefix, -List.filterMap_map]

end refines

omit [LinearOrderedField K] in
/-- `publish` forwards the message, or enqueues it in the model. -/
theorem refines_publish (o : Oracle) (m : QueuedMessage) (s : SelfAdaptiveMqttManager K) :
    ∃ ops, Refines s (s.publish o m).2 [m] ops := by
  have henq : Refines s (s.addMessageToQueue m) [m] [.enqueue m] := by
    obtain ⟨hf, hc⟩ := QueueOp.enqueue_exits m s.messageQueue
    refine ⟨rfl, .refl _, by simp only [runQueue, List.append_nil, hf]; exact .refl _, .of_eq ?_⟩
    simp only [runQueue, List.append_nil, List.append_assoc]
    exact congrArg (s.sent ++ ·) hc.symm
  unfold publish
  split
  · exact ⟨_, henq⟩
  · split
    · refine ⟨[], rfl, List.nil_sublist _, by simp [runQueue], ?_⟩
      simpa [runQueue] using (List.perm_append_singleton m s.messageQueue).append_left s.sent
    · exact ⟨_, henq⟩

/-- **One step is a run of the queue model.** -/
theorem refines_step {e : Event K} {s t : SelfAdaptiveMqttManager K} (h : step e s = some t) :
    ∃ ops, Refines s t e.published ops := by
  rcases step_cases h with ⟨_, _, rfl, rfl⟩ | ⟨_, rfl, rfl⟩ | ⟨_, _, rfl, rfl⟩ | ⟨o, m, rfl, rfl⟩ |
    ⟨hp, hi⟩
  · exact Drains.refines (.frame rfl rfl)
  · exact Drains.refines (.frame rfl rfl)
  · exact Drains.refines (.frame rfl rfl)
  · exact refines_publish o m s
  · exact hp ▸ hi.drains.refines

theorem refines_run {es : List (Event K)} {s t : SelfAdaptiveMqttManager K} (h : run es s = some t) :
    ∃ ops, Refines s t (es.flatMap Event.published) ops := by
  induction es generalizing s with
  | nil => cases h; exact Drains.refines (.frame rfl rfl)
  | cons e es ih =>
    obtain ⟨u, hu, h⟩ := run_cons_eq_some.1 h
    obtain ⟨ops₁, h₁⟩ := refines_step hu
    obtain ⟨ops₂, h₂⟩ := ih h
    exact ⟨ops₁ ++ ops₂, h₁.trans h₂⟩

/-- **The offline queue is a queue-model run, and no message is lost or duplicated.** For
every run of a new manager there is a run of the queue model whose queue is the manager's,
which enqueues published messages in the order they were published, and whose flushed
messages the clients accepted, in order; and every message the application published is,
exactly once, accepted by a client, evicted from a full queue, or still waiting. -/
theorem messageQueue_refines {category : String} {es : List (Event K)}
    {s : SelfAdaptiveMqttManager K} (h : run es (init category) = some s) :
    ∃ ops : List QueueOp, (runQueue ops []).1 = s.messageQueue ∧
      ops.flatMap QueueOp.added <+ es.flatMap Event.published ∧
      (runQueue ops []).2.filterMap Exit.forwardedMessage <+ s.sent ∧
      es.flatMap Event.published ~
        s.sent ++ (runQueue ops []).2.filterMap Exit.evictedMessage ++ s.messageQueue := by
  obtain ⟨ops, hq, ha, hf, hc⟩ := refines_run h
  exact ⟨ops, hq, ha, hf, by simpa using hc⟩

/-- A message published while no broker is known, then a broker, and a connect that
flushes the message to it. -/
theorem messageQueue_refines_flush :
    let es : List (Event ℚ) :=
      [.publish allUp ⟨"sensors/temp", "21.5", 1, false⟩, .setBrokers 0 ["tcp://a"], .connect allUp]
    ∃ s, run es (init "sensor") = some s ∧
      ∃ ops : List QueueOp, (runQueue ops []).1 = s.messageQueue ∧
        ops.flatMap QueueOp.added <+ es.flatMap Event.published ∧
        (runQueue ops []).2.filterMap Exit.forwardedMessage <+ s.sent ∧
        es.flatMap Event.published ~
          s.sent ++ (runQueue ops []).2.filterMap Exit.evictedMessage ++ s.messageQueue :=
  ⟨_, rfl, messageQueue_refines rfl⟩

/-- **The offline queue of every reachable manager holds at most `MAX_QUEUE_SIZE`
messages.** -/
theorem messageQueue_length_le {s : SelfAdaptiveMqttManager K} (h : Reachable s) :
    s.messageQueue.length ≤ maxQueueSize := by
  obtain ⟨category, es, hr⟩ := h
  obtain ⟨ops, h⟩ := refines_run hr
  exact h.queue ▸ length_runQueue_le ops (Nat.zero_le _)

/-- A manager that published once while disconnected. -/
theorem messageQueue_length_le_publish :
    Reachable ((init "sensor" : SelfAdaptiveMqttManager ℚ).publish allUp
      ⟨"sensors/temp", "21.5", 1, false⟩).2 ∧
    ((init "sensor" : SelfAdaptiveMqttManager ℚ).publish allUp
      ⟨"sensors/temp", "21.5", 1, false⟩).2.messageQueue.length ≤ maxQueueSize :=
  have h : Reachable ((init "sensor" : SelfAdaptiveMqttManager ℚ).publish allUp
      ⟨"sensors/temp", "21.5", 1, false⟩).2 :=
    ⟨"sensor", [.publish allUp ⟨"sensors/temp", "21.5", 1, false⟩], rfl⟩
  ⟨h, messageQueue_length_le h⟩

end SelfAdaptiveMqttManager

end PahoMqtt
