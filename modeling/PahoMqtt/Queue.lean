import Mathlib.Data.List.Basic
/-!
# The offline queue

`message_queue_` of `SelfAdaptiveMqttManager` with its two writers: `add_message_to_queue`,
which drops the front of a full queue before it appends, and `resend_queued_messages`,
which publishes from the front and stops, leaving the message in place, at the first
publish that throws. `std::queue` is a list whose head is the front.

A run is a list of `QueueOp`s; `QueueOp.apply` also returns the messages that left the
queue, each tagged with how (`Exit`). Each operation conserves messages
(`exits_append_apply`): what left, then what stays, is what was there, then what
came in. So over a whole run the messages that left are a prefix of those enqueued, in
order, and the queue is the rest (`offlineQueue_fifo`).
-/

namespace PahoMqtt

/-- `QueuedMessage`. Its `timestamp` is written and never read, and is left out. -/
structure QueuedMessage where
  topic : String
  payload : String
  qos : ℤ
  retained : Bool
  deriving DecidableEq, Repr

/-- `MAX_QUEUE_SIZE`. -/
def maxQueueSize : ℕ := 1000

/-- `add_message_to_queue`: pop the front of a full queue, then push. -/
def addMessageToQueue {α : Type} (m : α) (q : List α) : List α :=
  (if maxQueueSize ≤ q.length then q.tail else q) ++ [m]

/-- The loop of `resend_queued_messages` from its `k`-th publish, where `deliver k` says
whether that publish returns rather than throws: the messages forwarded, and the queue
left behind. -/
def resendFrom (deliver : ℕ → Bool) (k : ℕ) :
    List QueuedMessage → List QueuedMessage × List QueuedMessage
  | [] => ([], [])
  | m :: q =>
    if deliver k then
      let r := resendFrom deliver (k + 1) q
      (m :: r.1, r.2)
    else ([], m :: q)

/-- `resend_queued_messages`. -/
def resendQueuedMessages (deliver : ℕ → Bool) (q : List QueuedMessage) :
    List QueuedMessage × List QueuedMessage :=
  resendFrom deliver 0 q

/-- **A flush forwards the longest prefix before the first publish that throws**, and
leaves the rest, headed by the message whose publish threw. -/
theorem resendFrom_spec (deliver : ℕ → Bool) (k : ℕ) (q : List QueuedMessage) :
    ∃ j ≤ q.length, resendFrom deliver k q = (q.take j, q.drop j) ∧
      (∀ i < j, deliver (k + i) = true) ∧ (j < q.length → deliver (k + j) = false) := by
  induction q generalizing k with
  | nil => exact ⟨0, le_rfl, rfl, fun _ h => absurd h (Nat.not_lt_zero _), fun h => absurd h (Nat.lt_irrefl _)⟩
  | cons m q ih =>
    by_cases hd : deliver k
    · obtain ⟨j, hj, hr, hok, hfail⟩ := ih (k + 1)
      refine ⟨j + 1, by simpa using hj, by simp [resendFrom, hd, hr], fun i hi => ?_, fun h => ?_⟩
      · cases i with
        | zero => simpa using hd
        | succ i => simpa [Nat.add_assoc, Nat.add_comm 1] using hok i (by omega)
      · simpa [Nat.add_assoc, Nat.add_comm 1] using hfail (by simpa using h)
    · exact ⟨0, Nat.zero_le _, by simp [resendFrom, hd], fun _ h => absurd h (Nat.not_lt_zero _),
        fun _ => by simpa using hd⟩

/-! ## Runs of the queue -/

/-- What happens to the queue: `publish` enqueues, a completed connection flushes. -/
inductive QueueOp
  | enqueue (m : QueuedMessage)
  | flush (deliver : ℕ → Bool)

/-- How a message leaves the queue. -/
inductive Exit
  | forwarded (m : QueuedMessage)
  | evicted (m : QueuedMessage)
  deriving DecidableEq, Repr

/-- The message that left. -/
def Exit.message : Exit → QueuedMessage
  | .forwarded m | .evicted m => m

/-- One operation: the queue after it, and the messages that left, in order. -/
def QueueOp.apply : QueueOp → List QueuedMessage → List QueuedMessage × List Exit
  | .enqueue m, q =>
    (addMessageToQueue m q, if maxQueueSize ≤ q.length then q.head?.toList.map .evicted else [])
  | .flush deliver, q =>
    ((resendQueuedMessages deliver q).2, (resendQueuedMessages deliver q).1.map .forwarded)

/-- The messages an operation puts in. -/
def QueueOp.added : QueueOp → List QueuedMessage
  | .enqueue m => [m]
  | .flush _ => []

/-- A run from a queue: the queue at its end, and every exit in order. -/
def runQueue : List QueueOp → List QueuedMessage → List QueuedMessage × List Exit
  | [], q => (q, [])
  | op :: ops, q =>
    let r := runQueue ops (op.apply q).1
    (r.1, (op.apply q).2 ++ r.2)

/-- **One operation conserves messages.** -/
theorem exits_append_apply (op : QueueOp) (q : List QueuedMessage) :
    (op.apply q).2.map Exit.message ++ (op.apply q).1 = q ++ op.added := by
  cases op with
  | enqueue m =>
    simp only [QueueOp.apply, addMessageToQueue, QueueOp.added]
    split
    · cases q <;> simp [Exit.message]
    · simp
  | flush deliver =>
    obtain ⟨j, -, hr, -⟩ := resendFrom_spec deliver 0 q
    simp [QueueOp.apply, QueueOp.added, resendQueuedMessages, hr, Function.comp_def, Exit.message]

theorem length_apply_le {q : List QueuedMessage} (hq : q.length ≤ maxQueueSize) (op : QueueOp) :
    (op.apply q).1.length ≤ maxQueueSize := by
  cases op with
  | enqueue m =>
    simp only [QueueOp.apply, addMessageToQueue]
    split <;> simp only [List.length_append, List.length_tail, List.length_singleton,
      maxQueueSize] at * <;> omega
  | flush deliver =>
    obtain ⟨j, -, hr, -⟩ := resendFrom_spec deliver 0 q
    simp only [QueueOp.apply, resendQueuedMessages, hr, List.length_drop]
    omega

/-- Conservation over a whole run. -/
theorem exits_append_runQueue (ops : List QueueOp) (q : List QueuedMessage) :
    (runQueue ops q).2.map Exit.message ++ (runQueue ops q).1 = q ++ ops.flatMap QueueOp.added := by
  induction ops generalizing q with
  | nil => simp [runQueue]
  | cons op ops ih =>
    simp only [runQueue, List.map_append, List.append_assoc, ih, List.flatMap_cons]
    rw [← List.append_assoc, exits_append_apply, List.append_assoc]

theorem length_runQueue_le (ops : List QueueOp) {q : List QueuedMessage}
    (hq : q.length ≤ maxQueueSize) : (runQueue ops q).1.length ≤ maxQueueSize := by
  induction ops generalizing q with
  | nil => exact hq
  | cons op ops ih => exact ih (length_apply_le hq op)

/-- **The offline queue is a bounded FIFO over every run.** From the empty queue of a new
manager, after any sequence of enqueues and flushes with any publish failures: the queue
holds at most `1000` messages; the messages that left it, forwarded or evicted, are the
first ones enqueued, in order, each once, and the queue is exactly the rest; an enqueue
evicts only when it finds `1000` entries, and then the oldest; and a flush forwards the
longest prefix before the first publish that throws, leaving that message at the head. -/
theorem offlineQueue_fifo (ops : List QueueOp) :
    let q := (runQueue ops []).1
    q.length ≤ maxQueueSize ∧
    (runQueue ops []).2.map Exit.message ++ q = ops.flatMap QueueOp.added ∧
    (∀ m, (QueueOp.enqueue m).apply q =
      if q.length = maxQueueSize then (q.tail ++ [m], q.head?.toList.map .evicted)
      else (q ++ [m], [])) ∧
    (∀ deliver, ∃ j ≤ q.length, resendQueuedMessages deliver q = (q.take j, q.drop j) ∧
      (∀ i < j, deliver i = true) ∧ (j < q.length → deliver j = false)) := by
  have hq := length_runQueue_le ops (q := []) (Nat.zero_le _)
  refine ⟨hq, by simpa using exits_append_runQueue ops [], fun m => ?_, fun deliver => ?_⟩
  · simp only [QueueOp.apply, addMessageToQueue]
    by_cases h : (runQueue ops []).1.length = maxQueueSize
    · simp [h]
    · simp [h, show ¬ maxQueueSize ≤ (runQueue ops []).1.length by omega]
  · simpa using resendFrom_spec deliver 0 (runQueue ops []).1

/-! ## Exits, and runs put end to end -/

/-- The message of an exit by a flush. -/
def Exit.forwardedMessage : Exit → Option QueuedMessage
  | .forwarded m => some m
  | .evicted _ => none

/-- The message of an exit by eviction. -/
def Exit.evictedMessage : Exit → Option QueuedMessage
  | .forwarded _ => none
  | .evicted m => some m

@[simp] theorem Exit.filterMap_forwardedMessage_map_forwarded (l : List QueuedMessage) :
    (l.map .forwarded).filterMap Exit.forwardedMessage = l := by
  induction l <;> simp [Exit.forwardedMessage, *]

@[simp] theorem Exit.filterMap_evictedMessage_map_forwarded (l : List QueuedMessage) :
    (l.map .forwarded).filterMap Exit.evictedMessage = [] := by
  simp [List.filterMap_eq_nil_iff, Exit.evictedMessage]

theorem runQueue_append (ops ops' : List QueueOp) (q : List QueuedMessage) :
    runQueue (ops ++ ops') q =
      ((runQueue ops' (runQueue ops q).1).1, (runQueue ops q).2 ++ (runQueue ops' (runQueue ops q).1).2) := by
  induction ops generalizing q with
  | nil => simp [runQueue]
  | cons op ops ih => simp [runQueue, ih]

/-- An enqueue forwards nothing; what it evicts, then the queue, is the old queue and the
message. -/
theorem QueueOp.enqueue_exits (m : QueuedMessage) (q : List QueuedMessage) :
    ((QueueOp.enqueue m).apply q).2.filterMap Exit.forwardedMessage = [] ∧
    ((QueueOp.enqueue m).apply q).2.filterMap Exit.evictedMessage ++ ((QueueOp.enqueue m).apply q).1 =
      q ++ [m] := by
  simp only [QueueOp.apply, addMessageToQueue]
  split
  · cases q <;> simp [Exit.forwardedMessage, Exit.evictedMessage]
  · simp

/-- The loop of `resend_queued_messages` from its `k`-th publish, when exactly the publishes
before the `k + pre.length`-th return: it forwards `pre` and stops at what follows. -/
theorem resendFrom_prefix (pre q : List QueuedMessage) {k n : ℕ} (h : k + pre.length = n) :
    resendFrom (fun i => decide (i < n)) k (pre ++ q) = (pre, q) := by
  induction pre generalizing k with
  | nil => cases q <;> simp [resendFrom, ← h]
  | cons m pre ih =>
    simp only [List.length_cons] at h
    simp [resendFrom, ih (k := k + 1) (by omega), show k < n by omega]

/-- A flush in which exactly the first `pre.length` publishes return. -/
theorem QueueOp.apply_flush_prefix (pre q : List QueuedMessage) :
    (QueueOp.flush fun i => decide (i < pre.length)).apply (pre ++ q) = (q, pre.map .forwarded) := by
  simp [QueueOp.apply, resendQueuedMessages, resendFrom_prefix pre q (Nat.zero_add _)]

end PahoMqtt
