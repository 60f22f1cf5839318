import Mathlib
/-!
# The bandwidth probe's two threads

`calculate_bandwidth` publishes ten messages of 1024 bytes. After each publish it counts
the message in `messages_sent`. Meanwhile the client's callback thread runs
`delivery_complete` once per delivered message. That callback bumps `messages_delivered`,
and then, in a second atomic access, compares the two counters and stamps `end_time` when
they are equal. Once both counters reach ten, the sender divides the bytes by
`end_time − start_time`.

The two threads are modelled as a step relation on their shared state (`step`, `run`):
the sender's publish and increment, the callback's increment and comparison, and a clock
tick. Each delivery comes after its own publish. On every run `end_time` is either still
default-constructed (the clock's epoch, `0`) or a time at or after `start_time`. So the
result is positive exactly when some comparison stamped it (`bandwidth_pos_iff`).

Nothing orders a delivery's comparison after the sender's increment for the same
message. When each message is delivered and compared before the sender counts it, the
comparison never sees equal counters. The wait loop still ends with both counters at
ten, `end_time` is never stamped, and the result is negative. When only the last one is,
`end_time` stays at the previous delivery and the result is too large
(`bandwidth_unstamped`).
-/

namespace PahoMqtt

namespace BrokerMonitorThread

/-- `BANDWIDTH_TEST_MESSAGE_COUNT`. -/
def bandwidthTestMessageCount : ℕ := 10

/-- `BANDWIDTH_TEST_MESSAGE_SIZE`. -/
def bandwidthTestMessageSize : ℕ := 1024

/-- The state `calculate_bandwidth` shares with its `BandwidthCallback`, times in
milliseconds of `steady_clock` with its epoch at `0`: the publishes made, the two atomic
counters, whether a `delivery_complete` has bumped its counter and not yet compared, the
two time points (`end_time` default-constructed at the epoch), and the time of the latest
delivery, which the code does not keep. -/
structure BandwidthCallback where
  clock : ℕ
  published : ℕ
  messagesSent : ℕ
  messagesDelivered : ℕ
  comparing : Bool
  startTime : ℕ
  endTime : ℕ
  lastDelivery : ℕ
  deriving DecidableEq, Repr

/-- The atomic steps of the two threads, and a clock tick. -/
inductive BandwidthStep
  | tick
  /-- The sender's `client->publish(…)` of its next message. -/
  | publish
  /-- The sender's `callback.messages_sent++`. -/
  | increment
  /-- `delivery_complete`: `messages_delivered++`. -/
  | deliver
  /-- `delivery_complete`: `if (messages_delivered == messages_sent) end_time = now();`. -/
  | compare
  deriving DecidableEq, Repr

namespace BandwidthCallback

/-- `callback.start_time = now()`, just before the sender's loop. -/
def init (now : ℕ) : BandwidthCallback :=
  ⟨now, 0, 0, 0, false, now, 0, 0⟩

/-- One step, when it is enabled. The sender alternates publish and increment ten times;
a delivery needs a publish it has not yet matched and the previous callback finished. -/
def step (s : BandwidthCallback) : BandwidthStep → Option BandwidthCallback
  | .tick => some { s with clock := s.clock + 1 }
  | .publish =>
    if s.published = s.messagesSent ∧ s.published < bandwidthTestMessageCount then
      some { s with published := s.published + 1 }
    else none
  | .increment =>
    if s.messagesSent < s.published then some { s with messagesSent := s.messagesSent + 1 }
    else none
  | .deliver =>
    if !s.comparing ∧ s.messagesDelivered < s.published then
      some { s with messagesDelivered := s.messagesDelivered + 1, comparing := true,
                    lastDelivery := s.clock }
    else none
  | .compare =>
    if s.comparing then
      some { s with comparing := false,
                    endTime := if s.messagesDelivered = s.messagesSent then s.clock else s.endTime }
    else none

/-- A schedule of steps, `none` when one of them is not enabled. -/
def run : List BandwidthStep → BandwidthCallback → Option BandwidthCallback
  | [], s => some s
  | e :: es, s => (s.step e).bind (run es)

/-- The value `calculate_bandwidth` returns once its wait loop has ended. -/
def bandwidth (s : BandwidthCallback) : ℚ :=
  let durationMs : ℤ := (s.endTime : ℤ) - s.startTime
  let durationMs := if durationMs = 0 then 1 else durationMs
  (bandwidthTestMessageSize * bandwidthTestMessageCount : ℚ) * 1000 / durationMs

/-! ## On every run `end_time` is the epoch or after `start_time` -/

/-- The clock never runs behind the start, and `end_time` is the epoch or a stamp taken
after the start. -/
structure Inv (s : BandwidthCallback) : Prop where
  clock : s.startTime ≤ s.clock
  endTime : s.endTime = 0 ∨ s.startTime ≤ s.endTime

theorem inv_init (now : ℕ) : (init now).Inv :=
  ⟨le_rfl, .inl rfl⟩

theorem Inv.step {s s' : BandwidthCallback} (h : s.Inv) {e : BandwidthStep}
    (hs : s.step e = some s') : s'.Inv := by
  cases e with
  | tick => cases hs; exact ⟨Nat.le_succ_of_le h.clock, h.endTime⟩
  | publish | increment | deliver =>
    simp only [BandwidthCallback.step] at hs
    split_ifs at hs
    cases hs
    exact ⟨h.clock, h.endTime⟩
  | compare =>
    simp only [BandwidthCallback.step] at hs
    split_ifs at hs with _ heq <;> cases hs
    · exact ⟨h.clock, .inr h.clock⟩
    · exact ⟨h.clock, h.endTime⟩

theorem Inv.run {s : BandwidthCallback} (h : s.Inv) :
    ∀ {es : List BandwidthStep} {s' : BandwidthCallback}, run es s = some s' → s'.Inv
  | [], _, hs => Option.some_injective _ hs ▸ h
  | e :: es, s', hs => by
    obtain ⟨t, ht, hrun⟩ := Option.bind_eq_some.1 hs
    exact (h.step ht).run hrun

theorem startTime_step {s s' : BandwidthCallback} {e : BandwidthStep} (hs : s.step e = some s') :
    s'.startTime = s.startTime := by
  cases e <;> simp only [BandwidthCallback.step] at hs <;> (try split_ifs at hs) <;> cases hs <;> rfl

theorem startTime_run :
    ∀ {es : List BandwidthStep} {s s' : BandwidthCallback}, run es s = some s' →
      s'.startTime = s.startTime
  | [], _, _, hs => by cases hs; rfl
  | e :: es, s, s', hs => by
    obtain ⟨t, ht, hrun⟩ := Option.bind_eq_some.1 hs
    exact (startTime_run hrun).trans (startTime_step ht)

theorem bytes_pos : (0 : ℚ) < (bandwidthTestMessageSize * bandwidthTestMessageCount : ℚ) * 1000 := by
  norm_num [bandwidthTestMessageSize, bandwidthTestMessageCount]

/-- An `end_time` left at the epoch gives a negative result once the probe began after it. -/
theorem bandwidth_neg_of_unstamped {s : BandwidthCallback} (h0 : s.endTime = 0)
    (hstart : 0 < s.startTime) : s.bandwidth < 0 := by
  have hd : (s.endTime : ℤ) - s.startTime < 0 := by omega
  simp only [bandwidth, hd.ne, if_false]
  exact div_neg_of_pos_of_neg bytes_pos (by exact_mod_cast hd)

/-- An `end_time` stamped at or after the start gives a positive result. -/
theorem bandwidth_pos_of_stamped {s : BandwidthCallback} (hle : s.startTime ≤ s.endTime) :
    0 < s.bandwidth := by
  simp only [bandwidth]
  split_ifs with hd
  · simpa using bytes_pos
  · have : (0 : ℤ) < s.endTime - s.startTime := by omega
    exact div_pos bytes_pos (by exact_mod_cast this)

/-- **The result is positive exactly when `end_time` was stamped**, on every run begun
after the clock's epoch: an unstamped `end_time` lies before the start and gives a
negative result. -/
theorem bandwidth_pos_iff (t0 : ℕ) {es : List BandwidthStep} {s : BandwidthCallback}
    (hs : run es (init (t0 + 1)) = some s) : 0 < s.bandwidth ↔ s.endTime ≠ 0 := by
  have h := (inv_init (t0 + 1)).run hs
  have hstart : s.startTime = t0 + 1 := startTime_run hs
  rcases h.endTime with h0 | hle
  · simp only [h0, ne_eq, not_true_eq_false, iff_false, not_lt]
    exact (bandwidth_neg_of_unstamped h0 (by omega)).le
  · simp only [show s.endTime ≠ 0 by omega, ne_eq, not_false_eq_true, iff_true]
    exact bandwidth_pos_of_stamped hle

/-- Each message delivered, and its delivery compared, before the sender counts it. -/
def countedLate : List BandwidthStep :=
  (List.replicate bandwidthTestMessageCount [.publish, .deliver, .compare, .increment]).flatten

/-- Every delivery compared before its count: the result is not positive, and `end_time`
was never stamped. -/
theorem bandwidth_pos_iff_countedLate :
    ∃ s, run countedLate (init (0 + 1)) = some s ∧ (0 < s.bandwidth ↔ s.endTime ≠ 0) :=
  have h : run countedLate (init (0 + 1)) = some ⟨1, 10, 10, 10, false, 1, 0, 1⟩ := rfl
  ⟨_, h, bandwidth_pos_iff 0 h⟩

/-! ## Schedules that leave `end_time` unstamped or stale -/

/-- The first nine messages counted before their delivery and the last one after it, with
a millisecond before each delivery. -/
def lastCountedLate : List BandwidthStep :=
  (List.replicate 9 [.publish, .increment, .tick, .deliver, .compare]).flatten ++
    [.publish, .tick, .deliver, .compare, .increment]

/-- **The wait loop can end with both counters at ten and `end_time` not stamped at the
last delivery.** When every delivery is compared before the sender counts its message,
`end_time` stays at the epoch and the result is negative. When only the last one is,
`end_time` keeps the ninth delivery's time, and the result is the bytes over nine
milliseconds where the last delivery came ten after the start. -/
theorem bandwidth_unstamped (t0 : ℕ) :
    (∃ s, run countedLate (init (t0 + 1)) = some s ∧ s.messagesSent = 10 ∧
      s.messagesDelivered = 10 ∧ s.endTime = 0 ∧ s.bandwidth < 0) ∧
    (∃ s, run lastCountedLate (init t0) = some s ∧ s.messagesSent = 10 ∧
      s.messagesDelivered = 10 ∧ s.lastDelivery = t0 + 10 ∧ s.endTime = t0 + 9 ∧
      s.bandwidth = 10240000 / 9) := by
  have hstale : run lastCountedLate (init t0) = some ⟨t0 + 10, 10, 10, 10, false, t0, t0 + 9, t0 + 10⟩ :=
    rfl
  have hd : ((t0 + 9 : ℕ) : ℤ) - (t0 : ℕ) = 9 := by omega
  refine ⟨⟨_, rfl, rfl, rfl, rfl, bandwidth_neg_of_unstamped rfl (Nat.succ_pos t0)⟩,
    ⟨_, hstale, rfl, rfl, rfl, rfl, ?_⟩⟩
  simp only [bandwidth, hd]
  norm_num [bandwidthTestMessageSize, bandwidthTestMessageCount]

end BandwidthCallback

end BrokerMonitorThread

end PahoMqtt
