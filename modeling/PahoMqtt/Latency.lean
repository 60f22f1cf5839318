import PahoMqtt.Score
/-!
# The latency probe and the messages it takes for its echo

`calculate_latency` subscribes a fresh client to `LATENCY_TOPIC` (`"test/latency"`). It then
stamps `send_time` and publishes a message whose payload carries the stamp, and waits up to
5000 ms for its `LatencyCallback` to see a message. Each `message_arrived` stamps
`receive_time` and sets `message_received`, whatever the message is: nothing reads the
payload back. Once the wait has ended, the probe throws if no message came. Otherwise it
returns `receive_time − send_time` in milliseconds.

The probe's thread and the callback are modelled as interleaved atomic steps on their
shared state (`step`, `run`), with times in microseconds of `steady_clock`. The arrival of
the probe's own echo and that of a message another client published on the same topic are
two steps. When every message that arrives is the echo, it arrives after the stamp. So on
every run a returned latency is neither negative nor longer than the time since the stamp
(`latency_of_arrivals`). A message from another client is taken for the echo all the same.
Arriving between the subscription and the stamp, it ends the wait at once with a negative
latency, which `update_score` scores as if no latency had been measured.
-/

namespace PahoMqtt

namespace BrokerMonitorThread

/-- Where the thread running `calculate_latency` is, once its subscription is made. -/
inductive LatencyPc
  /-- Subscribed; `send_time` not yet stamped. -/
  | subscribed
  /-- `callback.send_time = now;` done. -/
  | stamped
  /-- The message published. -/
  | published
  /-- In the wait loop, begun at `start_wait`. -/
  | waiting
  /-- Out of the wait loop. -/
  | left
  /-- The latency returned. -/
  | returned
  /-- `throw std::runtime_error(…)`: no message by the end of the wait. -/
  | threw
  deriving DecidableEq, Repr

namespace LatencyPc

/-- The probe's message has been published. -/
def sent : LatencyPc → Bool
  | subscribed | stamped => false
  | published | waiting | left | returned | threw => true

/-- The probe has not yet returned or thrown: its callback still counts arrivals. -/
def live : LatencyPc → Bool
  | returned | threw => false
  | subscribed | stamped | published | waiting | left => true

end LatencyPc

/-- The state `calculate_latency` shares with its `LatencyCallback`: the clock in
microseconds (epoch `0`), where the probe is, `message_received`, the two time points
(default-constructed at the epoch), `start_wait`, and the value returned. -/
structure LatencyCallback where
  clock : ℕ
  pc : LatencyPc
  messageReceived : Bool
  sendTime : ℕ
  receiveTime : ℕ
  startWait : ℕ
  result : Option ℚ
  deriving DecidableEq, Repr

/-- The atomic steps of the probe's thread and of its callback, and a clock tick. -/
inductive LatencyStep
  | tick
  /-- `auto now = steady_clock::now(); …; callback.send_time = now;` -/
  | stamp
  /-- `client->publish(LATENCY_TOPIC, …)`. -/
  | publish
  /-- `auto start_wait = steady_clock::now();` -/
  | startWait
  /-- The wait loop's exit: `message_received` seen, or 5000 ms gone. -/
  | leave
  /-- `if (!callback.message_received) throw …;`, then the latency from the two stamps. -/
  | finish
  /-- `message_arrived` with the echo of the probe's own message. -/
  | echo
  /-- `message_arrived` with a message another client published on `LATENCY_TOPIC`. -/
  | foreign
  deriving DecidableEq, Repr

namespace LatencyCallback

/-- The probe just after its subscription, at time `now`. -/
def init (now : ℕ) : LatencyCallback :=
  ⟨now, .subscribed, false, 0, 0, 0, none⟩

/-- `message_arrived`: `receive_time = now(); message_received = true;`. -/
def arrive (s : LatencyCallback) : LatencyCallback :=
  { s with receiveTime := s.clock, messageReceived := true }

/-- `duration_cast<microseconds>(receive_time - send_time).count() / 1000.0`. -/
def latencyMs (s : LatencyCallback) : ℚ :=
  ((s.receiveTime : ℤ) - s.sendTime : ℤ) / 1000

/-- One step, when it is enabled. The probe's thread runs in program order; the echo can
arrive once the message is published, and a foreign message at any time, until the probe
returns or throws. -/
def step (s : LatencyCallback) : LatencyStep → Option LatencyCallback
  | .tick => some { s with clock := s.clock + 1 }
  | .stamp => if s.pc = .subscribed then some { s with pc := .stamped, sendTime := s.clock } else none
  | .publish => if s.pc = .stamped then some { s with pc := .published } else none
  | .startWait =>
    if s.pc = .published then some { s with pc := .waiting, startWait := s.clock } else none
  | .leave =>
    if s.pc = .waiting ∧ (s.messageReceived ∨ 5000 ≤ (s.clock - s.startWait) / 1000) then
      some { s with pc := .left }
    else none
  | .finish =>
    if s.pc = .left then
      if s.messageReceived then some { s with pc := .returned, result := some s.latencyMs }
      else some { s with pc := .threw }
    else none
  | .echo => if s.pc.sent ∧ s.pc.live then some s.arrive else none
  | .foreign => if s.pc.live then some s.arrive else none

/-- A schedule of steps, `none` when one of them is not enabled. -/
def run : List LatencyStep → LatencyCallback → Option LatencyCallback
  | [], s => some s
  | e :: es, s => (s.step e).bind (run es)

/-! ## Runs on which every arrival is the echo -/

/-- The stamp never lies ahead of the clock, a received message came after the publish
and no earlier than the stamp, and a returned latency lies between `0` and the time since
the stamp. -/
structure Inv (s : LatencyCallback) : Prop where
  sendTime : s.sendTime ≤ s.clock
  received : s.messageReceived = true →
    s.pc.sent = true ∧ s.sendTime ≤ s.receiveTime ∧ s.receiveTime ≤ s.clock
  result : ∀ l, s.result = some l → s.pc = .returned ∧ 0 ≤ l ∧ l * 1000 ≤ s.clock - s.sendTime

theorem inv_init (now : ℕ) : (init now).Inv :=
  ⟨Nat.zero_le _, fun h => absurd h Bool.false_ne_true, fun _ h => absurd h (Option.noConfusion)⟩

/-- A latency taken from a received message lies between `0` and the time since the stamp. -/
theorem latencyMs_mem {s : LatencyCallback} (hle : s.sendTime ≤ s.receiveTime)
    (hclock : s.receiveTime ≤ s.clock) :
    0 ≤ s.latencyMs ∧ s.latencyMs * 1000 ≤ s.clock - s.sendTime := by
  have hr : (s.sendTime : ℚ) ≤ s.receiveTime := by exact_mod_cast hle
  have hc : (s.receiveTime : ℚ) ≤ s.clock := by exact_mod_cast hclock
  simp only [latencyMs, Int.cast_sub, Int.cast_natCast]
  constructor
  · exact div_nonneg (sub_nonneg.2 hr) (by norm_num)
  · rw [div_mul_cancel₀ _ (by norm_num)]
    exact sub_le_sub_right hc _

theorem Inv.step {s s' : LatencyCallback} (h : s.Inv) {e : LatencyStep} (he : e ≠ .foreign)
    (hs : s.step e = some s') : s'.Inv := by
  cases e with
  | tick =>
    cases hs
    refine ⟨Nat.le_succ_of_le h.sendTime, fun hr => ?_, fun l hl => ?_⟩
    · obtain ⟨hsent, hle, hclock⟩ := h.received hr
      exact ⟨hsent, hle, Nat.le_succ_of_le hclock⟩
    · obtain ⟨hpc, h0, hlt⟩ := h.result l hl
      exact ⟨hpc, h0, hlt.trans (sub_le_sub_right (by exact_mod_cast Nat.le_succ _) _)⟩
  | stamp =>
    simp only [LatencyCallback.step] at hs
    split_ifs at hs with hpc
    cases hs
    have hnr : s.messageReceived = false :=
      Bool.eq_false_iff.2 fun hr => by simpa [hpc, LatencyPc.sent] using (h.received hr).1
    have hnone : s.result = none :=
      Option.eq_none_iff_forall_not_mem.2 fun l hl => by simpa [hpc] using (h.result l hl).1
    exact ⟨le_rfl, fun hr => absurd hr (by simp [hnr]), fun l hl => absurd hl (by simp [hnone])⟩
  | publish | startWait | leave =>
    simp only [LatencyCallback.step] at hs
    split_ifs at hs with hpc
    cases hs
    refine ⟨h.sendTime, fun hr => ?_, fun l hl => ?_⟩
    · obtain ⟨-, hle, hclock⟩ := h.received hr
      exact ⟨rfl, hle, hclock⟩
    · simpa [hpc] using (h.result l hl).1
  | finish =>
    simp only [LatencyCallback.step] at hs
    split_ifs at hs with hpc hr <;> cases hs
    · obtain ⟨-, hle, hclock⟩ := h.received hr
      refine ⟨h.sendTime, fun _ => ⟨rfl, hle, hclock⟩, fun l hl => ?_⟩
      cases hl
      exact ⟨rfl, latencyMs_mem hle hclock⟩
    · refine ⟨h.sendTime, fun h' => absurd h' (by simp [hr]), fun l hl => ?_⟩
      simpa [hpc] using (h.result l hl).1
  | echo =>
    simp only [LatencyCallback.step] at hs
    split_ifs at hs with hpc
    cases hs
    refine ⟨h.sendTime, fun _ => ⟨hpc.1, h.sendTime, le_rfl⟩, fun l hl => ?_⟩
    obtain ⟨hret, -⟩ := h.result l hl
    simp [hret, LatencyPc.live] at hpc
  | foreign => exact absurd rfl he

theorem Inv.run {s : LatencyCallback} (h : s.Inv) :
    ∀ {es : List LatencyStep} {s' : LatencyCallback}, LatencyStep.foreign ∉ es →
      run es s = some s' → s'.Inv
  | [], _, _, hs => Option.some_injective _ hs ▸ h
  | e :: es, s', hes, hs => by
    obtain ⟨t, ht, hrun⟩ := Option.bind_eq_some.1 hs
    rw [List.mem_cons, not_or] at hes
    exact (h.step (Ne.symm hes.1) ht).run hes.2 hrun

/-! ## A message from another client -/

/-- A message from another client arrives, a microsecond passes, and the probe stamps,
publishes and waits. -/
def foreignFirst : List LatencyStep :=
  [.foreign, .tick, .stamp, .publish, .startWait, .leave, .finish]

/-- **A latency comes from the first message the callback sees, whoever sent it.** On every
run on which every message that arrives is the probe's echo, a returned latency is neither
negative nor longer than the time since `send_time` was stamped. A message from another
client on `LATENCY_TOPIC` counts all the same: arriving before the stamp, it ends the wait
at once with a negative latency, whose latency score is that of no measurement. -/
theorem latency_of_arrivals (t0 : ℕ) :
    (∀ {es : List LatencyStep} {s : LatencyCallback} {l : ℚ}, LatencyStep.foreign ∉ es →
      run es (init t0) = some s → s.result = some l →
        0 ≤ l ∧ l * 1000 ≤ s.clock - s.sendTime) ∧
    (∃ s l, run foreignFirst (init t0) = some s ∧ s.result = some l ∧ l < 0 ∧
      latencyScore l = 0) := by
  refine ⟨fun hes hs hl => ((inv_init t0).run hes hs |>.result _ hl).2, ?_⟩
  have hrun : run foreignFirst (init t0) =
      some ⟨t0 + 1, .returned, true, t0 + 1, t0, t0 + 1, some (-1 / 1000)⟩ := by
    simp [run, foreignFirst, LatencyCallback.step, init, arrive, latencyMs, LatencyPc.live,
      LatencyPc.sent]
  exact ⟨_, _, hrun, rfl, by norm_num, by norm_num [latencyScore]⟩

end LatencyCallback

end BrokerMonitorThread

end PahoMqtt
