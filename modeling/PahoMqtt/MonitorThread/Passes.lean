import PahoMqtt.MonitorThread.Lifecycle
/-!
# The monitor thread runs the passes of the monitor loop

`MonitorLoop` takes a pass of `monitor_loop` as one step: the interval checks, then each due
sweep over the same URIs. The thread of `Lifecycle` takes it one read, snapshot and
measurement at a time, with the clock, the main thread and `should_stop_` interleaved. While
the manager leaves the registry's URIs alone, the two agree (`run_refines_monitorLoop`). The
thread's measurements, followed by what is left of its pass, are the sweeps and URIs of
`MonitorLoop.measurements` over the passes it has begun, while `should_stop_` is clear; after
it, they are a prefix of them. Its passes begin at least `MONITOR_INTERVAL_MS` apart, the
first no earlier than the checks its first lines stamp: the timing under which
`dueLog_tail` runs every sweep in every pass after the first, and which
`rescored_of_monitorLoop` assumes of the passes it is given.

The proof is an invariant (`Follows`) of every state such a run reaches. It says where, in
the run of `MonitorLoop` over the same passes, the thread is: which checks its pass will
leave (`LoopPc.finalChecks`), what the pass has left to measure (`LoopPc.rest`), and when
its pass began.
-/

namespace PahoMqtt

namespace BrokerMonitorThread

variable {K : Type}

/-- The sweep a measurement belongs to, and the URI it measures. -/
def Measurement.key : Measurement K → Sweep × String
  | .latency _ uri _ => (.latency, uri)
  | .bandwidth _ uri _ => (.bandwidth, uri)
  | .connectionCount _ uri _ => (.connectionCount, uri)

namespace Sweep

/-- The three sweeps in the order a pass runs them. -/
def all : List Sweep := [latency, bandwidth, connectionCount]

/-- The sweeps a pass runs after `k`. -/
def after : Sweep → List Sweep
  | latency => [bandwidth, connectionCount]
  | bandwidth => [connectionCount]
  | connectionCount => []

/-- What sweep `k` of the pass begun at `now` measures: each URI of its snapshot, if it is
due. -/
def keys (now : ℕ) (m : MonitorLoop) (uris : List String) (k : Sweep) : List (Sweep × String) :=
  if k.due now m then uris.map (k, ·) else []

/-- The stamps of those of the sweeps `ks` that are due, in turn. -/
def stampDue (now : ℕ) (ks : List Sweep) (m : MonitorLoop) : MonitorLoop :=
  ks.foldl (fun m k => if k.due now m then k.stamp now m else m) m

/-- A sweep's stamp leaves whether another sweep is due. -/
theorem due_stamp_of_ne {k k' : Sweep} (h : k ≠ k') (now t : ℕ) (m : MonitorLoop) :
    k'.due now (k.stamp t m) = k'.due now m := by
  cases k <;> cases k' <;> first | rfl | exact absurd rfl h

/-- A pass stamps its sweeps one at a time, as `MonitorLoop.stamp` does at once. -/
theorem stampDue_all (now : ℕ) (m : MonitorLoop) : stampDue now all m = m.stamp now := by
  have hm : m.stamp now = ⟨if latency.due now m then now else m.lastLatencyCheck,
      if bandwidth.due now m then now else m.lastBandwidthCheck,
      if connectionCount.due now m then now else m.lastConnectionCheck⟩ := rfl
  rw [hm]
  simp only [stampDue, all, List.foldl_cons, List.foldl_nil]
  cases ha : latency.due now m <;> cases hb : bandwidth.due now m <;>
    cases hc : connectionCount.due now m <;>
    simp only [ha, hb, hc, due_stamp_of_ne (by decide : latency ≠ bandwidth),
      due_stamp_of_ne (by decide : latency ≠ connectionCount),
      due_stamp_of_ne (by decide : bandwidth ≠ connectionCount), if_true, if_false,
      Bool.false_eq_true] <;> rfl

/-- Stamping sweep `k` leaves what the sweeps after it measure. -/
theorem flatMap_keys_stamp (now t : ℕ) (m : MonitorLoop) (uris : List String) (k : Sweep) :
    k.after.flatMap (keys now (k.stamp t m) uris) = k.after.flatMap (keys now m uris) := by
  cases k <;> rfl

end Sweep

namespace MonitorLoop

/-- The checks after the passes begun at `ts`. -/
def stampAll (ts : List ℕ) (m : MonitorLoop) : MonitorLoop :=
  ts.foldl (fun m t => m.stamp t) m

/-- The sweeps and URIs `measurements` takes over the passes begun at `ts`, whatever the
probes return. -/
def keys : List ℕ → MonitorLoop → List String → List (Sweep × String)
  | [], _, _ => []
  | now :: ts, m, uris => Sweep.all.flatMap (Sweep.keys now m uris) ++ keys ts (m.stamp now) uris

theorem map_key_passMeasurements (p : PassProbes K) (now : ℕ) (m : MonitorLoop)
    (uris : List String) :
    (passMeasurements p (m.due now) uris).map Measurement.key =
      Sweep.all.flatMap (Sweep.keys now m uris) := by
  simp only [passMeasurements, Sweep.all, Sweep.keys, Sweep.due, List.flatMap_cons,
    List.flatMap_nil, List.append_nil, List.map_append, List.append_assoc]
  congr 1 <;> [skip; congr 1] <;> split <;> simp [PassProbes.latencyOf, PassProbes.bandwidthOf,
    PassProbes.connectionCountOf, Measurement.key]

/-- `measurements` takes the sweeps and URIs of `keys`. -/
theorem map_key_measurements (passes : List (ℕ × PassProbes K)) (m : MonitorLoop)
    (uris : List String) :
    (measurements passes m uris).map Measurement.key = keys (passes.map (·.1)) m uris := by
  induction passes generalizing m with
  | nil => rfl
  | cons x passes ih =>
    simp only [measurements, List.map_append, map_key_passMeasurements, ih, List.map_cons, keys]

theorem keys_append_singleton (ts : List ℕ) (now : ℕ) (m : MonitorLoop) (uris : List String) :
    keys (ts ++ [now]) m uris =
      keys ts m uris ++ Sweep.all.flatMap (Sweep.keys now (stampAll ts m) uris) := by
  induction ts generalizing m with
  | nil =>
    rw [List.nil_append, keys, keys, keys, List.append_nil, List.nil_append]
    rfl
  | cons t ts ih =>
    rw [List.cons_append, keys, keys, ih, List.append_assoc]
    rfl

theorem stampAll_append_singleton (ts : List ℕ) (now : ℕ) (m : MonitorLoop) :
    stampAll (ts ++ [now]) m = (stampAll ts m).stamp now := by
  simp [stampAll]

end MonitorLoop

namespace LoopPc

/-- The sweep under way at `pc`. -/
def sweeping : LoopPc → Option Sweep
  | .sweep k _ | .measuring k _ _ => some k
  | .head | .enter _ | .sleeping _ => none

/-- The checks the loop at `pc` leaves once the pass under way is over, its pass begun at
`now` and its checks now `m`. -/
def finalChecks (now : ℕ) (m : MonitorLoop) : LoopPc → MonitorLoop
  | .head | .sleeping _ => m
  | .enter k | .sweep k _ | .measuring k _ _ => Sweep.stampDue now (k :: k.after) m

/-- What the loop at `pc` has left to measure of the pass under way, begun at `now` with the
checks `m`, if `should_stop_` stays clear and the URIs stay `uris`. -/
def rest (now : ℕ) (m : MonitorLoop) (uris : List String) : LoopPc → List (Sweep × String)
  | .head | .sleeping _ => []
  | .enter k => (k :: k.after).flatMap (Sweep.keys now m uris)
  | .sweep k todo => todo.map (k, ·) ++ k.after.flatMap (Sweep.keys now m uris)
  | .measuring k uri todo => (k, uri) :: (todo.map (k, ·) ++ k.after.flatMap (Sweep.keys now m uris))

/-- When the pass under way began and how long the sleep lasts: the last reading is the
pass's own and not ahead of the clock; asleep or at the loop's head, the last pass began at
least `MONITOR_INTERVAL_MS` before the wake-up or the clock. -/
def Timing (readings : List ℕ) (now clock : ℕ) : LoopPc → Prop
  | .head => ∀ t ∈ readings.getLast?, t + monitorIntervalMs ≤ clock
  | .sleeping wake => ∀ t ∈ readings.getLast?, t + monitorIntervalMs ≤ wake
  | .enter _ | .sweep _ _ | .measuring _ _ _ => readings.getLast? = some now ∧ now ≤ clock

theorem inFlight_prefix_rest (now : ℕ) (m : MonitorLoop) (uris : List String) (pc : LoopPc) :
    pc.inFlight.toList <+: pc.rest now m uris := by
  cases pc <;> simp [inFlight, rest, List.nil_prefix]

theorem Timing.mono {readings : List ℕ} {now clock clock' : ℕ} {pc : LoopPc}
    (h : pc.Timing readings now clock) (hle : clock ≤ clock') : pc.Timing readings now clock' := by
  cases pc with
  | head => exact fun t ht => (h t ht).trans hle
  | sleeping wake => exact h
  | enter _ | sweep _ _ | measuring _ _ _ => exact ⟨h.1, h.2.trans hle⟩

end LoopPc

namespace Sweep

@[simp] theorem sweeping_next (t : ℕ) (k : Sweep) : (k.next t).sweeping = none := by
  cases k <;> rfl

theorem finalChecks_next (t now : ℕ) (m : MonitorLoop) (k : Sweep) :
    (k.next t).finalChecks now m = stampDue now k.after m := by
  cases k <;> rfl

theorem rest_next (t now : ℕ) (m : MonitorLoop) (uris : List String) (k : Sweep) :
    (k.next t).rest now m uris = k.after.flatMap (keys now m uris) := by
  cases k <;> rfl

/-- The pass goes on after sweep `k` with its reading, or sleeps `MONITOR_INTERVAL_MS` from
`clock` on. -/
theorem timing_next {readings : List ℕ} {now clock : ℕ} (h : readings.getLast? = some now)
    (hle : now ≤ clock) (k : Sweep) : (k.next clock).Timing readings now clock := by
  cases k with
  | latency | bandwidth => exact ⟨h, hle⟩
  | connectionCount =>
    intro t ht
    rw [h, Option.mem_some_iff] at ht
    subst ht
    exact Nat.add_le_add_right hle _

end Sweep

/-- `monitor_loop` at `l` is where a run of `MonitorLoop` from `m0` over the passes begun at
`readings` is: its checks end the pass as that run's do, the sweep under way is due, and its
pass and sleep keep to the clock. -/
structure Loop.Follows (m0 : MonitorLoop) (readings : List ℕ) (clock : ℕ) (l : Loop) : Prop where
  checks : l.pc.finalChecks l.now l.checks = MonitorLoop.stampAll readings m0
  due : ∀ k, l.pc.sweeping = some k → k.due l.now l.checks = true
  time : l.pc.Timing readings l.now clock

/-- What the thread has left to measure of its pass. -/
def ThreadSlot.rest (uris : List String) : ThreadSlot → List (Sweep × String)
  | .live l => l.pc.rest l.now l.checks uris
  | .empty | .started | .exited | .joined => []

namespace Lifecycle

/-- The monitor is where a run of `MonitorLoop` from the checks `m0`, over the passes its thread
has begun and with the URIs `uris`, is: while `should_stop_` is clear its measurements and what
is left of its pass are that run's, and at any time its measurements and the one under way are
a prefix of them. -/
structure Follows (uris : List String) (m0 : MonitorLoop) (s : Sys) : Prop where
  uris_eq : s.uris = uris
  started : s.thread = .started → s.log = [] ∧ s.readings = []
  loop : ∀ l, s.thread = .live l → l.Follows m0 s.readings s.clock
  exact : s.shouldStop = false →
    s.log ++ s.thread.rest uris = MonitorLoop.keys s.readings m0 uris
  inFlight : s.log ++ s.thread.inFlight.toList <+: MonitorLoop.keys s.readings m0 uris
  chain : s.readings.Chain' fun t t' => t + monitorIntervalMs ≤ t'
  first : ∀ t ∈ s.readings.head?, m0.Before t
  before : m0.Before s.clock

variable {uris : List String} {m0 : MonitorLoop}

/-- A step that moves only the thread and the log, and keeps to the run's plan. -/
theorem Follows.of_thread {s s' : Sys} (h : Follows uris m0 s) (huris : s'.uris = s.uris)
    (hclock : s'.clock = s.clock) (hread : s'.readings = s.readings)
    (hstop : s'.shouldStop = s.shouldStop) (hstarted : s'.thread ≠ .started)
    (hloop : ∀ l', s'.thread = .live l' → l'.Follows m0 s.readings s.clock)
    (hexact : s.shouldStop = false →
      s'.log ++ s'.thread.rest uris = s.log ++ s.thread.rest uris)
    (hflight : s.shouldStop = true →
      s'.log ++ s'.thread.inFlight.toList = s.log ++ s.thread.inFlight.toList) :
    Follows uris m0 s' := by
  have hexact' : s'.shouldStop = false →
      s'.log ++ s'.thread.rest uris = MonitorLoop.keys s'.readings m0 uris := fun hs =>
    hread ▸ (hexact (hstop ▸ hs)).trans (h.exact (hstop ▸ hs))
  refine ⟨huris.trans h.uris_eq, fun hs => absurd hs hstarted, hread ▸ hclock ▸ hloop, hexact',
    ?_, hread ▸ h.chain, hread ▸ h.first, hclock ▸ h.before⟩
  cases hs : s.shouldStop
  · rw [← hexact' (hstop.trans hs)]
    refine (List.prefix_append_right_inj _).2 ?_
    cases ht : s'.thread <;> simp [ThreadSlot.inFlight, ThreadSlot.rest, List.nil_prefix,
      LoopPc.inFlight_prefix_rest]
  · rw [hflight hs, hread]
    exact h.inFlight

/-- The first lines of `monitor_loop` stamp its three checks with the clock: from there on the
thread follows the run of `MonitorLoop` from those checks. -/
theorem Follows.begin {s s' : Sys} (h : Follows uris m0 s) (ht : s.thread = .started)
    (hs : step .loop s = some s') : Follows uris ⟨s.clock, s.clock, s.clock⟩ s' := by
  simp only [Lifecycle.step, ht, Option.some.injEq] at hs
  subst hs
  obtain ⟨hlog, hread⟩ := h.started ht
  refine ⟨h.uris_eq, nofun, ?_, fun _ => ?_, ?_, ?_, ?_, ⟨le_rfl, le_rfl, le_rfl⟩⟩
  · rintro l ⟨⟩
    exact ⟨by simp [LoopPc.finalChecks, hread, MonitorLoop.stampAll], nofun,
      by simp [LoopPc.Timing, hread]⟩
  all_goals simp [hlog, hread, ThreadSlot.rest, ThreadSlot.inFlight, LoopPc.rest, LoopPc.inFlight,
    MonitorLoop.keys]

/-- The head of the loop with `should_stop_` clear: a new pass begins at the clock's reading,
at least `MONITOR_INTERVAL_MS` after the last, and plans the sweeps `MonitorLoop` runs in the
pass begun then. -/
theorem Follows.head {s : Sys} (h : Follows uris m0 s) {l : Loop} (hl : s.thread = .live l)
    (hpc : l.pc = .head) (hstop : s.shouldStop = false) :
    Follows uris m0 { s with thread := .live { l with pc := .enter .latency, now := s.clock },
                             readings := s.readings ++ [s.clock] } := by
  obtain ⟨hchecks, -, htime⟩ := h.loop l hl
  rw [hpc] at hchecks htime
  have hlog : s.log = MonitorLoop.keys s.readings m0 uris := by
    simpa [hl, ThreadSlot.rest, hpc, LoopPc.rest] using h.exact hstop
  have hexact : s.log ++ (ThreadSlot.live { l with pc := .enter .latency, now := s.clock }).rest uris =
      MonitorLoop.keys (s.readings ++ [s.clock]) m0 uris := by
    rw [MonitorLoop.keys_append_singleton, ← hlog, ← hchecks]
    rfl
  refine ⟨h.uris_eq, nofun, ?_, fun _ => hexact, ?_, ?_, ?_, h.before⟩
  · rintro l' ⟨⟩
    refine ⟨?_, nofun, by simp [LoopPc.Timing]⟩
    rw [MonitorLoop.stampAll_append_singleton, ← hchecks, ← Sweep.stampDue_all]
    rfl
  · rw [← hexact]
    exact (List.prefix_append_right_inj _).2
      (LoopPc.inFlight_prefix_rest s.clock l.checks uris (.enter .latency))
  · refine h.chain.append (List.chain'_singleton _) fun t ht t' ht' => ?_
    rw [List.head?_cons, Option.mem_some_iff] at ht'
    exact ht' ▸ htime t ht
  · cases hr : s.readings with
    | nil => simpa using h.before
    | cons t ts => simpa [hr] using h.first

/-- A step of `monitor_loop` inside its pass, which moves only its own state and the log, keeps
to the run when the loop it leaves follows the run and it leaves the log and what is left of
the pass together as they were. -/
theorem Follows.of_live {s : Sys} (h : Follows uris m0 s) {l l' : Loop} (hl : s.thread = .live l)
    {log : List (Sweep × String)} (hloop : l'.Follows m0 s.readings s.clock)
    (hrest : s.shouldStop = false →
      log ++ l'.pc.rest l'.now l'.checks uris = s.log ++ l.pc.rest l.now l.checks uris)
    (hflight : s.shouldStop = true →
      log ++ l'.pc.inFlight.toList = s.log ++ s.thread.inFlight.toList) :
    Follows uris m0 { s with thread := .live l', log := log } :=
  h.of_thread rfl rfl rfl rfl nofun (fun _ hl' => by cases hl'; exact hloop)
    (fun hs => by rw [hl]; exact hrest hs) hflight

/-- Each step of `monitor_loop` keeps it where the run of `MonitorLoop` is. -/
theorem Follows.of_loopStep {s s' : Sys} (h : Follows uris m0 s) {l : Loop}
    (hl : s.thread = .live l) (hs : loopStep s l = some s') : Follows uris m0 s' := by
  have hflight : s.shouldStop = true →
      s'.log ++ s'.thread.inFlight.toList = s.log ++ s.thread.inFlight.toList := fun hstop => by
    rw [hl]; exact loopStep_stopRequested hstop hs
  obtain ⟨hchecks, hdue, htime⟩ := h.loop l hl
  cases hpc : l.pc with
  | head =>
    simp only [loopStep, hpc] at hs
    split at hs <;> rename_i hstop <;> cases hs
    · -- `monitor_loop` returns
      exact h.of_thread rfl rfl rfl rfl nofun nofun (fun h' => absurd h' (by simp [hstop])) hflight
    · exact h.head hl hpc (by simpa using hstop)
  | enter k =>
    simp only [loopStep, hpc, Option.some.injEq] at hs
    subst hs
    rw [hpc] at hchecks htime
    refine h.of_live hl ?_ (fun _ => ?_) hflight <;> split <;> rename_i hk
    · exact ⟨hchecks, fun k' hk' => by cases hk'; exact hk, htime⟩
    · refine ⟨?_, fun k' hk' => by simp at hk', Sweep.timing_next htime.1 htime.2 k⟩
      rw [Sweep.finalChecks_next, ← hchecks]
      simp [LoopPc.finalChecks, Sweep.stampDue, hk]
    · simp [hpc, LoopPc.rest, Sweep.keys, hk, h.uris_eq]
    · simp only [Sweep.rest_next]
      simp [hpc, LoopPc.rest, Sweep.keys, hk]
  | sweep k todo =>
    have hk : k.due l.now l.checks = true := hdue k (by rw [hpc]; rfl)
    rw [hpc] at hchecks htime
    cases todo with
    | nil =>
      simp only [loopStep, hpc, Option.some.injEq] at hs
      subst hs
      refine h.of_live hl ⟨?_, fun k' hk' => by simp at hk', Sweep.timing_next htime.1 htime.2 k⟩
        (fun _ => ?_) hflight
      · rw [Sweep.finalChecks_next, ← hchecks]
        simp [LoopPc.finalChecks, Sweep.stampDue, hk]
      · simp only [hpc, Sweep.rest_next, Sweep.flatMap_keys_stamp]
        simp [LoopPc.rest]
    | cons uri todo =>
      simp only [loopStep, hpc, Option.some.injEq] at hs
      subst hs
      refine h.of_live hl ?_ (fun hs => ?_) hflight
      · split <;> exact ⟨hchecks, fun k' hk' => by cases hk'; exact hk, htime⟩
      · simp [hpc, hs, LoopPc.rest]
  | measuring k uri todo =>
    rw [hpc] at hchecks htime
    simp only [loopStep, hpc, Option.some.injEq] at hs
    subst hs
    exact h.of_live hl ⟨hchecks, fun k' hk' => hdue k' (by rw [hpc]; exact hk'), htime⟩
      (fun _ => by simp [hpc, LoopPc.rest]) hflight
  | sleeping wake =>
    rw [hpc] at hchecks htime
    simp only [loopStep, hpc] at hs
    split at hs <;> rename_i hwake <;> cases hs
    exact h.of_live hl ⟨hchecks, nofun, fun t ht => (htime t ht).trans hwake⟩
      (fun _ => by simp [hpc, LoopPc.rest]) hflight

theorem Follows.tick {s : Sys} (h : Follows uris m0 s) :
    Follows uris m0 { s with clock := s.clock + 1 } :=
  ⟨h.uris_eq, h.started, fun l hl => have hL := h.loop l hl; ⟨hL.checks, hL.due, hL.time.mono
    (Nat.le_succ _)⟩, h.exact, h.inFlight, h.chain, h.first, h.before.mono (Nat.le_succ _)⟩

/-- Every step of a run with no `start` and no edit of the URIs keeps the monitor where a run
of `MonitorLoop` is; the thread's first lines pick that run's checks. -/
theorem Follows.step {s s' : Sys} {t0 : ℕ} (h : Follows uris ⟨t0, t0, t0⟩ s) {a : Action}
    (ha : a ≠ .start) (he : ∀ us, a ≠ .edit us) (hs : step a s = some s') :
    ∃ t0', Follows uris ⟨t0', t0', t0'⟩ s' := by
  cases a with
  | tick => cases hs; exact ⟨t0, h.tick⟩
  | edit us => exact absurd rfl (he us)
  | start => exact absurd rfl ha
  | stop =>
    simp only [Lifecycle.step] at hs
    split_ifs at hs <;> cases hs
    · exact ⟨t0, h.uris_eq, h.started, h.loop, fun h' => absurd h' nofun, h.inFlight, h.chain,
        h.first, h.before⟩
    · exact ⟨t0, h⟩
  | join =>
    simp only [Lifecycle.step] at hs
    split at hs <;> cases hs
    · rename_i ht
      exact ⟨t0, h.of_thread rfl rfl rfl rfl nofun nofun (fun _ => by simp [ht, ThreadSlot.rest])
        (fun _ => by simp [ht, ThreadSlot.inFlight])⟩
    all_goals exact ⟨t0, h.uris_eq, h.started, h.loop, h.exact, h.inFlight, h.chain, h.first,
      h.before⟩
  | loop =>
    cases ht : s.thread with
    | started => exact ⟨s.clock, h.begin ht hs⟩
    | live l =>
      simp only [Lifecycle.step, ht] at hs
      exact ⟨t0, h.of_loopStep ht hs⟩
    | empty | exited | joined => simp [Lifecycle.step, ht] at hs

theorem Follows.run {s s' : Sys} {t0 : ℕ} (h : Follows uris ⟨t0, t0, t0⟩ s) {as : List Action}
    (has : ∀ a ∈ as, a ≠ .start ∧ ∀ us, a ≠ .edit us) (hrun : run as s = some s') :
    ∃ t0', Follows uris ⟨t0', t0', t0'⟩ s' := by
  induction as generalizing s t0 with
  | nil => cases hrun; exact ⟨t0, h⟩
  | cons a as ih =>
    obtain ⟨t, ht, hrun⟩ := run_cons_eq_some.1 hrun
    obtain ⟨ha, he⟩ := has a (List.mem_cons_self _ _)
    obtain ⟨t0', h'⟩ := h.step ha he ht
    exact ih h' (fun a' ha' => has a' (List.mem_cons_of_mem _ ha')) hrun

/-- `start` from a reachable state where the monitor is not running begins a fresh thread,
which follows any run of `MonitorLoop`: it has begun no pass. -/
theorem follows_start {s₀ s₁ : Sys} (h : Reachable s₀) (hr : s₀.running = false)
    (hstart : step .start s₀ = some s₁) : Follows s₀.uris ⟨0, 0, 0⟩ s₁ := by
  obtain ⟨-, st, hst⟩ := Inv.of_reachable h
  simp only [Lifecycle.step] at hstart
  split_ifs at hstart with hc hrun hj <;> cases hstart
  · exact absurd hrun (by simp [hr])
  · -- outside `stop` and not running, the thread has been joined
    cases st <;> simp_all [Sys.At]
  · exact ⟨rfl, fun _ => ⟨rfl, rfl⟩, nofun, fun _ => rfl, List.prefix_refl _, List.chain'_nil,
      nofun, Nat.zero_le _, Nat.zero_le _, Nat.zero_le _⟩

/-- **While the registry's URIs stay as they are, the monitor thread runs the passes of the
monitor loop.** Take a thread `start` begins in a reachable state where the monitor is not
running, and any interleaving after it with no other `start` and no edit of the URIs `uris`
the registry then held. The passes the thread has begun start at least `MONITOR_INTERVAL_MS`
apart, the first no earlier than the checks its first lines stamp with some time `t0`. For
every run of `MonitorLoop` from those checks over passes begun at the thread's readings,
whatever its probes return, the thread's measurements are a prefix of that run's sweeps and
URIs; while `should_stop_` is clear, they are those sweeps and URIs but what is left of the
pass under way. -/
theorem run_refines_monitorLoop {s₀ s₁ s : Sys} (h : Reachable s₀) (hr : s₀.running = false)
    (hstart : step .start s₀ = some s₁) {as : List Action}
    (has : ∀ a ∈ as, a ≠ .start ∧ ∀ us, a ≠ .edit us) (hrun : run as s₁ = some s) :
    ∃ t0 : ℕ, (∀ t ∈ s.readings.head?, MonitorLoop.Before t ⟨t0, t0, t0⟩) ∧
      s.readings.Chain' (fun t t' => t + monitorIntervalMs ≤ t') ∧
      ∀ passes : List (ℕ × PassProbes K), passes.map (·.1) = s.readings →
        s.log <+: (MonitorLoop.measurements passes ⟨t0, t0, t0⟩ s₀.uris).map Measurement.key ∧
        (s.shouldStop = false → s.log ++ s.thread.rest s₀.uris =
          (MonitorLoop.measurements passes ⟨t0, t0, t0⟩ s₀.uris).map Measurement.key) := by
  obtain ⟨t0, hf⟩ := (follows_start h hr hstart).run has hrun
  refine ⟨t0, hf.first, hf.chain, fun passes hp => ?_⟩
  rw [MonitorLoop.map_key_measurements, hp]
  exact ⟨(List.prefix_append _ _).trans hf.inFlight, hf.exact⟩

/-- The run of `Lifecycle` up to its first latency measurement follows `MonitorLoop`. -/
theorem run_refines_monitorLoop_firstMeasurement :
    let s₁ : Sys := ⟨0, ["tcp://a"], true, false, .started, .idle, false, [], []⟩
    let as : List Action := startAndSleep.tail ++ (List.replicate 20000 .tick ++ wakeAndMeasure)
    Reachable (init 0 ["tcp://a"]) ∧ (init 0 ["tcp://a"]).running = false ∧
    step .start (init 0 ["tcp://a"]) = some s₁ ∧ (∀ a ∈ as, a ≠ .start ∧ ∀ us, a ≠ .edit us) ∧
    run as s₁ = some firstMeasurement ∧
    ∃ t0 : ℕ, (∀ t ∈ firstMeasurement.readings.head?, MonitorLoop.Before t ⟨t0, t0, t0⟩) ∧
      firstMeasurement.readings.Chain' (fun t t' => t + monitorIntervalMs ≤ t') ∧
      ∀ passes : List (ℕ × PassProbes ℚ), passes.map (·.1) = firstMeasurement.readings →
        firstMeasurement.log <+: (MonitorLoop.measurements passes ⟨t0, t0, t0⟩
          (init 0 ["tcp://a"]).uris).map Measurement.key ∧
        (firstMeasurement.shouldStop = false →
          firstMeasurement.log ++ firstMeasurement.thread.rest (init 0 ["tcp://a"]).uris =
          (MonitorLoop.measurements passes ⟨t0, t0, t0⟩ (init 0 ["tcp://a"]).uris).map
            Measurement.key) :=
  have hrun : run (startAndSleep.tail ++ (List.replicate 20000 .tick ++ wakeAndMeasure))
      ⟨0, ["tcp://a"], true, false, .started, .idle, false, [], []⟩ = some firstMeasurement := by
    have h : run startAndSleep.tail ⟨0, ["tcp://a"], true, false, .started, .idle, false, [], []⟩ =
        some firstSleep := rfl
    rw [run_append, h, Option.some_bind, run_wakeAndMeasure]
  have has : ∀ a ∈ startAndSleep.tail ++ (List.replicate 20000 .tick ++ wakeAndMeasure),
      a ≠ .start ∧ ∀ us, a ≠ .edit us := by
    intro a ha
    have hloop : a = .loop ∨ a = .tick := by
      rcases List.mem_append.1 ha with ha | ha
      · exact .inl (List.eq_of_mem_replicate ha)
      rcases List.mem_append.1 ha with ha | ha
      · exact .inr (List.eq_of_mem_replicate ha)
      · exact .inl (List.eq_of_mem_replicate ha)
    rcases hloop with rfl | rfl <;> exact ⟨nofun, fun _ => nofun⟩
  ⟨.init 0 ["tcp://a"], rfl, rfl, has, hrun,
    run_refines_monitorLoop (.init 0 ["tcp://a"]) rfl rfl has hrun⟩

end Lifecycle

end BrokerMonitorThread

end PahoMqtt
