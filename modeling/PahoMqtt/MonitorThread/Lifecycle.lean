import PahoMqtt.MonitorLoop
/-!
# Starting and stopping the monitor thread

`start` is `if (running_) return; should_stop_ = false; running_ = true;`, then a new
`std::thread` running `monitor_loop` put in `monitor_thread_`. `stop` is
`if (!running_) return; should_stop_ = true; running_ = false;`, then `join`. One thread
calls both: the program's main thread, through `start_monitoring`, `stop_monitoring` and
the destructors. `monitor_loop` runs beside it. It reads `should_stop_` at the head of each
pass and before each measurement, takes a snapshot of the registry's URIs for each sweep
(the manager edits them at any time), and ends each pass with an uninterruptible
`sleep_for(MONITOR_INTERVAL_MS)`.

Each read of a shared variable, each snapshot and the end of each measurement is one step of
`monitor_loop` (`loopStep`), and the three `last_*_check = now()` of its first lines are one.
The writes of `start` are one step, and so are those of `stop` before its `join`: only the
main thread calls them, and `monitor_loop` reads `should_stop_` and nothing else they write.
The clock ticks one millisecond at a time.

Over every interleaving:
* `start` never destroys a joinable thread, and once `stop` has returned the monitor makes
  no measurement until the next `start` (`joined_after_stop`);
* once `should_stop_` is set, the monitor completes at most the measurement under way
  (`log_after_stopRequest`), though `is_running()` already reads `false`;
* `stop` returns: after `should_stop_`, each step of `monitor_loop` lowers a well-founded
  rank that no other step raises, and the thread and the clock alone end the `join`
  (`stop_returns`).
-/

namespace PahoMqtt

namespace BrokerMonitorThread

/-- The three sweeps of a pass, in the order `monitor_loop` runs them. -/
inductive Sweep
  | latency
  | bandwidth
  | connectionCount
  deriving DecidableEq, Repr

namespace Sweep

/-- Whether the sweep is due in the pass begun at `now`: its part of `MonitorLoop.due`. -/
def due (now : ℕ) (m : MonitorLoop) : Sweep → Bool
  | latency => (m.due now).1
  | bandwidth => (m.due now).2.1
  | connectionCount => (m.due now).2.2

/-- `last_*_check = now;` once the sweep has run. -/
def stamp (now : ℕ) (m : MonitorLoop) : Sweep → MonitorLoop
  | latency => { m with lastLatencyCheck := now }
  | bandwidth => { m with lastBandwidthCheck := now }
  | connectionCount => { m with lastConnectionCheck := now }

end Sweep

/-- Where `monitor_loop` is. -/
inductive LoopPc
  /-- `while (!should_stop_)`, then `auto now = steady_clock::now();`. -/
  | head
  /-- The `if` of sweep `k`: its interval checked and, when it is due, the snapshot
  `broker_manager_->get_broker_uris()` taken. -/
  | enter (k : Sweep)
  /-- Inside sweep `k` with the URIs `todo` of its snapshot left: `if (!should_stop_)` before
  the next one, or `last_*_check = now;` when none is left. -/
  | sweep (k : Sweep) (todo : List String)
  /-- Inside `measure_*(uri)` of sweep `k`, with `todo` left after it. -/
  | measuring (k : Sweep) (uri : String) (todo : List String)
  /-- In `sleep_for(MONITOR_INTERVAL_MS)`, until the clock reaches `wake`. -/
  | sleeping (wake : ℕ)
  deriving DecidableEq, Repr

/-- Where the loop goes once sweep `k` is over or skipped at time `t`: the next sweep's `if`,
or the sleep that ends the pass. -/
def Sweep.next (t : ℕ) : Sweep → LoopPc
  | .latency => .enter .bandwidth
  | .bandwidth => .enter .connectionCount
  | .connectionCount => .sleeping (t + monitorIntervalMs)

/-- The locals of `monitor_loop`: where it is, its three `last_*_check`, and the reading `now`
of the pass under way. -/
structure Loop where
  pc : LoopPc
  checks : MonitorLoop
  now : ℕ
  deriving DecidableEq, Repr

/-- `monitor_thread_`: null before the first `start`; a thread running `monitor_loop`, just
begun or at some `Loop`; a thread whose `monitor_loop` has returned, joinable until joined;
or a joined one. -/
inductive ThreadSlot
  | empty
  | started
  | live (l : Loop)
  | exited
  | joined
  deriving DecidableEq, Repr

namespace ThreadSlot

/-- `monitor_thread_->joinable()`, and false for a null pointer. -/
def joinable : ThreadSlot → Bool
  | started | live _ | exited => true
  | empty | joined => false

/-- `monitor_loop` has not returned. -/
def alive : ThreadSlot → Bool
  | started | live _ => true
  | empty | exited | joined => false

theorem joinable_of_alive {t : ThreadSlot} (h : t.alive = true) : t.joinable = true := by
  cases t <;> simp_all [alive, joinable]

end ThreadSlot

/-- The measurement `monitor_loop` is inside at `pc`. -/
def LoopPc.inFlight : LoopPc → Option (Sweep × String)
  | .measuring k uri _ => some (k, uri)
  | .head | .enter _ | .sweep _ _ | .sleeping _ => none

/-- The measurement the thread is inside. -/
def ThreadSlot.inFlight : ThreadSlot → Option (Sweep × String)
  | .live l => l.pc.inFlight
  | .empty | .started | .exited | .joined => none

theorem Sweep.inFlight_next (t : ℕ) (k : Sweep) : (k.next t).inFlight = none := by
  cases k <;> rfl

/-- How far the stage of sweep `k` lies from the end of the pass. -/
def Sweep.stage : Sweep → ℕ
  | .latency => 7
  | .bandwidth => 5
  | .connectionCount => 3

/-- How far `monitor_loop` at `pc` is from returning once `should_stop_` is set: the stage of
the pass, counted down to the loop's head, then the URIs left in the sweep under way. -/
def LoopPc.rank : LoopPc → ℕ × ℕ
  | .head => (1, 0)
  | .sleeping _ => (2, 0)
  | .sweep k todo => (k.stage, 2 * todo.length + 1)
  | .measuring k _ todo => (k.stage, 2 * todo.length + 2)
  | .enter k => (k.stage + 1, 0)

/-- The same for the thread: a thread just begun has its first lines left, a thread whose
`monitor_loop` has returned nothing. -/
def ThreadSlot.rank : ThreadSlot → ℕ × ℕ
  | .started => (9, 0)
  | .live l => l.pc.rank
  | .empty | .exited | .joined => (0, 0)

/-- Once sweep `k` is over, the loop is at an earlier stage. -/
theorem Sweep.rank_next_lt (t : ℕ) (k : Sweep) : (k.next t).rank.1 < k.stage := by
  cases k <;> simp [Sweep.next, LoopPc.rank, Sweep.stage]

/-- The main thread, as the monitor sees it: outside `start` and `stop`, or inside `stop`,
in its `join`. -/
inductive Control
  | idle
  | joining
  deriving DecidableEq, Repr

namespace Lifecycle

/-- The monitor and the threads around it. `terminated` says `std::terminate` was called:
the destruction of a joinable `std::thread` calls it. `log` (the measurements completed) and
`readings` (the readings of the passes begun) belong to the thread `start` began last: they
are not in the program, and the results are stated over them. -/
structure Sys where
  clock : ℕ
  uris : List String
  running : Bool
  shouldStop : Bool
  thread : ThreadSlot
  control : Control
  terminated : Bool
  log : List (Sweep × String)
  readings : List ℕ
  deriving DecidableEq, Repr

/-- The monitor as its constructor leaves it, `running_(false), should_stop_(false)`, with no
thread, at time `now` and with the registry's URIs `uris`. -/
def init (now : ℕ) (uris : List String) : Sys :=
  ⟨now, uris, false, false, .empty, .idle, false, [], []⟩

/-- A step of one of the threads, or of the clock. -/
inductive Action
  /-- A millisecond of `steady_clock`. -/
  | tick
  /-- The manager sets the registry's URIs. -/
  | edit (uris : List String)
  /-- `start()`. -/
  | start
  /-- `stop()` up to its `join`. -/
  | stop
  /-- The `join` in `stop()`. -/
  | join
  /-- A step of `monitor_loop`. -/
  | loop
  deriving DecidableEq, Repr

/-- A step of `monitor_loop` at `l`; `none` while its sleep lasts. -/
def loopStep (s : Sys) (l : Loop) : Option Sys :=
  match l.pc with
  | .head =>
    if s.shouldStop then some { s with thread := .exited }
    else some { s with thread := .live { l with pc := .enter .latency, now := s.clock },
                       readings := s.readings ++ [s.clock] }
  | .enter k =>
    let pc := if k.due l.now l.checks then .sweep k s.uris else k.next s.clock
    some { s with thread := .live { l with pc := pc } }
  | .sweep k [] =>
    some { s with thread := .live { l with pc := k.next s.clock, checks := k.stamp l.now l.checks } }
  | .sweep k (uri :: todo) =>
    let pc := if s.shouldStop then .sweep k todo else .measuring k uri todo
    some { s with thread := .live { l with pc := pc } }
  | .measuring k uri todo =>
    some { s with thread := .live { l with pc := .sweep k todo }, log := s.log ++ [(k, uri)] }
  | .sleeping wake =>
    if wake ≤ s.clock then some { s with thread := .live { l with pc := .head } } else none

/-- One step, or `none` when it cannot be taken: the main thread is inside `stop` and calls
nothing else, its `join` waits for `monitor_loop` to return, and the monitor thread does
nothing before it begins or after it returns. -/
def step : Action → Sys → Option Sys
  | .tick, s => some { s with clock := s.clock + 1 }
  | .edit uris, s => some { s with uris := uris }
  | .start, s =>
    if s.control = .joining then none
    else if s.running then some s
    else if s.thread.joinable then some { s with terminated := true }
    else some { s with shouldStop := false, running := true, thread := .started, log := [],
                       readings := [] }
  | .stop, s =>
    if s.control = .joining then none
    else if s.running then
      some { s with shouldStop := true, running := false, control := .joining }
    else some s
  | .join, s =>
    match s.control, s.thread with
    | .idle, _ => none
    | .joining, .started | .joining, .live _ => none
    | .joining, .exited => some { s with thread := .joined, control := .idle }
    | .joining, .empty | .joining, .joined => some { s with control := .idle }
  | .loop, s =>
    match s.thread with
    | .started => some { s with thread := .live ⟨.head, ⟨s.clock, s.clock, s.clock⟩, s.clock⟩ }
    | .live l => loopStep s l
    | .empty | .exited | .joined => none

/-- The states some interleaving reaches from a constructed monitor. -/
inductive Reachable : Sys → Prop
  | init (now : ℕ) (uris : List String) : Reachable (init now uris)
  | step {s s' : Sys} (a : Action) : Reachable s → step a s = some s' → Reachable s'

/-- The steps of a list in order. -/
def run : List Action → Sys → Option Sys
  | [], s => some s
  | a :: as, s => (step a s).bind (run as)

theorem run_cons_eq_some {a : Action} {as : List Action} {s s' : Sys} :
    run (a :: as) s = some s' ↔ ∃ t, step a s = some t ∧ run as t = some s' :=
  Option.bind_eq_some

theorem Reachable.run {as : List Action} {s s' : Sys} (hs : Reachable s)
    (h : run as s = some s') : Reachable s' := by
  induction as generalizing s with
  | nil => cases h; exact hs
  | cons a as ih =>
    obtain ⟨t, ht, hrun⟩ := run_cons_eq_some.1 h
    exact ih (.step a hs ht) hrun

theorem run_append {as bs : List Action} {s : Sys} : run (as ++ bs) s = (run as s).bind (run bs) := by
  induction as generalizing s with
  | nil => rfl
  | cons a as ih =>
    simp only [List.cons_append, run]
    cases step a s <;> simp [ih]

theorem run_ticks (n : ℕ) (s : Sys) :
    run (List.replicate n .tick) s = some { s with clock := s.clock + n } := by
  induction n generalizing s with
  | zero => rfl
  | succ n ih =>
    simp only [List.replicate_succ, run, step, Option.some_bind, ih]
    simp only [Nat.add_assoc, Nat.add_comm 1 n]

/-! ## A run: `stop` during a measurement -/

/-- A monitor over one broker, started at time 0. Its first pass finds no sweep due, since
the checks were stamped at the same time, and it goes to sleep. -/
def startAndSleep : List Action := .start :: List.replicate 5 .loop

/-- The monitor asleep after its first pass. -/
def firstSleep : Sys :=
  ⟨0, ["tcp://a"], true, false, .live ⟨.sleeping 20000, ⟨0, 0, 0⟩, 0⟩, .idle, false, [], [0]⟩

/-- Awake, the second pass finds the latency sweep due and begins its measurement. -/
def wakeAndMeasure : List Action := List.replicate 4 .loop

/-- The monitor inside its first latency measurement. -/
def firstMeasurement : Sys :=
  ⟨20000, ["tcp://a"], true, false, .live ⟨.measuring .latency "tcp://a" [], ⟨0, 0, 0⟩, 20000⟩,
    .idle, false, [], [0, 20000]⟩

/-- `stop` called during that measurement, waiting in its `join`. -/
def stoppedMidMeasurement : Sys :=
  { firstMeasurement with shouldStop := true, running := false, control := .joining }

/-- The measurement ends and is logged; the bandwidth and connection-count sweeps skip their
URI; the pass goes to sleep. -/
def finishPass : List Action := List.replicate 8 .loop

/-- The monitor asleep after the pass `stop` interrupted. -/
def lastSleep : Sys :=
  ⟨20000, ["tcp://a"], false, true, .live ⟨.sleeping 40000, ⟨20000, 20000, 20000⟩, 20000⟩,
    .joining, false, [(.latency, "tcp://a")], [0, 20000]⟩

/-- Awake, the loop returns at its head, and the `join` ends. -/
def returnAndJoin : List Action := [.loop, .loop, .join]

/-- The monitor once that `stop` has returned. -/
def joinedAfterStop : Sys :=
  ⟨40000, ["tcp://a"], false, true, .joined, .idle, false, [(.latency, "tcp://a")], [0, 20000]⟩

/-- The clock waits out a sleep, then the rest of a run. -/
theorem run_ticks_append (n : ℕ) (as : List Action) (s : Sys) :
    run (List.replicate n .tick ++ as) s = run as { s with clock := s.clock + n } := by
  rw [run_append, run_ticks, Option.some_bind]

theorem run_wakeAndMeasure :
    run (List.replicate 20000 .tick ++ wakeAndMeasure) firstSleep = some firstMeasurement := by
  rw [run_ticks_append]; rfl

theorem reachable_firstMeasurement : Reachable firstMeasurement :=
  have h : run startAndSleep (init 0 ["tcp://a"]) = some firstSleep := rfl
  ((Reachable.init 0 ["tcp://a"]).run h).run run_wakeAndMeasure

theorem reachable_stoppedMidMeasurement : Reachable stoppedMidMeasurement :=
  .step .stop reachable_firstMeasurement rfl

theorem reachable_joinedAfterStop : Reachable joinedAfterStop :=
  have h₁ : run finishPass stoppedMidMeasurement = some lastSleep := rfl
  have h₂ : run (List.replicate 20000 .tick ++ returnAndJoin) lastSleep = some joinedAfterStop := by
    rw [run_ticks_append]; rfl
  (reachable_stoppedMidMeasurement.run h₁).run h₂

/-! ## What a step of `monitor_loop` leaves alone -/

/-- A step of `monitor_loop` moves the thread, and may log a measurement or a reading; it
writes nothing else, and the thread returns only when `should_stop_` is set. -/
theorem loopStep_frame {s s' : Sys} {l : Loop} (h : loopStep s l = some s') :
    s'.clock = s.clock ∧ s'.uris = s.uris ∧ s'.running = s.running ∧
      s'.shouldStop = s.shouldStop ∧ s'.control = s.control ∧ s'.terminated = s.terminated ∧
      (s'.thread.alive = true ∨ s.shouldStop = true ∧ s'.thread = .exited) := by
  unfold loopStep at h
  split at h <;> (try split at h) <;> cases h <;> simp_all [ThreadSlot.alive]

theorem step_loop_frame {s s' : Sys} (h : step .loop s = some s') :
    s.thread.alive = true ∧ s'.clock = s.clock ∧ s'.uris = s.uris ∧ s'.running = s.running ∧
      s'.shouldStop = s.shouldStop ∧ s'.control = s.control ∧ s'.terminated = s.terminated ∧
      (s'.thread.alive = true ∨ s.shouldStop = true ∧ s'.thread = .exited) := by
  simp only [step] at h
  split at h
  · rename_i hl
    cases h
    simp [hl, ThreadSlot.alive]
  · rename_i l hl
    rw [hl]
    exact ⟨rfl, loopStep_frame h⟩
  all_goals cases h

/-- The thread a step of `monitor_loop` leaves is joinable: still running, or returned. -/
theorem joinable_of_step_loop {s s' : Sys} (h : step .loop s = some s') :
    s'.thread.joinable = true := by
  rcases (step_loop_frame h).2.2.2.2.2.2.2 with h' | ⟨-, h'⟩
  · exact ThreadSlot.joinable_of_alive h'
  · rw [h']; rfl

/-! ## Stages of the lifecycle -/

/-- Where the main thread and `monitor_thread_` stand. -/
inductive Stage
  /-- Never started, or stopped: no thread to join. -/
  | stopped
  /-- Started, `should_stop_` clear, `monitor_loop` running. -/
  | running
  /-- Inside `stop`: `should_stop_` set and the thread not yet joined. -/
  | stopping
  deriving DecidableEq, Repr

/-- The state is at the stage. -/
def Sys.At (s : Sys) : Stage → Prop
  | .stopped => s.control = .idle ∧ s.running = false ∧ s.thread.joinable = false
  | .running =>
    s.control = .idle ∧ s.running = true ∧ s.shouldStop = false ∧ s.thread.alive = true
  | .stopping =>
    s.control = .joining ∧ s.running = false ∧ s.shouldStop = true ∧ s.thread.joinable = true

/-- What holds in every reachable state: no `std::terminate`, and one of the three stages. -/
structure Inv (s : Sys) : Prop where
  terminated : s.terminated = false
  stage : ∃ st, s.At st

theorem inv_init (now : ℕ) (uris : List String) : Inv (init now uris) :=
  ⟨rfl, .stopped, rfl, rfl, rfl⟩

/-- **Every step keeps the invariant.** `start` is taken only at the stopped stage, where the
thread has been joined, so it never destroys a joinable one. -/
theorem Inv.step {s s' : Sys} (h : Inv s) {a : Action} (hs : step a s = some s') : Inv s' := by
  obtain ⟨ht, st, hst⟩ := h
  cases a with
  | tick | edit uris => cases hs; exact ⟨ht, st, hst⟩
  | start =>
    simp only [Lifecycle.step] at hs
    split_ifs at hs with hc hr hj <;> cases hs
    · exact ⟨ht, st, hst⟩
    · -- outside `stop`, a joinable thread is a running one
      cases st <;> simp_all [Sys.At]
    · refine ⟨ht, .running, ?_, rfl, rfl, rfl⟩
      cases hcs : s.control <;> simp_all
  | stop =>
    simp only [Lifecycle.step] at hs
    split_ifs at hs with hc hr <;> cases hs
    · refine ⟨ht, .stopping, rfl, rfl, rfl, ?_⟩
      cases st <;> simp_all [Sys.At, ThreadSlot.joinable_of_alive]
    · exact ⟨ht, st, hst⟩
  | join =>
    simp only [Lifecycle.step] at hs
    split at hs <;> cases hs
    all_goals
      refine ⟨ht, .stopped, rfl, ?_, ?_⟩ <;> cases st <;> simp_all [Sys.At, ThreadSlot.joinable]
  | loop =>
    obtain ⟨halive, -, -, hrun, hstop, hcontrol, hterm, hthread⟩ := step_loop_frame hs
    refine ⟨hterm ▸ ht, st, ?_⟩
    cases st
    · -- a thread that is not joinable takes no step
      exact absurd (ThreadSlot.joinable_of_alive halive) (by simp [hst.2.2])
    · exact ⟨hcontrol.trans hst.1, hrun.trans hst.2.1, hstop.trans hst.2.2.1,
        hthread.resolve_right fun h => by simp [hst.2.2.1] at h⟩
    · exact ⟨hcontrol.trans hst.1, hrun.trans hst.2.1, hstop.trans hst.2.2.1,
        joinable_of_step_loop hs⟩

theorem Inv.of_reachable {s : Sys} (h : Reachable s) : Inv s := by
  induction h with
  | init now uris => exact inv_init now uris
  | step a _ hs ih => exact ih.step hs

/-! ## After `stop` has returned -/

/-- At the stopped stage no step but `start` moves the thread or logs a measurement. -/
theorem Sys.At.stopped_step {s s' : Sys} (h : s.At .stopped) {a : Action} (ha : a ≠ .start)
    (hs : step a s = some s') : s'.At .stopped ∧ s'.log = s.log ∧ s'.thread = s.thread := by
  obtain ⟨hc, hr, hj⟩ := h
  cases a with
  | tick | edit uris => cases hs; exact ⟨⟨hc, hr, hj⟩, rfl, rfl⟩
  | start => exact absurd rfl ha
  | stop =>
    simp only [Lifecycle.step, hc, hr] at hs
    cases hs
    exact ⟨⟨hc, hr, hj⟩, rfl, rfl⟩
  | join => simp [Lifecycle.step, hc] at hs
  | loop => exact absurd (ThreadSlot.joinable_of_alive (step_loop_frame hs).1) (by simp [hj])

theorem Sys.At.stopped_run {s s' : Sys} (h : s.At .stopped) {as : List Action}
    (has : Action.start ∉ as) (hrun : run as s = some s') :
    s'.log = s.log ∧ s'.thread = s.thread := by
  induction as generalizing s with
  | nil => cases hrun; exact ⟨rfl, rfl⟩
  | cons a as ih =>
    obtain ⟨t, ht, hrun⟩ := run_cons_eq_some.1 hrun
    rw [List.mem_cons, not_or] at has
    obtain ⟨hst, hlog, hthread⟩ := h.stopped_step (Ne.symm has.1) ht
    obtain ⟨h1, h2⟩ := ih hst has.2 hrun
    exact ⟨h1.trans hlog, h2.trans hthread⟩

/-- **`stop` joins the thread it stops, and `start` never destroys a joinable one.** In every
reachable state `std::terminate` has not been called. Once `stop` has returned, or before the
first `start`, `monitor_thread_` is not joinable, and no interleaving without a `start` logs a
measurement or moves the thread. -/
theorem joined_after_stop {s : Sys} (h : Reachable s) :
    s.terminated = false ∧
    (s.control = .idle → s.running = false →
      s.thread.joinable = false ∧
      ∀ {as : List Action} {s' : Sys}, Action.start ∉ as → run as s = some s' →
        s'.log = s.log ∧ s'.thread = s.thread) := by
  obtain ⟨ht, st, hst⟩ := Inv.of_reachable h
  refine ⟨ht, fun hc hr => ?_⟩
  have hstopped : s.At .stopped := by
    cases st <;> simp_all [Sys.At]
  exact ⟨hstopped.2.2, fun has hrun => hstopped.stopped_run has hrun⟩

/-- Once the `stop` of the run above has returned, its thread is joined and nothing more is
measured. -/
theorem joined_after_stop_joinedAfterStop :
    Reachable joinedAfterStop ∧ joinedAfterStop.terminated = false ∧
    (joinedAfterStop.control = .idle → joinedAfterStop.running = false →
      joinedAfterStop.thread.joinable = false ∧
      ∀ {as : List Action} {s' : Sys}, Action.start ∉ as → run as joinedAfterStop = some s' →
        s'.log = joinedAfterStop.log ∧ s'.thread = joinedAfterStop.thread) :=
  ⟨reachable_joinedAfterStop, joined_after_stop reachable_joinedAfterStop⟩

/-! ## After `should_stop_` is set -/

/-- With `should_stop_` set, a step of `monitor_loop` logs only the measurement it was inside,
and begins none. -/
theorem loopStep_stopRequested {s s' : Sys} {l : Loop} (hstop : s.shouldStop = true)
    (hs : loopStep s l = some s') :
    s'.log ++ s'.thread.inFlight.toList = s.log ++ l.pc.inFlight.toList := by
  unfold loopStep at hs
  split at hs <;> rename_i hpc
  · -- the loop's head: `monitor_loop` returns
    simp only [hstop, if_true] at hs
    cases hs; simp [ThreadSlot.inFlight, LoopPc.inFlight, hpc]
  · cases hs
    split
    · simp [ThreadSlot.inFlight, LoopPc.inFlight, hpc]
    · simp only [ThreadSlot.inFlight, Sweep.inFlight_next, hpc]; rfl
  · cases hs
    simp only [ThreadSlot.inFlight, Sweep.inFlight_next, hpc]; rfl
  · -- the next URI of the snapshot skipped
    simp only [hstop, if_true] at hs
    cases hs; simp [ThreadSlot.inFlight, LoopPc.inFlight, hpc]
  · -- the measurement under way ends
    cases hs; simp [ThreadSlot.inFlight, LoopPc.inFlight, hpc]
  · split at hs <;> cases hs; simp [ThreadSlot.inFlight, LoopPc.inFlight, hpc]

/-- With `should_stop_` set, no step but `start` clears it, and the log with the measurement
under way stays as it is. -/
theorem step_stopRequested {s s' : Sys} (hstop : s.shouldStop = true) {a : Action}
    (ha : a ≠ .start) (hs : step a s = some s') :
    s'.shouldStop = true ∧
      s'.log ++ s'.thread.inFlight.toList = s.log ++ s.thread.inFlight.toList := by
  cases a with
  | tick | edit uris => cases hs; exact ⟨hstop, rfl⟩
  | start => exact absurd rfl ha
  | stop =>
    simp only [Lifecycle.step] at hs
    split_ifs at hs <;> cases hs <;> exact ⟨by simp [hstop], rfl⟩
  | join =>
    simp only [Lifecycle.step] at hs
    split at hs <;> cases hs <;> simp_all [ThreadSlot.inFlight]
  | loop =>
    refine ⟨(step_loop_frame hs).2.2.2.2.1.trans hstop, ?_⟩
    simp only [Lifecycle.step] at hs
    split at hs <;> rename_i hl
    · cases hs; simp [hl, ThreadSlot.inFlight, LoopPc.inFlight]
    · rw [hl]; exact loopStep_stopRequested hstop hs
    all_goals cases hs

/-- **Once `should_stop_` is set, the monitor completes at most the measurement under way.**
Whatever runs beside it until the next `start`, the measurements logged are those logged when
the flag was set and at most the one `monitor_loop` was inside, although `running_` is
already false. -/
theorem log_after_stopRequest {s s' : Sys} (hstop : s.shouldStop = true) {as : List Action}
    (has : Action.start ∉ as) (hrun : run as s = some s') :
    s'.log <+: s.log ++ s.thread.inFlight.toList := by
  suffices s'.log ++ s'.thread.inFlight.toList = s.log ++ s.thread.inFlight.toList from
    this ▸ List.prefix_append _ _
  induction as generalizing s with
  | nil => cases hrun; rfl
  | cons a as ih =>
    obtain ⟨t, ht, hrun⟩ := run_cons_eq_some.1 hrun
    rw [List.mem_cons, not_or] at has
    obtain ⟨htstop, heq⟩ := step_stopRequested hstop (Ne.symm has.1) ht
    exact (ih htstop has.2 hrun).trans heq

/-- In the run above, the measurement `stop` interrupted ends and is logged while `running_` is
false, and the two sweeps left in the pass measure nothing. -/
theorem log_after_stopRequest_finishPass :
    stoppedMidMeasurement.shouldStop = true ∧ stoppedMidMeasurement.running = false ∧
      Action.start ∉ finishPass ∧ run finishPass stoppedMidMeasurement = some lastSleep ∧
      lastSleep.log <+: stoppedMidMeasurement.log ++ stoppedMidMeasurement.thread.inFlight.toList :=
  ⟨rfl, rfl, by decide, rfl, log_after_stopRequest rfl (by decide : Action.start ∉ finishPass)
    (rfl : run finishPass stoppedMidMeasurement = some lastSleep)⟩

/-! ## `stop` returns -/

/-- With `should_stop_` set, each step of `monitor_loop` lowers its rank. -/
theorem loopStep_rank_lt {s s' : Sys} {l : Loop} (hstop : s.shouldStop = true)
    (hs : loopStep s l = some s') : toLex s'.thread.rank < toLex l.pc.rank := by
  rw [Prod.Lex.lt_iff]
  cases hpc : l.pc with
  | head =>
    simp only [loopStep, hpc, hstop, if_true, Option.some.injEq] at hs
    subst hs
    exact .inl Nat.one_pos
  | enter k =>
    simp only [loopStep, hpc, Option.some.injEq] at hs
    subst hs
    left
    split
    · exact Nat.lt_succ_self _
    · exact (Sweep.rank_next_lt _ _).trans (Nat.lt_succ_self _)
  | sweep k todo =>
    cases todo with
    | nil =>
      simp only [loopStep, hpc, Option.some.injEq] at hs
      subst hs
      exact .inl (Sweep.rank_next_lt _ _)
    | cons uri todo =>
      -- the URI skipped
      simp only [loopStep, hpc, hstop, if_true, Option.some.injEq] at hs
      subst hs
      exact .inr ⟨rfl, by simp [ThreadSlot.rank, LoopPc.rank]⟩
  | measuring k uri todo =>
    simp only [loopStep, hpc, Option.some.injEq] at hs
    subst hs
    exact .inr ⟨rfl, by simp [ThreadSlot.rank, LoopPc.rank]⟩
  | sleeping wake =>
    simp only [loopStep, hpc] at hs
    split at hs <;> cases hs
    exact .inl Nat.one_lt_two

/-- With `should_stop_` set, each step of `monitor_loop` lowers the thread's rank, and no other
step but `start` raises it. -/
theorem step_rank {s s' : Sys} (hstop : s.shouldStop = true) {a : Action} (ha : a ≠ .start)
    (hs : step a s = some s') :
    toLex s'.thread.rank ≤ toLex s.thread.rank ∧
      (a = .loop → toLex s'.thread.rank < toLex s.thread.rank) := by
  cases a with
  | tick | edit uris => cases hs; exact ⟨le_rfl, nofun⟩
  | start => exact absurd rfl ha
  | stop =>
    simp only [Lifecycle.step] at hs
    split_ifs at hs <;> cases hs <;> exact ⟨le_rfl, nofun⟩
  | join =>
    simp only [Lifecycle.step] at hs
    split at hs <;> cases hs <;> simp_all [ThreadSlot.rank]
  | loop =>
    suffices toLex s'.thread.rank < toLex s.thread.rank from ⟨this.le, fun _ => this⟩
    simp only [Lifecycle.step] at hs
    split at hs <;> rename_i hl
    · cases hs
      rw [hl, Prod.Lex.lt_iff]
      exact .inl (by decide : 1 < 9)
    · rw [hl]; exact loopStep_rank_lt hstop hs
    all_goals cases hs

/-- `monitor_loop` can take a step at once, unless it is asleep. -/
theorem exists_loopStep {s : Sys} {l : Loop}
    (h : ∀ wake, l.pc = .sleeping wake → wake ≤ s.clock) :
    ∃ s', loopStep s l = some s' := by
  cases hpc : l.pc with
  | head => by_cases hstop : s.shouldStop <;> simp [loopStep, hpc, hstop]
  | sweep k todo => cases todo <;> simp [loopStep, hpc]
  | sleeping wake => simp [loopStep, hpc, h wake hpc]
  | enter k | measuring k uri todo => simp [loopStep, hpc]

/-- With `should_stop_` set, the clock and one step of a thread that has not returned lower its
rank: the clock waits out a sleep. -/
theorem exists_ticks_loop {s : Sys} (hstop : s.shouldStop = true) (ha : s.thread.alive = true) :
    ∃ n s', run (List.replicate n .tick ++ [.loop]) s = some s' ∧
      toLex s'.thread.rank < toLex s.thread.rank := by
  cases ht : s.thread with
  | started =>
    refine ⟨0, { s with thread := .live ⟨.head, ⟨s.clock, s.clock, s.clock⟩, s.clock⟩ },
      by simp [run, Lifecycle.step, ht], ?_⟩
    rw [Prod.Lex.lt_iff]
    exact .inl (by decide : 1 < 9)
  | live l =>
    obtain ⟨n, hn⟩ : ∃ n, ∀ wake, l.pc = .sleeping wake → wake ≤ s.clock + n := by
      cases l.pc with
      | sleeping wake => exact ⟨wake, fun _ h => by cases h; omega⟩
      | _ => exact ⟨0, fun _ h => by cases h⟩
    obtain ⟨s', hs'⟩ := exists_loopStep (s := { s with clock := s.clock + n }) hn
    refine ⟨n, s', ?_, ?_⟩
    · rw [run_append, run_ticks]
      simpa [run, Lifecycle.step, ht] using hs'
    · exact loopStep_rank_lt (s := { s with clock := s.clock + n }) hstop hs'
  | empty | exited | joined => simp [ht, ThreadSlot.alive] at ha

theorem Sys.At.stopping_step {s s' : Sys} (h : s.At .stopping) {a : Action}
    (ha : a = .loop ∨ a = .tick) (hs : step a s = some s') : s'.At .stopping := by
  obtain ⟨hc, hr, hstop, hj⟩ := h
  rcases ha with rfl | rfl
  · obtain ⟨-, -, -, hrun, hstop', hcontrol, -, -⟩ := step_loop_frame hs
    exact ⟨hcontrol.trans hc, hrun.trans hr, hstop'.trans hstop, joinable_of_step_loop hs⟩
  · cases hs; exact ⟨hc, hr, hstop, hj⟩

theorem Sys.At.stopping_run {s s' : Sys} (h : s.At .stopping) {as : List Action}
    (has : ∀ a ∈ as, a = .loop ∨ a = .tick) (hrun : run as s = some s') : s'.At .stopping := by
  induction as generalizing s with
  | nil => cases hrun; exact h
  | cons a as ih =>
    obtain ⟨t, ht, hrun⟩ := run_cons_eq_some.1 hrun
    exact ih (h.stopping_step (has a (List.mem_cons_self _ _)) ht)
      (fun a' ha' => has a' (List.mem_cons_of_mem _ ha')) hrun

/-- From inside `stop`, the monitor thread and the clock alone bring the `join` to its end. -/
theorem Sys.At.stopping_joins {s : Sys} (h : s.At .stopping) :
    ∃ as s', (∀ a ∈ as, a = .loop ∨ a = .tick ∨ a = .join) ∧ run as s = some s' ∧
      s'.control = .idle ∧ s'.thread = .joined := by
  suffices ∀ r : Lex (ℕ × ℕ), ∀ s : Sys, toLex s.thread.rank = r → s.At .stopping →
      ∃ as s', (∀ a ∈ as, a = .loop ∨ a = .tick ∨ a = .join) ∧ run as s = some s' ∧
        s'.control = .idle ∧ s'.thread = .joined from this _ s rfl h
  intro r
  induction r using WellFoundedLT.induction with
  | _ r ih =>
  intro s hr h
  cases ht : s.thread with
  | exited =>
    -- `monitor_loop` has returned: the `join` ends
    refine ⟨[.join], { s with thread := .joined, control := .idle }, by simp, ?_, rfl, rfl⟩
    simp [run, Lifecycle.step, h.1, ht]
  | started | live l =>
    obtain ⟨n, s', hrun, hlt⟩ := exists_ticks_loop h.2.2.1 (by simp [ht, ThreadSlot.alive])
    have hpre : ∀ a ∈ List.replicate n Action.tick ++ [.loop], a = .loop ∨ a = .tick := by
      intro a ha
      rcases List.mem_append.1 ha with ha | ha
      · exact .inr (List.eq_of_mem_replicate ha)
      · exact .inl (List.mem_singleton.1 ha)
    obtain ⟨as, s'', has, hrun', hc, hj⟩ := ih _ (hr ▸ hlt) s' rfl (h.stopping_run hpre hrun)
    refine ⟨_ ++ as, s'', fun a ha => ?_, by rw [run_append, hrun]; exact hrun', hc, hj⟩
    rcases List.mem_append.1 ha with ha | ha
    · rcases hpre a ha with rfl | rfl <;> simp
    · exact has a ha
  | empty | joined => exact absurd h.2.2.2 (by simp [ht, ThreadSlot.joinable])

/-- **`stop` returns.** In every reachable state inside `stop`, each step of `monitor_loop`
lowers the thread's rank in a well-founded order and no other step raises it, so whatever
runs beside it `monitor_loop` takes finitely many more steps; and the monitor thread and the
clock alone, with nothing from the manager, bring the `join` to its end. -/
theorem stop_returns {s : Sys} (h : Reachable s) (hc : s.control = .joining) :
    (∀ {a : Action} {s' : Sys}, step a s = some s' →
      toLex s'.thread.rank ≤ toLex s.thread.rank ∧
      (a = .loop → toLex s'.thread.rank < toLex s.thread.rank)) ∧
    ∃ as s', (∀ a ∈ as, a = .loop ∨ a = .tick ∨ a = .join) ∧ run as s = some s' ∧
      s'.control = .idle ∧ s'.thread = .joined := by
  obtain ⟨-, st, hst⟩ := Inv.of_reachable h
  have hstopping : s.At .stopping := by
    cases st <;> simp_all [Sys.At]
  refine ⟨fun {a s'} hs => step_rank hstopping.2.2.1 ?_ hs, hstopping.stopping_joins⟩
  rintro rfl
  simp [Lifecycle.step, hc] at hs

/-- The `stop` of the run above returns. -/
theorem stop_returns_midMeasurement :
    Reachable stoppedMidMeasurement ∧ stoppedMidMeasurement.control = .joining ∧
    (∀ {a : Action} {s' : Sys}, step a stoppedMidMeasurement = some s' →
      toLex s'.thread.rank ≤ toLex stoppedMidMeasurement.thread.rank ∧
      (a = .loop → toLex s'.thread.rank < toLex stoppedMidMeasurement.thread.rank)) ∧
    ∃ as s', (∀ a ∈ as, a = .loop ∨ a = .tick ∨ a = .join) ∧
      run as stoppedMidMeasurement = some s' ∧ s'.control = .idle ∧ s'.thread = .joined :=
  ⟨reachable_stoppedMidMeasurement, rfl, stop_returns reachable_stoppedMidMeasurement rfl⟩

end Lifecycle

end BrokerMonitorThread

end PahoMqtt
