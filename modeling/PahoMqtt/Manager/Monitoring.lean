import PahoMqtt.MonitorLoop
import PahoMqtt.Manager.Registry
/-!
# The monitor loop beside the manager

The monitor thread shares its `BrokerListManager` with the manager, and nothing orders the
two. Between two of the monitor's updates the manager may run any of its own steps: a
`connect`, a swap called from `on_metrics_updated_` or from `connection_lost`, a `publish`.
Each of them edits the registry only through `mark_broker_unavailable`,
`set_current_broker` and `update_broker_metrics` (`Touched`, from `step_cases`). The
registry under a list of measurements, with such edits before each of them and after the
last, is `Interleaved`. Every run of the manager on which the application adds and removes
no broker is such an interleaving of the measurements of its monitor events
(`interleaved_of_run`). The monitor thread alone is one too, with no edit at all
(`interleaved_run`). It measures what `MonitorLoop.measurements` lists: as no record comes
or goes, every sweep's fresh snapshot is the first one.

None of the manager's edits adds or removes a record, changes a URI or the category, or
moves a record off the fixed points of rescoring: `mark_broker_unavailable` zeroes the score
of the record it marks, and `update_broker_metrics` rescores it. So once a latency or a
bandwidth probe has measured a URI, its record stays rescored, whatever the manager and the
later measurements do (`Interleaved.rescoredOn`). Every pass after the first runs all three
sweeps, so from the second pass on every record is what rescoring under the category's
profile makes of it, on every interleaving with the manager (`rescored_of_monitorLoop`).
-/

namespace PahoMqtt

namespace BrokerListManager

variable {K : Type} [LinearOrderedField K]

/-- Every record whose URI is in `done` is what rescoring under the category's profile makes
of it. -/
def RescoredOn (done : List String) (r : BrokerListManager K) : Prop :=
  ∀ b ∈ r.brokers, b.uri ∈ done → b.updateScore (weightsFor r.category) = b

theorem RescoredOn.mono {done done' : List String} {r : BrokerListManager K}
    (h : r.RescoredOn done) (hsub : ∀ v ∈ done', v ∈ done) : r.RescoredOn done' :=
  fun b hb hd => h b hb (hsub _ hd)

omit [LinearOrderedField K] in
@[simp] theorem category_setCurrentBroker (uri : String) (r : BrokerListManager K) :
    (r.setCurrentBroker uri).2.category = r.category := by
  unfold setCurrentBroker; split <;> rfl

section touched

variable {r r' : BrokerListManager K}

/-- The manager's edits keep the invariant, the category and the URIs. -/
theorem Touched.frame (h : Touched r r') (hr : r.Inv) :
    r'.Inv ∧ r'.category = r.category ∧ r'.getBrokerUris = r.getBrokerUris := by
  induction h with
  | refl => exact ⟨hr, rfl, rfl⟩
  | mark uri _ ih =>
    exact ⟨ih.1.apply (.markBrokerUnavailable uri), ih.2.1, by
      rw [← ih.2.2]; exact map_uri_markBrokerUnavailable uri _⟩
  | setCurrent uri _ ih =>
    exact ⟨ih.1.apply (.setCurrentBroker uri), (category_setCurrentBroker uri _).trans ih.2.1, by
      rw [← ih.2.2]; exact congrArg (List.map (·.uri)) (brokers_setCurrentBroker uri _)⟩
  | update now uri l b c _ ih =>
    exact ⟨ih.1.apply (.updateBrokerMetrics now uri l b c), ih.2.1, by
      rw [← ih.2.2]; exact map_uri_updateFirst (fun _ => by rfl) _⟩

/-- The manager's edits keep every rescored record rescored: a marked record scores `0`, an
updated one is rescored. -/
theorem Touched.rescoredOn (h : Touched r r') {done : List String} (hr : r.RescoredOn done) :
    r'.RescoredOn done := by
  induction h with
  | refl => exact hr
  | mark uri _ ih => exact forall_updateFirst ih fun _ _ _ => rfl
  | setCurrent uri _ ih => simpa [RescoredOn] using ih
  | update now uri l b c _ ih => exact forall_updateFirst ih fun _ _ _ => rfl

end touched

end BrokerListManager

namespace BrokerMonitorThread

open BrokerListManager

variable {K : Type} [LinearOrderedField K]

namespace Measurement

variable {r : BrokerListManager K}

theorem uri_ite (w : ScoreWeights K) (x : Measurement K) (b : BrokerInfo K) :
    (if b.uri = x.uri then x.update w b else b).uri = b.uri := by
  split_ifs <;> simp

/-- A measurement keeps the invariant, the category and the URIs. -/
theorem frame_apply (x : Measurement K) (h : r.Inv) :
    (x.apply r).1.Inv ∧ (x.apply r).1.category = r.category ∧
      (x.apply r).1.getBrokerUris = r.getBrokerUris := by
  rw [x.apply_eq h]
  refine ⟨inv_map h (uri_ite _ x) fun b hb => ?_, rfl, ?_⟩
  · split_ifs
    exacts [x.scoreSound_update _ hb, hb]
  · simp only [getBrokerUris, List.map_map]
    exact List.map_congr_left fun b _ => uri_ite _ x b

/-- A measurement keeps every rescored record rescored, and leaves the record of its URI
rescored when it rescores. -/
theorem rescoredOn_apply (x : Measurement K) (h : r.Inv) {done : List String}
    (done' : List String) (hr : r.RescoredOn done)
    (hdone : ∀ v ∈ done', v ∈ done ∨ (v = x.uri ∧ x.rescores = true)) :
    (x.apply r).1.RescoredOn done' := by
  rw [x.apply_eq h]
  rintro _ hb hd
  obtain ⟨b, hb0, rfl⟩ := List.mem_map.1 hb
  by_cases hu : b.uri = x.uri
  · rw [if_pos hu] at hd ⊢
    rw [update_uri] at hd
    exact x.update_rescored _ ((hdone _ hd).elim (fun hd' => .inr (hr b hb0 hd')) fun h' => .inl h'.2)
  · rw [if_neg hu] at hd ⊢
    exact hr b hb0 ((hdone _ hd).resolve_right fun h' => hu h'.1)

end Measurement

/-- The registry goes from `r` to `r'` through the measurements `ms`, in order, while the
manager edits it before each of them and after the last. -/
inductive Interleaved : List (Measurement K) → BrokerListManager K → BrokerListManager K → Prop
  | nil {r r' : BrokerListManager K} : Touched r r' → Interleaved [] r r'
  | cons {x : Measurement K} {ms : List (Measurement K)} {r r₁ r' : BrokerListManager K} :
      Touched r r₁ → Interleaved ms (x.apply r₁).1 r' → Interleaved (x :: ms) r r'

namespace Interleaved

variable {ms ms' : List (Measurement K)} {r r₁ r' : BrokerListManager K}

/-- Edits before an interleaving belong to it. -/
theorem touched_left (ht : Touched r r₁) (h : Interleaved ms r₁ r') : Interleaved ms r r' := by
  cases h with
  | nil h' => exact .nil (ht.trans h')
  | cons h' hs => exact .cons (ht.trans h') hs

theorem append (h : Interleaved ms r r₁) (h' : Interleaved ms' r₁ r') :
    Interleaved (ms ++ ms') r r' := by
  induction h with
  | nil ht => exact h'.touched_left ht
  | cons ht _ ih => exact .cons ht (ih h')

/-- An interleaving keeps the invariant, the category and the URIs. -/
theorem frame (hs : Interleaved ms r r') (h : r.Inv) :
    r'.Inv ∧ r'.category = r.category ∧ r'.getBrokerUris = r.getBrokerUris := by
  induction hs with
  | nil ht => exact ht.frame h
  | @cons x _ _ _ _ ht _ ih =>
    obtain ⟨h1, hc1, hu1⟩ := ht.frame h
    obtain ⟨h2, hc2, hu2⟩ := x.frame_apply h1
    obtain ⟨h3, hc3, hu3⟩ := ih h2
    exact ⟨h3, hc3.trans (hc2.trans hc1), hu3.trans (hu2.trans hu1)⟩

/-- **Along any interleaving, a URI once measured by a probe that rescores stays rescored**,
whatever the manager and the later measurements do. -/
theorem rescoredOn (hs : Interleaved ms r r') (h : r.Inv) (done : List String)
    (hr : r.RescoredOn done) : r'.RescoredOn (done ++ (ms.filter (·.rescores)).map (·.uri)) := by
  induction hs generalizing done with
  | nil ht => simpa using ht.rescoredOn hr
  | @cons x ms _ _ _ ht _ ih =>
    have h1 := (ht.frame h).1
    have hr1 := ht.rescoredOn hr
    cases hx : x.rescores
    · -- a connection count that threw: nothing new is rescored
      rw [List.filter_cons_of_neg (by simp [hx])]
      exact ih (x.frame_apply h1).1 done (x.rescoredOn_apply h1 done hr1 fun v hv => .inl hv)
    · -- the record of `x.uri` is rescored
      rw [List.filter_cons_of_pos hx, List.map_cons]
      refine (ih (x.frame_apply h1).1 (x.uri :: done) (x.rescoredOn_apply h1 _ hr1 ?_)).mono
        fun v hv => List.perm_middle.mem_iff.1 hv
      intro v hv
      rcases List.mem_cons.1 hv with rfl | hv
      exacts [.inr ⟨rfl, hx⟩, .inl hv]

end Interleaved

/-! ## The monitor thread alone -/

open MonitorLoop

theorem interleaved_sweep (mk : String → Measurement K) :
    ∀ (uris : List String) (r : BrokerListManager K),
      Interleaved (uris.map mk) r (sweep (fun uri => (mk uri).apply) uris r).1
  | [], _ => .nil .refl
  | _ :: uris, _ => .cons .refl (interleaved_sweep mk uris _)

theorem interleaved_sweepIf (due : Bool) (mk : String → Measurement K) (r : BrokerListManager K) :
    Interleaved (if due then r.getBrokerUris.map mk else []) r
      (sweepIf due (fun uri => (mk uri).apply) r).1 := by
  cases due
  · exact .nil .refl
  · exact interleaved_sweep mk _ r

/-- A pass of the monitor alone measures what `passMeasurements` lists, every sweep's
snapshot being the first one. -/
theorem interleaved_pass (now : ℕ) (p : PassProbes K) (m : MonitorLoop) {r : BrokerListManager K}
    (h : r.Inv) : Interleaved (passMeasurements p (m.due now) r.getBrokerUris) r (m.pass now p r).2.1 := by
  have h1 := interleaved_sweepIf (m.due now).1 p.latencyOf r
  obtain ⟨i1, -, u1⟩ := h1.frame h
  have h2 := interleaved_sweepIf (m.due now).2.1 p.bandwidthOf
    (sweepIf (m.due now).1 (fun uri => (p.latencyOf uri).apply) r).1
  obtain ⟨i2, -, u2⟩ := h2.frame i1
  have h3 := interleaved_sweepIf (m.due now).2.2 p.connectionCountOf
    (sweepIf (m.due now).2.1 (fun uri => (p.bandwidthOf uri).apply)
      (sweepIf (m.due now).1 (fun uri => (p.latencyOf uri).apply) r).1).1
  rw [u1] at h2
  rw [u2, u1] at h3
  exact (h1.append h2).append h3

/-- **The monitor thread alone is one interleaving**, the one with no edit: its run measures
what `measurements` lists over the first snapshot. -/
theorem interleaved_run : ∀ (passes : List (ℕ × PassProbes K)) (m : MonitorLoop)
    {r : BrokerListManager K}, r.Inv →
    Interleaved (measurements passes m r.getBrokerUris) r (MonitorLoop.run passes m r)
  | [], _, _, _ => .nil .refl
  | (now, p) :: passes, m, r, h => by
    have hp := interleaved_pass now p m h
    obtain ⟨i1, -, u1⟩ := hp.frame h
    have ih := interleaved_run passes (m.stamp now) i1
    rw [u1] at ih
    exact hp.append ih

omit [LinearOrderedField K] in
/-- The second pass of a run, when it runs all three sweeps, measures the latency of every
URI of the snapshot. -/
theorem mem_measurements_rescores {passes : List (ℕ × PassProbes K)} {m : MonitorLoop}
    {uris : List String} (hlen : 2 ≤ passes.length)
    (hdue : ∀ d ∈ (dueLog (passes.map (·.1)) m).tail, d = (true, true, true)) {uri : String}
    (huri : uri ∈ uris) : uri ∈ ((measurements passes m uris).filter (·.rescores)).map (·.uri) := by
  obtain ⟨⟨t₁, p₁⟩, ⟨t₂, p₂⟩, rest, rfl⟩ : ∃ a b rest, passes = a :: b :: rest := by
    match passes, hlen with
    | a :: b :: rest, _ => exact ⟨a, b, rest, rfl⟩
  have h2 : (m.stamp t₁).due t₂ = (true, true, true) := hdue _ (by simp [dueLog])
  refine List.mem_map.2 ⟨p₂.latencyOf uri, List.mem_filter.2 ⟨?_, rfl⟩, rfl⟩
  simp only [measurements, passMeasurements, h2, if_true, List.mem_append, List.mem_map]
  exact .inr (.inl (.inl (.inl ⟨uri, huri, rfl⟩)))

end BrokerMonitorThread

/-! ## The manager's runs -/

namespace SelfAdaptiveMqttManager

open BrokerListManager BrokerMonitorThread

variable {K : Type} [LinearOrderedField K]

/-- The measurement a monitor event makes; `none` for every other event. -/
def Event.toMeasurement : Event K → Option (Measurement K)
  | .measureLatency _ now uri v => some (.latency now uri v)
  | .measureBandwidth _ now uri v => some (.bandwidth now uri v)
  | .checkConnectionCount _ now uri v => some (.connectionCount now uri v)
  | _ => none

/-- The application's calls that add or remove records: `add_broker`, `remove_broker` and
`set_brokers`. -/
def Event.editsBrokerList : Event K → Bool
  | .addBroker _ _ | .removeBroker _ | .setBrokers _ _ => true
  | _ => false

theorem touched_afterMeasurement (o : Oracle) (s : SelfAdaptiveMqttManager K)
    (result : BrokerListManager K × Bool) : Touched result.1 (s.afterMeasurement o result).brokerManager := by
  unfold afterMeasurement
  split
  · exact (internal_onMetricsUpdated o { s with brokerManager := result.1 }).touched
  · exact .refl

/-- A monitor event makes its measurement, and then `on_metrics_updated_` edits the
registry. -/
theorem touched_step_of_toMeasurement {e : Event K} {x : Measurement K} (hx : e.toMeasurement = some x)
    {s t : SelfAdaptiveMqttManager K} (h : step e s = some t) :
    Touched (x.apply s.brokerManager).1 t.brokerManager := by
  cases e <;> simp only [Event.toMeasurement, reduceCtorEq, Option.some.injEq] at hx <;> subst hx <;>
    cases h <;> exact touched_afterMeasurement _ _ _

/-- Every step but the calls that add or remove records edits the registry only through the
calls of `Touched`. -/
theorem touched_step {e : Event K} (hed : e.editsBrokerList = false) {s t : SelfAdaptiveMqttManager K}
    (h : step e s = some t) : Touched s.brokerManager t.brokerManager := by
  rcases step_cases h with ⟨_, _, rfl, -⟩ | ⟨_, rfl, -⟩ | ⟨_, _, rfl, -⟩ | ⟨o, m, -, rfl⟩ | ⟨-, hi⟩
  · cases hed
  · cases hed
  · cases hed
  · rw [publish_brokerManager]
    exact .refl
  · exact hi.touched

/-- **Every run of the manager on which the application adds and removes no broker is an
interleaving** of the measurements of its monitor events with the manager's edits. -/
theorem interleaved_of_run : ∀ {es : List (Event K)} {s t : SelfAdaptiveMqttManager K},
    run es s = some t → (∀ e ∈ es, e.editsBrokerList = false) →
    Interleaved (es.filterMap Event.toMeasurement) s.brokerManager t.brokerManager
  | [], _, _, h, _ => by
    cases h
    exact .nil .refl
  | e :: es, s, t, h, hed => by
    obtain ⟨u, hstep, hrun⟩ := run_cons_eq_some.1 h
    have ih := interleaved_of_run hrun fun e' he' => hed e' (List.mem_cons_of_mem _ he')
    cases hx : e.toMeasurement with
    | none =>
      rw [List.filterMap_cons_none hx]
      exact ih.touched_left (touched_step (hed e (List.mem_cons_self _ _)) hstep)
    | some x =>
      rw [List.filterMap_cons_some hx]
      exact .cons .refl (ih.touched_left (touched_step_of_toMeasurement hx hstep))

/-- **From the second pass on, every record is rescored, whatever the manager does beside
the monitor.** Take a run of the manager from a registry with the invariant, on which the
application adds and removes no broker and whose monitor events make the measurements of
the monitor loop's passes. Let its first pass begin no earlier than the three checks, and
its passes begin at least `MONITOR_INTERVAL_MS` apart. Then every pass after the first runs
all three sweeps. Once two passes have run, every record is what rescoring under the
category's profile makes of it, however the manager's connects, swaps and callbacks fell
between the measurements. -/
theorem rescored_of_monitorLoop (passes : List (ℕ × PassProbes K)) (m : MonitorLoop)
    {es : List (Event K)} {s s' : SelfAdaptiveMqttManager K} (hrun : run es s = some s')
    (hed : ∀ e ∈ es, e.editsBrokerList = false)
    (hmon : es.filterMap Event.toMeasurement =
      MonitorLoop.measurements passes m s.brokerManager.getBrokerUris)
    (h : s.brokerManager.Inv) (hstart : ∀ t ∈ (passes.map (·.1)).head?, m.Before t)
    (hsleep : (passes.map (·.1)).Chain' fun t t' => t + monitorIntervalMs ≤ t') :
    (∀ d ∈ (MonitorLoop.dueLog (passes.map (·.1)) m).tail, d = (true, true, true)) ∧
    (2 ≤ passes.length → s'.brokerManager.Rescored) := by
  have hdue := MonitorLoop.dueLog_tail _ m hstart hsleep
  refine ⟨hdue, fun hlen b hb => ?_⟩
  have hi := interleaved_of_run hrun hed
  rw [hmon] at hi
  have hr := hi.rescoredOn h [] fun _ _ hd => absurd hd (List.not_mem_nil _)
  have huri : b.uri ∈ s.brokerManager.getBrokerUris := (hi.frame h).2.2 ▸ List.mem_map_of_mem _ hb
  exact hr b hb (mem_measurements_rescores hlen hdue huri)

/-- Two passes twenty seconds apart, their probes all throwing. -/
def allThrowPasses : List (ℕ × PassProbes ℚ) :=
  [(0, MonitorLoop.allThrow), (20000, MonitorLoop.allThrow)]

/-- A manager whose registry holds one broker. -/
def oneBrokerManager : SelfAdaptiveMqttManager ℚ :=
  { (init "sensor" : SelfAdaptiveMqttManager ℚ) with brokerManager := MonitorLoop.oneBroker }

/-- A `disconnect` of the application, then the second pass's three measurements, all
throwing. -/
def allThrowEvents : List (Event ℚ) :=
  [.disconnect, .measureLatency (onlyUp "tcp://a") 0 "tcp://a" none,
    .measureBandwidth (onlyUp "tcp://a") 0 "tcp://a" none,
    .checkConnectionCount (onlyUp "tcp://a") 0 "tcp://a" none]

/-- One broker, checks at `0`, two passes twenty seconds apart with a `disconnect` before the
second. -/
theorem rescored_of_monitorLoop_allThrow :
    run allThrowEvents oneBrokerManager = some { oneBrokerManager.disconnect with
      brokerManager := (MonitorLoop.oneBroker.markBrokerUnavailable "tcp://a").markBrokerUnavailable
        "tcp://a" } ∧
    (∀ e ∈ allThrowEvents, e.editsBrokerList = false) ∧
    allThrowEvents.filterMap Event.toMeasurement =
      MonitorLoop.measurements allThrowPasses ⟨0, 0, 0⟩ oneBrokerManager.brokerManager.getBrokerUris ∧
    oneBrokerManager.brokerManager.Inv ∧
    (∀ t ∈ (allThrowPasses.map (·.1)).head?, MonitorLoop.Before t ⟨0, 0, 0⟩) ∧
    (allThrowPasses.map (·.1)).Chain' (fun t t' => t + monitorIntervalMs ≤ t') ∧
    (∀ d ∈ (MonitorLoop.dueLog (allThrowPasses.map (·.1)) ⟨0, 0, 0⟩).tail, d = (true, true, true)) ∧
    (2 ≤ allThrowPasses.length → ({ oneBrokerManager.disconnect with
      brokerManager := (MonitorLoop.oneBroker.markBrokerUnavailable "tcp://a").markBrokerUnavailable
        "tcp://a" } : SelfAdaptiveMqttManager ℚ).brokerManager.Rescored) :=
  have hrun : run allThrowEvents oneBrokerManager = some { oneBrokerManager.disconnect with
      brokerManager := (MonitorLoop.oneBroker.markBrokerUnavailable "tcp://a").markBrokerUnavailable
        "tcp://a" } := rfl
  have hed : ∀ e ∈ allThrowEvents, e.editsBrokerList = false := by decide
  have hmon : allThrowEvents.filterMap Event.toMeasurement =
      MonitorLoop.measurements allThrowPasses ⟨0, 0, 0⟩ oneBrokerManager.brokerManager.getBrokerUris :=
    rfl
  have h : oneBrokerManager.brokerManager.Inv := (inv_init "sensor").addBroker 0 "tcp://a"
  have hstart : ∀ t ∈ (allThrowPasses.map (·.1)).head?, MonitorLoop.Before t ⟨0, 0, 0⟩ := by
    intro t ht
    obtain rfl : t = 0 := (Option.some_inj.1 ht).symm
    exact ⟨le_rfl, le_rfl, le_rfl⟩
  have hsleep : (allThrowPasses.map (·.1)).Chain' (fun t t' => t + monitorIntervalMs ≤ t') := by
    simp [allThrowPasses, monitorIntervalMs]
  ⟨hrun, hed, hmon, h, hstart, hsleep,
    rescored_of_monitorLoop allThrowPasses ⟨0, 0, 0⟩ hrun hed hmon h hstart hsleep⟩

end SelfAdaptiveMqttManager

end PahoMqtt
