import PahoMqtt.Monitor
import PahoMqtt.Registry.Rescore
/-!
# The monitor loop

`monitor_loop` runs until `should_stop_` is set. Each pass reads the clock once, then runs
in turn each of the latency, bandwidth and connection-count sweeps whose interval has gone
by since that sweep last ran, stamping its `last_*_check` with the reading. A sweep takes a
fresh snapshot of the URIs (`get_broker_uris`) and measures them one after another. The
pass then sleeps `MONITOR_INTERVAL_MS`.

This module is the monitor thread alone, with nothing else editing the registry while it
runs. Each measurement rewrites the record of its URI and no other one (`Measurement`,
`Measurement.apply_eq`). Under unique URIs a sweep is then a `map` over the records
(`sweep_eq_map`). Each record is rewritten by its own URI's probe alone, whatever the order
of the snapshot, and the current index and the category do not move.
`on_metrics_updated_` fires once for each registered URI whose probe returned, in snapshot
order. A pass that runs all three sweeps therefore rewrites each record by its three probes
(`pass_eq_map`). The record is left available only if it was available and both its latency
and bandwidth probes returned. It holds the metrics its probes returned and a score
rescored under the current category, whatever the scores were before, a `set_category`
included (`pass_brokers`).

The intervals are 5000, 10000 and 15000 ms, all shorter than the 20000 ms sleep. So every
pass after the first runs all three sweeps, and the intervals never hold a sweep back
(`dueLog_tail`). What the passes do while the manager edits the registry beside them is
the subject of `Manager/Monitoring.lean`.
-/

namespace PahoMqtt

namespace BrokerMonitorThread

/-- `MONITOR_INTERVAL_MS`: the sleep that ends each pass. -/
def monitorIntervalMs : ℕ := 20000

/-- `LATENCY_TEST_INTERVAL_MS`. -/
def latencyTestIntervalMs : ℕ := 5000

/-- `BANDWIDTH_TEST_INTERVAL_MS`. -/
def bandwidthTestIntervalMs : ℕ := 10000

/-- `CONNECTION_CHECK_INTERVAL_MS`. -/
def connectionCheckIntervalMs : ℕ := 15000

variable {K : Type} [LinearOrderedField K]

open BrokerListManager

/-- The loop `for (const auto& uri : broker_uris) { if (!should_stop_) measure(uri); }` over
a snapshot, with no stop requested: the registry, and the URIs for which
`on_metrics_updated_` was called, in order. -/
def sweep (measure : String → BrokerListManager K → BrokerListManager K × Bool) :
    List String → BrokerListManager K → BrokerListManager K × List String
  | [], r => (r, [])
  | uri :: uris, r =>
    let m := measure uri r
    let rest := sweep measure uris m.1
    (rest.1, if m.2 then uri :: rest.2 else rest.2)

/-! ## A sweep is a `map` -/

/-- A measurement that, on a registry with the invariant and of category `c`, rewrites the
record of its URI by `g` and no other one, and calls back when the URI is registered and
`called` holds. `g` keeps the URI and a sound score. -/
structure Pointwise (c : String) (measure : String → BrokerListManager K → BrokerListManager K × Bool)
    (g : String → BrokerInfo K → BrokerInfo K) (called : String → Bool) : Prop where
  eq : ∀ uri r, r.Inv → r.category = c → measure uri r =
    ({ r with brokers := r.brokers.map fun b => if b.uri = uri then g uri b else b },
     called uri && r.brokers.any (·.uri = uri))
  uri : ∀ uri b, (g uri b).uri = b.uri
  sound : ∀ uri b, b.ScoreSound → (g uri b).ScoreSound

/-- Rewriting every record, keeping its URI and a sound score, keeps the invariant. -/
theorem inv_map {r : BrokerListManager K} (h : r.Inv) {f : BrokerInfo K → BrokerInfo K}
    (hu : ∀ b, (f b).uri = b.uri) (hs : ∀ b, b.ScoreSound → (f b).ScoreSound) :
    ({ r with brokers := r.brokers.map f } : BrokerListManager K).Inv where
  nodup := by simpa [Function.comp_def, hu] using h.nodup
  index := by simpa using h.index
  sound := by simpa using fun b hb => hs b (h.sound b hb)

section sweep

variable {c : String} {measure : String → BrokerListManager K → BrokerListManager K × Bool}
  {g : String → BrokerInfo K → BrokerInfo K} {called : String → Bool}

theorem Pointwise.uri_ite (hp : Pointwise c measure g called) (uri : String) (b : BrokerInfo K) :
    (if b.uri = uri then g uri b else b).uri = b.uri := by
  split_ifs
  · exact hp.uri uri b
  · rfl

theorem Pointwise.inv (hp : Pointwise c measure g called) (uri : String) {r : BrokerListManager K}
    (h : r.Inv) (hc : r.category = c) : (measure uri r).1.Inv := by
  rw [hp.eq uri r h hc]
  refine inv_map h (hp.uri_ite uri) fun b hb => ?_
  split_ifs
  · exact hp.sound uri b hb
  · exact hb

/-- **Under unique URIs a sweep is a `map`**: every record whose URI the snapshot lists is
rewritten by its own URI's probe, the others are left, and the callback fires for each
listed URI that is registered and whose probe called back, in snapshot order. -/
theorem sweep_eq_map (hp : Pointwise c measure g called) :
    ∀ {uris : List String} {r : BrokerListManager K}, r.Inv → r.category = c → uris.Nodup →
      sweep measure uris r =
        ({ r with brokers := r.brokers.map fun b => if b.uri ∈ uris then g b.uri b else b },
         uris.filter fun uri => called uri && r.brokers.any (·.uri = uri))
  | [], r, _, _, _ => by simp [sweep]
  | uri :: uris, r, h, hc, hnd => by
    rw [List.nodup_cons] at hnd
    have hm := hp.eq uri r h hc
    have h1 := hp.inv uri h hc
    rw [hm] at h1
    have hany : ∀ v, (r.brokers.map fun b => if b.uri = uri then g uri b else b).any (·.uri = v) =
        r.brokers.any (·.uri = v) := fun v => by
      simp only [List.any_map, Function.comp_def, hp.uri_ite]
    simp only [sweep, hm, sweep_eq_map hp h1 hc hnd.2, hany, List.map_map, List.filter_cons]
    congr 3
    funext b
    by_cases hb : b.uri = uri
    · simp [hb, hp.uri, hnd.1]
    · simp [hb]

theorem sweep_inv (hp : Pointwise c measure g called) {uris : List String} {r : BrokerListManager K}
    (h : r.Inv) (hc : r.category = c) (hnd : uris.Nodup) : (sweep measure uris r).1.Inv := by
  rw [sweep_eq_map hp h hc hnd]
  refine inv_map h (fun b => ?_) fun b hb => ?_ <;> split_ifs
  exacts [hp.uri _ b, rfl, hp.sound _ b hb, hb]

/-- A sweep over the registry's own snapshot rewrites every record by its URI's probe, and
calls back for every registered URI whose probe called back, in registry order. -/
theorem sweep_getBrokerUris (hp : Pointwise c measure g called) {r : BrokerListManager K}
    (h : r.Inv) (hc : r.category = c) :
    sweep measure r.getBrokerUris r =
      ({ r with brokers := r.brokers.map fun b => g b.uri b }, r.getBrokerUris.filter called) := by
  rw [sweep_eq_map hp h hc (show r.getBrokerUris.Nodup from h.nodup)]
  refine Prod.ext (congrArg (fun l => ({ r with brokers := l } : BrokerListManager K))
    (List.map_congr_left fun b hb => if_pos (List.mem_map_of_mem _ hb))) ?_
  refine List.filter_congr fun uri huri => ?_
  obtain ⟨b, hb, rfl⟩ := List.mem_map.1 huri
  simpa using fun _ => ⟨b, hb, rfl⟩

end sweep

/-! ## The three measurements -/

/-- What a probe does to the record of its URI: when it returned a value, the update
`write` puts it in place, the clock reading goes to `last_check`, and the record is
rescored; when it threw, `onThrow`. -/
def probeUpdate {V : Type} (write : BrokerInfo K → V → BrokerInfo K)
    (onThrow : BrokerInfo K → BrokerInfo K) (w : ScoreWeights K) (probe : ℕ × Option V)
    (b : BrokerInfo K) : BrokerInfo K :=
  match probe.2 with
  | some v => BrokerInfo.updateScore w { write b v with lastCheck := probe.1 }
  | none => onThrow b

/-- A latency probe: a thrown one marks the broker unavailable. -/
def latencyUpdate (w : ScoreWeights K) (probe : ℕ × Option K) (b : BrokerInfo K) : BrokerInfo K :=
  probeUpdate (fun b latency => { b with latency }) BrokerInfo.markUnavailable w probe b

/-- A bandwidth probe: a thrown one marks the broker unavailable. -/
def bandwidthUpdate (w : ScoreWeights K) (probe : ℕ × Option K) (b : BrokerInfo K) : BrokerInfo K :=
  probeUpdate (fun b bandwidth => { b with bandwidth }) BrokerInfo.markUnavailable w probe b

/-- A connection-count probe: a thrown one is only logged. -/
def connectionCountUpdate (w : ScoreWeights K) (probe : ℕ × Option ℤ) (b : BrokerInfo K) :
    BrokerInfo K :=
  probeUpdate (fun b connectionCount => { b with connectionCount }) id w probe b

/-- Under unique URIs the record the snapshot finds is the one `update_broker_metrics`
rewrites, so the success path rewrites that record from its own metrics. -/
theorem updateFromSnapshot_eq {r : BrokerListManager K} (hnd : (r.brokers.map (·.uri)).Nodup)
    (now : ℕ) (uri : String) (merge : BrokerInfo K → K × K × ℤ) :
    updateFromSnapshot now uri merge r =
      ({ r with brokers := r.brokers.map fun b => (if b.uri = uri then
          BrokerInfo.updateScore (weightsFor r.category)
            { b with latency := (merge b).1, bandwidth := (merge b).2.1,
                     connectionCount := (merge b).2.2, lastCheck := now } else b) },
       r.brokers.any (·.uri = uri)) := by
  unfold updateFromSnapshot
  cases hfind : r.brokers.find? (·.uri = uri) with
  | none =>
    have hnone : ∀ b ∈ r.brokers, b.uri ≠ uri := by simpa using List.find?_eq_none.1 hfind
    refine Prod.ext ?_ (by simpa using hnone)
    show ({ r with brokers := r.brokers } : BrokerListManager K) = _
    congr 1
    conv_lhs => rw [← List.map_id r.brokers]
    exact List.map_congr_left fun b hb => (if_neg (hnone b hb)).symm
  | some found =>
    have hmem := List.mem_of_find?_eq_some hfind
    have huri : found.uri = uri := by simpa using List.find?_some hfind
    refine Prod.ext ?_ (by simpa using ⟨found, hmem, huri⟩)
    simp only [updateBrokerMetrics, updateFirst_eq_map hnd]
    refine congrArg (fun l => ({ r with brokers := l } : BrokerListManager K))
      (List.map_congr_left fun b hb => ?_)
    split_ifs with hb'
    · obtain rfl : b = found := List.inj_on_of_nodup_map hnd hb hmem (hb'.trans huri.symm)
      rfl
    · rfl

/-- The registry after marking `uri` unavailable, under unique URIs. -/
theorem markBrokerUnavailable_eq_map {r : BrokerListManager K}
    (hnd : (r.brokers.map (·.uri)).Nodup) (uri : String) :
    r.markBrokerUnavailable uri =
      { r with brokers := r.brokers.map fun b => if b.uri = uri then b.markUnavailable else b } := by
  simp only [markBrokerUnavailable, updateFirst_eq_map hnd]

theorem scoreSound_probeUpdate {V : Type} {write : BrokerInfo K → V → BrokerInfo K}
    {onThrow : BrokerInfo K → BrokerInfo K} {w : ScoreWeights K} (hw : w.Valid)
    (hthrow : ∀ b, b.ScoreSound → (onThrow b).ScoreSound) (probe : ℕ × Option V) {b : BrokerInfo K}
    (hb : b.ScoreSound) : (probeUpdate write onThrow w probe b).ScoreSound := by
  unfold probeUpdate
  split
  · exact BrokerInfo.scoreSound_updateScore hw _
  · exact hthrow b hb

@[simp] theorem latencyUpdate_uri (w : ScoreWeights K) (probe : ℕ × Option K) (b : BrokerInfo K) :
    (latencyUpdate w probe b).uri = b.uri := by
  unfold latencyUpdate probeUpdate; split <;> rfl

@[simp] theorem bandwidthUpdate_uri (w : ScoreWeights K) (probe : ℕ × Option K) (b : BrokerInfo K) :
    (bandwidthUpdate w probe b).uri = b.uri := by
  unfold bandwidthUpdate probeUpdate; split <;> rfl

@[simp] theorem connectionCountUpdate_uri (w : ScoreWeights K) (probe : ℕ × Option ℤ)
    (b : BrokerInfo K) : (connectionCountUpdate w probe b).uri = b.uri := by
  unfold connectionCountUpdate probeUpdate; split <;> rfl

theorem pointwise_measureLatency (c : String) (probe : String → ℕ × Option K) :
    Pointwise c (fun uri => measureLatency (probe uri).1 uri (probe uri).2)
      (fun uri => latencyUpdate (weightsFor c) (probe uri)) (fun uri => (probe uri).2.isSome) where
  eq uri r h hc := by
    simp only [measureLatency, latencyUpdate, probeUpdate]
    cases (probe uri).2 <;> simp only [updateFromSnapshot_eq h.nodup, markBrokerUnavailable_eq_map h.nodup, hc,
      Option.isSome_some, Option.isSome_none, Bool.true_and, Bool.false_and]
  uri _ _ := latencyUpdate_uri _ _ _
  sound _ _ hb := scoreSound_probeUpdate (weightsFor_valid _)
    (fun b _ => BrokerInfo.scoreSound_markUnavailable b) _ hb

theorem pointwise_measureBandwidth (c : String) (probe : String → ℕ × Option K) :
    Pointwise c (fun uri => measureBandwidth (probe uri).1 uri (probe uri).2)
      (fun uri => bandwidthUpdate (weightsFor c) (probe uri)) (fun uri => (probe uri).2.isSome) where
  eq uri r h hc := by
    simp only [measureBandwidth, bandwidthUpdate, probeUpdate]
    cases (probe uri).2 <;> simp only [updateFromSnapshot_eq h.nodup, markBrokerUnavailable_eq_map h.nodup, hc,
      Option.isSome_some, Option.isSome_none, Bool.true_and, Bool.false_and]
  uri _ _ := bandwidthUpdate_uri _ _ _
  sound _ _ hb := scoreSound_probeUpdate (weightsFor_valid _)
    (fun b _ => BrokerInfo.scoreSound_markUnavailable b) _ hb

theorem pointwise_checkConnectionCount (c : String) (probe : String → ℕ × Option ℤ) :
    Pointwise (K := K) c (fun uri => checkConnectionCount (probe uri).1 uri (probe uri).2)
      (fun uri => connectionCountUpdate (weightsFor c) (probe uri)) (fun uri => (probe uri).2.isSome) where
  eq uri r h hc := by
    simp only [checkConnectionCount, connectionCountUpdate, probeUpdate]
    cases (probe uri).2
    · simp
    · simp only [updateFromSnapshot_eq h.nodup, hc, Option.isSome_some, Bool.true_and]
  uri _ _ := connectionCountUpdate_uri _ _ _
  sound _ _ hb := scoreSound_probeUpdate (weightsFor_valid _) (fun _ h => h) _ hb

/-! ## Measurements -/

/-- One measurement of the monitor thread as the registry sees it: which of the three, the
clock reading of its update, the URI, and what the probe returned (`none`: it threw). -/
inductive Measurement (K : Type)
  | latency (now : ℕ) (uri : String) (result : Option K)
  | bandwidth (now : ℕ) (uri : String) (result : Option K)
  | connectionCount (now : ℕ) (uri : String) (result : Option ℤ)
  deriving DecidableEq, Repr

namespace Measurement

/-- The URI measured. -/
def uri : Measurement K → String
  | .latency _ uri _ | .bandwidth _ uri _ | .connectionCount _ uri _ => uri

/-- `measure_latency`, `measure_bandwidth` or `check_connection_count` once its probe has
run. -/
def apply : Measurement K → BrokerListManager K → BrokerListManager K × Bool
  | .latency now uri v => measureLatency now uri v
  | .bandwidth now uri v => measureBandwidth now uri v
  | .connectionCount now uri v => checkConnectionCount now uri v

/-- What the measurement does to the record of its URI, under the profile `w`. -/
def update (w : ScoreWeights K) : Measurement K → BrokerInfo K → BrokerInfo K
  | .latency now _ v => latencyUpdate w (now, v)
  | .bandwidth now _ v => bandwidthUpdate w (now, v)
  | .connectionCount now _ v => connectionCountUpdate w (now, v)

/-- Whether the probe returned, so that `on_metrics_updated_` is called on a registered URI. -/
def called : Measurement K → Bool
  | .latency _ _ v => v.isSome
  | .bandwidth _ _ v => v.isSome
  | .connectionCount _ _ v => v.isSome

/-- Whether the measurement leaves the record of its URI rescored whatever it was: the
latency and bandwidth probes always do (a thrown one zeroes the score), the connection count
only when it returned. -/
def rescores : Measurement K → Bool
  | .latency .. | .bandwidth .. => true
  | .connectionCount _ _ v => v.isSome

/-- Under the registry invariant a measurement rewrites the record of its URI, and no other
one, by `update`. -/
theorem apply_eq (x : Measurement K) {r : BrokerListManager K} (h : r.Inv) :
    x.apply r = ({ r with brokers := r.brokers.map fun b =>
        if b.uri = x.uri then x.update (weightsFor r.category) b else b },
      x.called && r.brokers.any (·.uri = x.uri)) := by
  cases x with
  | latency now uri v => exact (pointwise_measureLatency r.category fun _ => (now, v)).eq uri r h rfl
  | bandwidth now uri v =>
    exact (pointwise_measureBandwidth r.category fun _ => (now, v)).eq uri r h rfl
  | connectionCount now uri v =>
    exact (pointwise_checkConnectionCount r.category fun _ => (now, v)).eq uri r h rfl

@[simp] theorem update_uri (w : ScoreWeights K) (x : Measurement K) (b : BrokerInfo K) :
    (x.update w b).uri = b.uri := by
  cases x <;> simp [update]

theorem scoreSound_update (c : String) (x : Measurement K) {b : BrokerInfo K} (hb : b.ScoreSound) :
    (x.update (weightsFor c) b).ScoreSound := by
  cases x with
  | latency now _ v => exact (pointwise_measureLatency c fun _ => (now, v)).sound "" b hb
  | bandwidth now _ v => exact (pointwise_measureBandwidth c fun _ => (now, v)).sound "" b hb
  | connectionCount now _ v => exact (pointwise_checkConnectionCount c fun _ => (now, v)).sound "" b hb

/-- The record a measurement leaves is rescored when the measurement rescores, or when the
record already was. -/
theorem update_rescored (w : ScoreWeights K) (x : Measurement K) {b : BrokerInfo K}
    (hb : x.rescores = true ∨ b.updateScore w = b) : (x.update w b).updateScore w = x.update w b := by
  cases x with
  | latency now _ v | bandwidth now _ v => cases v <;> rfl
  | connectionCount now _ v =>
    cases v with
    | none => simpa [rescores] using hb
    | some n => rfl

end Measurement

/-! ## Passes -/

/-- `last_latency_check`, `last_bandwidth_check` and `last_connection_check`, in
milliseconds of `steady_clock`. -/
structure MonitorLoop where
  lastLatencyCheck : ℕ
  lastBandwidthCheck : ℕ
  lastConnectionCheck : ℕ
  deriving DecidableEq, Repr

/-- What the probes of one pass return, for each sweep and URI: the clock reading of the
registry update, and the probe's value (`none`: it threw). -/
structure PassProbes (K : Type) where
  latency : String → ℕ × Option K
  bandwidth : String → ℕ × Option K
  connectionCount : String → ℕ × Option ℤ

namespace PassProbes

/-- The latency measurement these probes make of `uri`. -/
def latencyOf (p : PassProbes K) (uri : String) : Measurement K :=
  .latency (p.latency uri).1 uri (p.latency uri).2

/-- The bandwidth measurement these probes make of `uri`. -/
def bandwidthOf (p : PassProbes K) (uri : String) : Measurement K :=
  .bandwidth (p.bandwidth uri).1 uri (p.bandwidth uri).2

/-- The connection-count measurement these probes make of `uri`. -/
def connectionCountOf (p : PassProbes K) (uri : String) : Measurement K :=
  .connectionCount (p.connectionCount uri).1 uri (p.connectionCount uri).2

end PassProbes

namespace MonitorLoop

/-- Which of the three sweeps a pass begun at `now` runs:
`duration_cast<milliseconds>(now - last_*_check).count() >= *_INTERVAL_MS`. -/
def due (now : ℕ) (m : MonitorLoop) : Bool × Bool × Bool :=
  (latencyTestIntervalMs ≤ now - m.lastLatencyCheck,
    bandwidthTestIntervalMs ≤ now - m.lastBandwidthCheck,
    connectionCheckIntervalMs ≤ now - m.lastConnectionCheck)

/-- `last_*_check = now;` for each sweep the pass runs. -/
def stamp (now : ℕ) (m : MonitorLoop) : MonitorLoop :=
  ⟨if (m.due now).1 then now else m.lastLatencyCheck,
    if (m.due now).2.1 then now else m.lastBandwidthCheck,
    if (m.due now).2.2 then now else m.lastConnectionCheck⟩

/-- A sweep over a fresh snapshot when it is due. -/
def sweepIf (due : Bool) (measure : String → BrokerListManager K → BrokerListManager K × Bool)
    (r : BrokerListManager K) : BrokerListManager K × List String :=
  if due then sweep measure r.getBrokerUris r else (r, [])

/-- One pass begun at `now`, with no stop requested: the checks, the registry, and the URIs
called back. -/
def pass (now : ℕ) (p : PassProbes K) (m : MonitorLoop) (r : BrokerListManager K) :
    MonitorLoop × BrokerListManager K × List String :=
  let latency := sweepIf (m.due now).1
    (fun uri => measureLatency (p.latency uri).1 uri (p.latency uri).2) r
  let bandwidth := sweepIf (m.due now).2.1
    (fun uri => measureBandwidth (p.bandwidth uri).1 uri (p.bandwidth uri).2) latency.1
  let connection := sweepIf (m.due now).2.2
    (fun uri => checkConnectionCount (p.connectionCount uri).1 uri (p.connectionCount uri).2)
    bandwidth.1
  (m.stamp now, connection.1, latency.2 ++ bandwidth.2 ++ connection.2)

/-- `monitor_loop` over its passes, each with the reading it began at and its probes: the
registry at the end. -/
def run : List (ℕ × PassProbes K) → MonitorLoop → BrokerListManager K → BrokerListManager K
  | [], _, r => r
  | (now, p) :: passes, m, r =>
    let x := m.pass now p r
    run passes x.1 x.2.1

/-- Which sweeps each pass runs, the passes beginning at the readings `ts`. -/
def dueLog : List ℕ → MonitorLoop → List (Bool × Bool × Bool)
  | [], _ => []
  | now :: ts, m => m.due now :: dueLog ts (m.stamp now)

/-- The measurements a pass makes of `uris`, sweep by sweep, when `due` says which sweeps
it runs. -/
def passMeasurements (p : PassProbes K) (due : Bool × Bool × Bool) (uris : List String) :
    List (Measurement K) :=
  (if due.1 then uris.map p.latencyOf else []) ++
  (if due.2.1 then uris.map p.bandwidthOf else []) ++
  (if due.2.2 then uris.map p.connectionCountOf else [])

/-- The measurements a run makes, in order, every sweep over the same snapshot `uris`. -/
def measurements : List (ℕ × PassProbes K) → MonitorLoop → List String → List (Measurement K)
  | [], _, _ => []
  | (now, p) :: passes, m, uris =>
    passMeasurements p (m.due now) uris ++ measurements passes (m.stamp now) uris

/-! ## What a pass does to the registry -/

/-- What a pass that runs all three sweeps does to a record, under the profile `w`. -/
def fullPassUpdate (w : ScoreWeights K) (p : PassProbes K) (b : BrokerInfo K) : BrokerInfo K :=
  connectionCountUpdate w (p.connectionCount b.uri)
    (bandwidthUpdate w (p.bandwidth b.uri) (latencyUpdate w (p.latency b.uri) b))

/-- **A pass that runs all three sweeps rewrites each record by its three probes**, and
calls back for every URI whose latency probe returned, then for every URI whose bandwidth
probe returned, then for every URI whose connection-count probe returned, in registry
order. -/
theorem pass_eq_map {now : ℕ} {p : PassProbes K} {m : MonitorLoop} {r : BrokerListManager K}
    (h : r.Inv) (hdue : m.due now = (true, true, true)) :
    (m.pass now p r).2 =
      ({ r with brokers := r.brokers.map (fullPassUpdate (weightsFor r.category) p) },
       r.getBrokerUris.filter (fun uri => (p.latency uri).2.isSome) ++
         r.getBrokerUris.filter (fun uri => (p.bandwidth uri).2.isSome) ++
         r.getBrokerUris.filter (fun uri => (p.connectionCount uri).2.isSome)) := by
  have hl := pointwise_measureLatency r.category p.latency
  have hb := pointwise_measureBandwidth r.category p.bandwidth
  have hc := pointwise_checkConnectionCount (K := K) r.category p.connectionCount
  have e1 := sweep_getBrokerUris hl h rfl
  have i1 : ({ r with brokers := r.brokers.map (fun b =>
      latencyUpdate (weightsFor r.category) (p.latency b.uri) b) } : BrokerListManager K).Inv := by
    simpa only [e1] using sweep_inv hl h rfl (show r.getBrokerUris.Nodup from h.nodup)
  have e2 := sweep_getBrokerUris hb i1 rfl
  have i2 : ({ r with brokers := (r.brokers.map (fun b =>
      latencyUpdate (weightsFor r.category) (p.latency b.uri) b)).map (fun b =>
        bandwidthUpdate (weightsFor r.category) (p.bandwidth b.uri) b) } : BrokerListManager K).Inv := by
    simpa only [e2] using sweep_inv hb i1 rfl (show (BrokerListManager.getBrokerUris _).Nodup from i1.nodup)
  simp only [pass, sweepIf, hdue, if_true, e1, e2, sweep_getBrokerUris hc i2 rfl]
  rw [List.map_map, List.map_map]
  refine Prod.ext (congrArg (fun l => ({ r with brokers := l } : BrokerListManager K))
    (List.map_congr_left fun b _ => by simp [fullPassUpdate])) ?_
  simp [getBrokerUris, Function.comp_def]

theorem BrokerInfo.updateScore_markUnavailable (w : ScoreWeights K) (b : BrokerInfo K) :
    b.markUnavailable.updateScore w = b.markUnavailable := rfl

/-- What a pass that runs all three sweeps must leave of record `b`, given its probes `p`
and the profile `w`: the same URI; available only if `b` was and both its latency and its
bandwidth probes returned; the values its probes returned and the others kept; and what
rescoring under `w` makes of it. -/
structure ProbedRecord (w : ScoreWeights K) (p : PassProbes K) (b b' : BrokerInfo K) : Prop where
  uri : b'.uri = b.uri
  isAvailable : b'.isAvailable = (b.isAvailable && (p.latency b.uri).2.isSome && (p.bandwidth b.uri).2.isSome)
  latency : b'.latency = (p.latency b.uri).2.getD b.latency
  bandwidth : b'.bandwidth = (p.bandwidth b.uri).2.getD b.bandwidth
  connectionCount : b'.connectionCount = (p.connectionCount b.uri).2.getD b.connectionCount
  rescored : b'.updateScore w = b'

theorem probedRecord_fullPassUpdate (w : ScoreWeights K) (p : PassProbes K) (b : BrokerInfo K) :
    ProbedRecord w p b (fullPassUpdate w p b) := by
  simp only [fullPassUpdate, latencyUpdate, bandwidthUpdate, connectionCountUpdate, probeUpdate]
  constructor <;> cases (p.latency b.uri).2 <;> cases (p.bandwidth b.uri).2 <;>
    cases (p.connectionCount b.uri).2 <;>
    simp [BrokerInfo.markUnavailable, BrokerInfo.updateScore_updateScore] <;> rfl

/-- **A pass that runs all three sweeps leaves each record to its own probes.** Under the
registry invariant the current index and the category stay, and each record is rewritten in
place: it stays available only if it was and both its latency and its bandwidth probes
returned, holds the values its probes returned and keeps the others, and is what rescoring
under the category's profile makes of it. The callback fires once for each probe that
returned, sweep by sweep, in registry order. -/
theorem pass_brokers {now : ℕ} {p : PassProbes K} {m : MonitorLoop} {r : BrokerListManager K}
    (h : r.Inv) (hdue : m.due now = (true, true, true)) :
    (m.pass now p r).2.1.currentBrokerIndex = r.currentBrokerIndex ∧
    (m.pass now p r).2.1.category = r.category ∧
    List.Forall₂ (ProbedRecord (weightsFor r.category) p) r.brokers (m.pass now p r).2.1.brokers ∧
    (m.pass now p r).2.2 =
      r.getBrokerUris.filter (fun uri => (p.latency uri).2.isSome) ++
        r.getBrokerUris.filter (fun uri => (p.bandwidth uri).2.isSome) ++
        r.getBrokerUris.filter (fun uri => (p.connectionCount uri).2.isSome) := by
  rw [pass_eq_map h hdue]
  exact ⟨rfl, rfl, List.forall₂_map_right_iff.2 (List.forall₂_same.2 fun b _ =>
    probedRecord_fullPassUpdate _ p b), rfl⟩

/-- Probes that all throw, for every sweep and URI. -/
def allThrow : PassProbes ℚ :=
  ⟨fun _ => (0, none), fun _ => (0, none), fun _ => (0, none)⟩

/-- One broker registered. -/
def oneBroker : BrokerListManager ℚ := (BrokerListManager.init "sensor").addBroker 0 "tcp://a"

/-- One broker; a pass twenty seconds after the checks, its probes all throwing. -/
theorem pass_brokers_allThrow :
    oneBroker.Inv ∧ MonitorLoop.due 20000 ⟨0, 0, 0⟩ = (true, true, true) ∧
    (MonitorLoop.pass 20000 allThrow ⟨0, 0, 0⟩ oneBroker).2.1.currentBrokerIndex =
      oneBroker.currentBrokerIndex ∧
    (MonitorLoop.pass 20000 allThrow ⟨0, 0, 0⟩ oneBroker).2.1.category = oneBroker.category ∧
    List.Forall₂ (MonitorLoop.ProbedRecord (weightsFor oneBroker.category) allThrow) oneBroker.brokers
      (MonitorLoop.pass 20000 allThrow ⟨0, 0, 0⟩ oneBroker).2.1.brokers ∧
    (MonitorLoop.pass 20000 allThrow ⟨0, 0, 0⟩ oneBroker).2.2 =
      oneBroker.getBrokerUris.filter (fun uri => (allThrow.latency uri).2.isSome) ++
        oneBroker.getBrokerUris.filter (fun uri => (allThrow.bandwidth uri).2.isSome) ++
        oneBroker.getBrokerUris.filter (fun uri => (allThrow.connectionCount uri).2.isSome) :=
  have h : oneBroker.Inv := (inv_init "sensor").addBroker 0 "tcp://a"
  have hdue : MonitorLoop.due 20000 ⟨0, 0, 0⟩ = (true, true, true) := by decide
  ⟨h, hdue, MonitorLoop.pass_brokers h hdue⟩

/-! ## Runs -/

/-- Every check at or before `t`. -/
def Before (t : ℕ) (m : MonitorLoop) : Prop :=
  m.lastLatencyCheck ≤ t ∧ m.lastBandwidthCheck ≤ t ∧ m.lastConnectionCheck ≤ t

theorem Before.mono {t t' : ℕ} {m : MonitorLoop} (h : m.Before t) (ht : t ≤ t') : m.Before t' :=
  ⟨h.1.trans ht, h.2.1.trans ht, h.2.2.trans ht⟩

/-- A pass stamps each check it runs with its own reading, so all stay at or before it. -/
theorem Before.stamp {t : ℕ} {m : MonitorLoop} (h : m.Before t) : (m.stamp t).Before t := by
  obtain ⟨h1, h2, h3⟩ := h
  refine ⟨?_, ?_, ?_⟩ <;> dsimp only [MonitorLoop.stamp] <;> split <;> first | exact le_rfl | assumption

/-- A pass begun at least `MONITOR_INTERVAL_MS` after every check runs all three sweeps: the
sleep is longer than each interval. -/
theorem due_of_slept {t t' : ℕ} {m : MonitorLoop} (h : m.Before t) (ht : t + monitorIntervalMs ≤ t') :
    m.due t' = (true, true, true) := by
  obtain ⟨h1, h2, h3⟩ := h
  simp only [monitorIntervalMs] at ht
  simp only [due, latencyTestIntervalMs, bandwidthTestIntervalMs, connectionCheckIntervalMs,
    Prod.mk.injEq, decide_eq_true_eq]
  exact ⟨by omega, by omega, by omega⟩

/-- **Every pass after the first runs all three sweeps**, on every run whose first pass
begins no earlier than the three checks and whose passes begin at least
`MONITOR_INTERVAL_MS` apart. -/
theorem dueLog_tail : ∀ (ts : List ℕ) (m : MonitorLoop), (∀ t ∈ ts.head?, m.Before t) →
    ts.Chain' (fun t t' => t + monitorIntervalMs ≤ t') →
    ∀ d ∈ (dueLog ts m).tail, d = (true, true, true)
  | [], _, _, _ => by simp [dueLog]
  | [_], _, _, _ => by simp [dueLog]
  | t :: t' :: ts, m, hstart, hsleep => by
    rw [List.chain'_cons] at hsleep
    have hb := (hstart t rfl).stamp
    have ih := dueLog_tail (t' :: ts) (m.stamp t)
      (fun _ h => Option.some_inj.1 h ▸ hb.mono (by have := hsleep.1; omega)) hsleep.2
    simp only [dueLog, List.tail_cons, List.mem_cons] at ih ⊢
    rintro d (rfl | hd)
    · exact due_of_slept hb hsleep.1
    · exact ih d hd

end MonitorLoop

end BrokerMonitorThread

end PahoMqtt
