import PahoMqtt.Registry.Invariant
/-!
# The monitor's registry updates

What `measure_latency`, `measure_bandwidth` and `check_connection_count` of
`BrokerMonitorThread` do to the registry once their probe has returned or thrown. The probe
(`calculate_latency`, `calculate_bandwidth`, `get_connection_count`, each over an ephemeral
client) is an oracle here: `some v` is the value it returned, `none` an exception.

On success the three share one path, `updateFromSnapshot`: read the record's other two
metrics from a snapshot, write all three back through `update_broker_metrics`, and call
`on_metrics_updated_`. On failure the first two mark the broker unavailable and the third
only logs. Nothing here sets `is_available` back: a probe that succeeds on an unavailable
broker leaves it unavailable, with score `0` (`updateFromSnapshot_unavailable`).
-/

namespace PahoMqtt

namespace BrokerMonitorThread

variable {K : Type} [LinearOrderedField K]

/-- The success path of the three measurements: find the record in a snapshot
(`get_all_brokers`), merge the fresh value into its metrics, and write them back. The flag
says whether `on_metrics_updated_` is called, which is when the URI is still registered. -/
def updateFromSnapshot (now : ℕ) (uri : String) (merge : BrokerInfo K → K × K × ℤ)
    (r : BrokerListManager K) : BrokerListManager K × Bool :=
  match r.brokers.find? (·.uri = uri) with
  | some b => (r.updateBrokerMetrics now uri (merge b).1 (merge b).2.1 (merge b).2.2, true)
  | none => (r, false)

/-- `measure_latency`: a thrown probe marks the broker unavailable. -/
def measureLatency (now : ℕ) (uri : String) (result : Option K) (r : BrokerListManager K) :
    BrokerListManager K × Bool :=
  match result with
  | some latency => updateFromSnapshot now uri (fun b => (latency, b.bandwidth, b.connectionCount)) r
  | none => (r.markBrokerUnavailable uri, false)

/-- `measure_bandwidth`: a thrown probe marks the broker unavailable. -/
def measureBandwidth (now : ℕ) (uri : String) (result : Option K) (r : BrokerListManager K) :
    BrokerListManager K × Bool :=
  match result with
  | some bandwidth => updateFromSnapshot now uri (fun b => (b.latency, bandwidth, b.connectionCount)) r
  | none => (r.markBrokerUnavailable uri, false)

/-- `check_connection_count`: a thrown probe is only logged (the `$SYS` topic is optional). -/
def checkConnectionCount (now : ℕ) (uri : String) (result : Option ℤ) (r : BrokerListManager K) :
    BrokerListManager K × Bool :=
  match result with
  | some count => updateFromSnapshot now uri (fun b => (b.latency, b.bandwidth, count)) r
  | none => (r, false)

theorem inv_updateFromSnapshot {r : BrokerListManager K} (h : r.Inv) (now : ℕ) (uri : String)
    (merge : BrokerInfo K → K × K × ℤ) : (updateFromSnapshot now uri merge r).1.Inv := by
  unfold updateFromSnapshot
  split
  · exact h.apply (.updateBrokerMetrics _ _ _ _ _)
  · exact h

/-- **A successful probe does not bring a broker back.** If every record with this URI is
unavailable, so is every one after the update, and its score is `0`. -/
theorem updateFromSnapshot_unavailable {r : BrokerListManager K} (h : r.Inv) (now : ℕ)
    {uri : String} (merge : BrokerInfo K → K × K × ℤ)
    (hu : ∀ b ∈ r.brokers, b.uri = uri → b.isAvailable = false) :
    ∀ b ∈ (updateFromSnapshot now uri merge r).1.brokers, b.uri = uri →
      b.isAvailable = false ∧ b.score = 0 := by
  have hinv := inv_updateFromSnapshot h now uri merge
  have havail : ∀ b ∈ (updateFromSnapshot now uri merge r).1.brokers, b.uri = uri →
      b.isAvailable = false := by
    unfold updateFromSnapshot
    split
    · exact BrokerListManager.forall_updateFirst hu fun b hb => by
        simpa [BrokerInfo.updateScore] using hu b hb
    · exact hu
  exact fun b hb hbu => ⟨havail b hb hbu, (hinv.sound b hb).2 (havail b hb hbu)⟩

end BrokerMonitorThread

end PahoMqtt
