import PahoMqtt.Manager.Step
import PahoMqtt.Registry.Edit
/-!
# The manager's registry along runs

What the manager does to its registry is, step by step, an operation of the registry or a
sequence of them (`step_cases`). So the registry of every reachable manager is a reachable
registry (`brokerManager_reachable`), and what is proved of reachable registries holds of
it.

The manager calls `mark_broker_unavailable` on every broker whose connect fails and on
every broker whose latency or bandwidth probe throws, and nothing it runs calls
`mark_broker_available`: `update_broker_metrics`, where a successful probe ends, keeps
`is_available` as it was. So the calls the manager makes on its own registry only take
brokers out of the available snapshot (`availableBrokerUris_sublist_of_touched`). Apart
from the two edits that add records (`add_broker` and `set_brokers`), every step of the
manager can only shrink the snapshot, to a sublist of what it was
(`availableBrokerUris_step_sublist`), and so can every run made of such steps
(`availableBrokerUris_run_sublist`). A broker that failed once is out of every later
`connect` and every later swap, however well its probes go.

`set_brokers` clears the registry and adds each URI in turn, so it leaves fresh records for
the first occurrence of each URI, in order, with the first current
(`setBrokers_brokerManager`).
-/

namespace PahoMqtt

namespace BrokerListManager

variable {K : Type} [LinearOrderedField K]

/-- The manager's calls are operations of the registry, so they keep it reachable. -/
theorem Touched.reachable {r r' : BrokerListManager K} (h : Touched r r') (hr : Reachable r) :
    Reachable r' := by
  induction h with
  | refl => exact hr
  | mark uri _ ih => exact .step (.markBrokerUnavailable uri) ih
  | setCurrent uri _ ih => exact .step (.setCurrentBroker uri) ih
  | update now uri l b c _ ih => exact .step (.updateBrokerMetrics now uri l b c) ih

/-- `set_brokers` is `clear_brokers` and then `add_broker` of each URI, operations of the
registry. -/
theorem reachable_setBrokers {r : BrokerListManager K} (hr : Reachable r) (now : ℕ)
    (uris : List String) : Reachable (uris.foldl (fun r uri => r.addBroker now uri) r.clearBrokers) := by
  suffices ∀ r', Reachable r' → Reachable (uris.foldl (fun r uri => r.addBroker now uri) r') from
    this _ (.step .clearBrokers hr)
  induction uris with
  | nil => exact fun _ h => h
  | cons uri uris ih => exact fun r' h => ih _ (.step (.addBroker now uri) h)

end BrokerListManager

namespace SelfAdaptiveMqttManager

open BrokerListManager
open scoped List

variable {K : Type} [LinearOrderedField K]

/-! ## The registry is a registry run -/

theorem reachable_step_brokerManager {e : Event K} {s s' : SelfAdaptiveMqttManager K}
    (h : step e s = some s') (hs : BrokerListManager.Reachable s.brokerManager) :
    BrokerListManager.Reachable s'.brokerManager := by
  rcases step_cases h with ⟨now, uri, -, rfl⟩ | ⟨uri, -, rfl⟩ | ⟨now, uris, -, rfl⟩ | ⟨o, m, -, rfl⟩ |
    ⟨-, ht⟩
  · exact .step (.addBroker now uri) hs
  · exact .step (.removeBroker uri) hs
  · exact reachable_setBrokers hs now uris
  · simpa using hs
  · exact ht.touched.reachable hs

theorem reachable_run_brokerManager {es : List (Event K)} {s s' : SelfAdaptiveMqttManager K}
    (h : run es s = some s') (hs : BrokerListManager.Reachable s.brokerManager) :
    BrokerListManager.Reachable s'.brokerManager := by
  induction es generalizing s with
  | nil => cases h; exact hs
  | cons e es ih =>
    obtain ⟨t, ht, h⟩ := run_cons_eq_some.1 h
    exact ih h (reachable_step_brokerManager ht hs)

/-- **The manager's registry is a registry run.** The registry of every reachable manager
is one that the registry's own operations reach from its constructor, so every fact of
reachable registries holds of it. -/
theorem brokerManager_reachable {s : SelfAdaptiveMqttManager K} (h : Reachable s) :
    BrokerListManager.Reachable s.brokerManager := by
  obtain ⟨category, es, hr⟩ := h
  exact reachable_run_brokerManager hr (.init category)

/-- A new manager given one broker. -/
theorem brokerManager_reachable_setBrokers :
    Reachable ((init "sensor" : SelfAdaptiveMqttManager ℚ).setBrokers 0 ["tcp://a"]) ∧
    BrokerListManager.Reachable ((init "sensor" : SelfAdaptiveMqttManager ℚ).setBrokers 0
      ["tcp://a"]).brokerManager :=
  have h : Reachable ((init "sensor" : SelfAdaptiveMqttManager ℚ).setBrokers 0 ["tcp://a"]) :=
    ⟨"sensor", [.setBrokers 0 ["tcp://a"]], rfl⟩
  ⟨h, brokerManager_reachable h⟩

/-- **`set_brokers` replaces the registry** by fresh records (no metrics, score `0`,
available) for the first occurrence of each URI, in order, and makes the first URI
current. -/
theorem setBrokers_brokerManager (now : ℕ) (uris : List String) (s : SelfAdaptiveMqttManager K) :
    (s.setBrokers now uris).brokerManager.getBrokerUris = uris.eraseDups ∧
    (s.setBrokers now uris).brokerManager.brokers = uris.eraseDups.map (BrokerInfo.init · now) ∧
    (s.setBrokers now uris).brokerManager.getCurrentBroker =
      uris.head?.map (BrokerInfo.init · now) := by
  obtain ⟨hb, hi⟩ := BrokerListManager.foldl_addBroker_clearBrokers now uris s.brokerManager
  refine ⟨?_, hb, ?_⟩
  · simp [setBrokers, BrokerListManager.getBrokerUris, hb, Function.comp_def, BrokerInfo.init]
  · simp only [setBrokers, BrokerListManager.getCurrentBroker, hb, hi, List.getElem?_map,
      ← List.head?_eq_getElem?, List.head?_map, BrokerListManager.head?_eraseDups]

/-! ## No step brings a broker back -/

omit [LinearOrderedField K] in
/-- A loop that rewrites one record, keeping its URI and its flag, keeps the snapshot. -/
theorem availableBrokerUris_updateFirst {r : BrokerListManager K} {uri : String}
    {f : BrokerInfo K → BrokerInfo K} (hu : ∀ b, (f b).uri = b.uri)
    (ha : ∀ b, (f b).isAvailable = b.isAvailable) :
    availableBrokerUris { r with brokers := updateFirst uri f r.brokers } =
      availableBrokerUris r := by
  obtain ⟨l, i, c⟩ := r
  simp only [availableBrokerUris]
  induction l with
  | nil => rfl
  | cons b l ih =>
    unfold updateFirst
    split <;> cases hb : b.isAvailable <;> simp_all [List.filter_cons]

theorem availableBrokerUris_updateBrokerMetrics (now : ℕ) (uri : String) (l bw : K) (c : ℤ)
    (r : BrokerListManager K) :
    availableBrokerUris (r.updateBrokerMetrics now uri l bw c) = availableBrokerUris r :=
  availableBrokerUris_updateFirst (fun _ => rfl) fun _ => rfl

theorem availableBrokerUris_markBrokerUnavailable_sublist (uri : String) (r : BrokerListManager K) :
    availableBrokerUris (r.markBrokerUnavailable uri) <+ availableBrokerUris r := by
  obtain ⟨l, i, c⟩ := r
  simp only [availableBrokerUris, markBrokerUnavailable]
  induction l with
  | nil => exact .slnil
  | cons b l ih =>
    unfold updateFirst
    split <;> cases hb : b.isAvailable <;> simp [List.filter_cons, hb, ih]

omit [LinearOrderedField K] in
theorem availableBrokerUris_removeBroker_sublist (uri : String) (r : BrokerListManager K) :
    availableBrokerUris (r.removeBroker uri) <+ availableBrokerUris r := by
  unfold removeBroker
  split
  · exact .refl _
  · exact ((List.eraseIdx_sublist _ _).filter _).map _

omit [LinearOrderedField K] in
@[simp] theorem availableBrokerUris_setCurrentBroker (uri : String) (r : BrokerListManager K) :
    availableBrokerUris (r.setCurrentBroker uri).2 = availableBrokerUris r := by
  simp [availableBrokerUris]

/-- **The manager's own calls only take brokers out of the snapshot.** -/
theorem availableBrokerUris_sublist_of_touched {r r' : BrokerListManager K} (h : Touched r r') :
    availableBrokerUris r' <+ availableBrokerUris r := by
  induction h with
  | refl => exact .refl _
  | mark uri _ ih => exact (availableBrokerUris_markBrokerUnavailable_sublist uri _).trans ih
  | setCurrent uri _ ih => simpa using ih
  | update now uri l b c _ ih => rwa [availableBrokerUris_updateBrokerMetrics]

/-- The two steps that add records: `add_broker` and `set_brokers`. -/
def Event.addsBrokers : Event K → Bool
  | .addBroker _ _ | .setBrokers _ _ => true
  | _ => false

/-- **Every other step only shrinks the available snapshot**, to a sublist of what it was. -/
theorem availableBrokerUris_step_sublist {e : Event K} (he : e.addsBrokers = false)
    {s s' : SelfAdaptiveMqttManager K} (h : step e s = some s') :
    availableBrokerUris s'.brokerManager <+ availableBrokerUris s.brokerManager := by
  rcases step_cases h with ⟨_, _, rfl, -⟩ | ⟨uri, -, rfl⟩ | ⟨_, _, rfl, -⟩ | ⟨o, m, -, rfl⟩ | ⟨-, ht⟩
  · cases he
  · exact availableBrokerUris_removeBroker_sublist uri _
  · cases he
  · simp
  · exact availableBrokerUris_sublist_of_touched ht.touched

/-- **No run without added records brings a broker back**: its available snapshot at the
end is a sublist of the one at its start. -/
theorem availableBrokerUris_run_sublist {es : List (Event K)}
    (hes : ∀ e ∈ es, e.addsBrokers = false) {s s' : SelfAdaptiveMqttManager K}
    (h : run es s = some s') :
    availableBrokerUris s'.brokerManager <+ availableBrokerUris s.brokerManager := by
  induction es generalizing s with
  | nil => cases h; exact .refl _
  | cons e es ih =>
    obtain ⟨t, ht, h⟩ := run_cons_eq_some.1 h
    exact (ih (fun e' he' => hes e' (List.mem_cons_of_mem _ he')) h).trans
      (availableBrokerUris_step_sublist (hes e (List.mem_cons_self _ _)) ht)

/-- Two registered brokers, a connect with only `tcp://b` up, and a disconnect. -/
theorem availableBrokerUris_run_sublist_connect :
    let s : SelfAdaptiveMqttManager ℚ := (init "sensor").setBrokers 0 ["tcp://a", "tcp://b"]
    let es : List (Event ℚ) := [.connect (onlyUp "tcp://b"), .disconnect]
    (∀ e ∈ es, e.addsBrokers = false) ∧ run es s = some (s.connect (onlyUp "tcp://b")).2.disconnect ∧
    availableBrokerUris (s.connect (onlyUp "tcp://b")).2.disconnect.brokerManager <+
      availableBrokerUris s.brokerManager :=
  ⟨by decide, rfl, @availableBrokerUris_run_sublist ℚ _ [.connect (onlyUp "tcp://b"), .disconnect]
    (by decide) _ _ rfl⟩

section runs

/- `decide` runs the model over `ℚ`, whose operations are irreducible by default. -/
attribute [local semireducible] Rat.add Rat.mul Rat.inv Rat.sub Rat.ofScientific

/-- One broker, a connect while it is down, then a latency and a bandwidth probe of it
that both succeed, the bandwidth `10240000 / 20` B/s of a 20 ms delivery: its record carries
the new metrics but stays unavailable with score `0`, as any successful probe leaves an
unavailable record (`updateFromSnapshot_unavailable`), and a connect with the broker back up
finds no candidate and tries nothing. -/
theorem successfulProbe_keeps_broker_unavailable :
    ∃ s : SelfAdaptiveMqttManager ℚ, Reachable s ∧
      s.brokerManager.brokers.map (fun b => (b.uri, b.latency, b.bandwidth, b.isAvailable, b.score))
        = [("tcp://a", 10, 512000, false, 0)] ∧
      (s.connect allUp).1 = false ∧ (s.connect allUp).2.attempts = s.attempts := by
  have h := exists_reachable_of_run "sensor"
    ([.setBrokers 0 ["tcp://a"], .connect allDown, .measureLatency allUp 1 "tcp://a" (some 10),
      .measureBandwidth allUp 2 "tcp://a" (some 512000)] : List (Event ℚ))
    (p := fun s =>
      s.brokerManager.brokers.map (fun b => (b.uri, b.latency, b.bandwidth, b.isAvailable, b.score))
        == [("tcp://a", 10, 512000, false, 0)] &&
      !(s.connect allUp).1 && (s.connect allUp).2.attempts == s.attempts)
    (by decide)
  obtain ⟨s, hs, hp⟩ := h
  exact ⟨s, hs, by simpa [and_assoc] using hp⟩

end runs

end SelfAdaptiveMqttManager

end PahoMqtt
