import PahoMqtt.Manager.Basic
/-!
# The initial connect

`connect` snapshots the available brokers once and walks the snapshot in registration
order, marking each broker that fails unavailable, until one connects.
`connectFrom_eq` says in one equation what the walk does from any suffix of the
snapshot. From it, `connect_spec` states what a connect does: the brokers attempted are
the available ones up to the first reachable one, the call succeeds exactly when one is
reachable, the first reachable one becomes current, and the registry changes only by the
failed brokers being marked.
-/

namespace PahoMqtt

namespace BrokerListManager

variable {K : Type} [LinearOrderedField K]

/-- `mark_broker_unavailable` on each URI of a list, in order. -/
def markAll (us : List String) (r : BrokerListManager K) : BrokerListManager K :=
  us.foldl (fun r u => r.markBrokerUnavailable u) r

@[simp] theorem markAll_nil (r : BrokerListManager K) : markAll [] r = r := rfl

theorem markAll_cons (u : String) (us : List String) (r : BrokerListManager K) :
    markAll (u :: us) r = markAll us (r.markBrokerUnavailable u) := rfl

@[simp] theorem map_uri_markAll (us : List String) (r : BrokerListManager K) :
    (markAll us r).brokers.map (·.uri) = r.brokers.map (·.uri) := by
  induction us generalizing r with
  | nil => rfl
  | cons u us ih => rw [markAll_cons, ih, map_uri_markBrokerUnavailable]

/-- **Under unique URIs, marking a list marks exactly its records**, and touches neither
the index nor the category. -/
theorem markAll_eq (us : List String) {r : BrokerListManager K}
    (hnd : (r.brokers.map (·.uri)).Nodup) :
    markAll us r = { r with brokers := r.brokers.map fun b =>
      if b.uri ∈ us then b.markUnavailable else b } := by
  induction us generalizing r with
  | nil => simp
  | cons u us ih =>
    have hnd' : ((r.markBrokerUnavailable u).brokers.map (·.uri)).Nodup := by
      rwa [map_uri_markBrokerUnavailable]
    rw [markAll_cons, ih hnd']
    simp only [markBrokerUnavailable, updateFirst_eq_map hnd, List.map_map, mk.injEq, true_and,
      and_true]
    refine List.map_congr_left fun b _ => ?_
    by_cases hb : b.uri = u
    · simp [hb, BrokerInfo.markUnavailable]
    · simp [hb]

omit [LinearOrderedField K] in
/-- `set_current_broker` of a registered URI makes it the current URI. -/
theorem getCurrentBrokerUri_setCurrentBroker {r : BrokerListManager K} {uri : String}
    (h : uri ∈ r.brokers.map (·.uri)) : (r.setCurrentBroker uri).2.getCurrentBrokerUri = uri := by
  obtain ⟨b, hb, rfl⟩ := List.mem_map.1 h
  have hex : ∃ x, x ∈ r.brokers ∧ decide (x.uri = b.uri) = true := ⟨b, hb, by simp⟩
  have hi := List.findIdx?_eq_some_of_exists hex
  obtain ⟨hlt, hp, -⟩ := List.findIdx?_eq_some_iff_getElem.1 hi
  simp only [setCurrentBroker, hi, getCurrentBrokerUri, getCurrentBroker, List.getElem?_eq_getElem hlt]
  simpa using hp

end BrokerListManager

namespace SelfAdaptiveMqttManager

open BrokerListManager

variable {K : Type} [LinearOrderedField K]

/-- **The walk of `connect`, in one equation.** From the suffix `us` of the snapshot, at
position `i`: the brokers before the first reachable one fail and are marked; the first
reachable one is connected at position `i` plus their number; with none reachable,
every one is marked and the connecting flag is cleared. -/
theorem connectFrom_eq (o : Oracle) (us : List String) (i : ℕ) (s : SelfAdaptiveMqttManager K) :
    connectFrom o us i s =
      match us.find? o.reach with
      | some b => (true, completeConnection o b (i + (us.takeWhile (!o.reach ·)).length)
          { s with client := some ⟨b, .connected⟩,
                   attempts := s.attempts ++ us.takeWhile (!o.reach ·) ++ [b],
                   brokerManager := markAll (us.takeWhile (!o.reach ·)) s.brokerManager })
      | none => (false,
          { s with client := (us.getLast?.map (⟨·, .failed⟩)).or s.client,
                   isConnecting := false, attempts := s.attempts ++ us,
                   brokerManager := markAll us s.brokerManager }) := by
  induction us generalizing i s with
  | nil => simp [connectFrom]
  | cons u us ih =>
    by_cases hu : o.reach u
    · simp [connectFrom, tryConnectToBroker, hu, List.find?_cons, List.takeWhile_cons]
    · simp only [connectFrom, tryConnectToBroker, hu, Bool.false_eq_true, ↓reduceIte, ih,
        List.find?_cons, List.takeWhile_cons, Bool.not_false, List.length_cons, markAll_cons,
        List.getLast?_cons]
      cases hf : us.find? o.reach with
      | some b => simp [Nat.add_assoc, Nat.add_comm 1]
      | none => cases us.getLast? <;> simp

/-- From an idle manager, `connect` is the walk from the whole snapshot; on an empty one
the walk returns at once, as `connect`'s own early return does. -/
theorem connect_eq_connectFrom (o : Oracle) {s : SelfAdaptiveMqttManager K}
    (hc : s.isConnected = false) (hg : s.isConnecting = false) :
    s.connect o = connectFrom o (availableBrokerUris s.brokerManager) 0
      { s with isConnecting := true } := by
  unfold connect
  simp only [hc, hg, Bool.false_eq_true, or_self, ↓reduceIte]
  split
  · rename_i h
    rw [List.isEmpty_iff.1 h]
    rfl
  · rfl

omit [LinearOrderedField K] in
/-- Under unique URIs a record's URI is in the snapshot exactly when it is available. -/
theorem mem_availableBrokerUris {r : BrokerListManager K} (hnd : (r.brokers.map (·.uri)).Nodup)
    {x : BrokerInfo K} (hx : x ∈ r.brokers) : x.uri ∈ availableBrokerUris r ↔ x.isAvailable := by
  simp only [availableBrokerUris, List.mem_map, List.mem_filter]
  constructor
  · rintro ⟨y, ⟨hy, hya⟩, hyx⟩
    rwa [← List.inj_on_of_nodup_map hnd hy hx hyx]
  · exact fun h => ⟨x, ⟨hx, h⟩, rfl⟩

omit [LinearOrderedField K] in
theorem mem_uris_of_mem_availableBrokerUris {r : BrokerListManager K} {u : String}
    (h : u ∈ availableBrokerUris r) : u ∈ r.brokers.map (·.uri) := by
  simp only [availableBrokerUris, List.mem_map, List.mem_filter] at h ⊢
  obtain ⟨y, ⟨hy, -⟩, rfl⟩ := h
  exact ⟨y, hy, rfl⟩

/-- **`connect` from an idle manager** walks the brokers available at its start in
registration order and stops at the first reachable one, returning whether there is
one. On success that broker is current, the manager is connected, and exactly the
available brokers registered before it have been marked unavailable; on failure exactly
the available brokers have been, and nothing else of the registry has moved. Either way
the connecting flag is clear. -/
theorem connect_spec (o : Oracle) {s : SelfAdaptiveMqttManager K} (hc : s.isConnected = false)
    (hg : s.isConnecting = false) (hnd : (s.brokerManager.brokers.map (·.uri)).Nodup) :
    let uris := availableBrokerUris s.brokerManager
    let tried := uris.takeWhile (!o.reach ·)
    (s.connect o).2.isConnecting = false ∧ (s.connect o).1 = uris.any o.reach ∧
    (∀ b, uris.find? o.reach = some b →
      (s.connect o).2.attempts = s.attempts ++ tried ++ [b] ∧
      (s.connect o).2.isConnected = true ∧ (s.connect o).2.getCurrentBrokerUri = b ∧
      (s.connect o).2.brokerManager.brokers = s.brokerManager.brokers.map fun x =>
        if x.uri ∈ tried then x.markUnavailable else x) ∧
    (uris.find? o.reach = none →
      (s.connect o).2.attempts = s.attempts ++ uris ∧ (s.connect o).2.isConnected = false ∧
      (s.connect o).2.brokerManager =
        { s.brokerManager with
          brokers := s.brokerManager.brokers.map fun x =>
            if x.isAvailable then x.markUnavailable else x }) := by
  intro uris tried
  rw [connect_eq_connectFrom o hc hg, connectFrom_eq]
  cases hf : uris.find? o.reach with
  | some b =>
    dsimp only
    have hb : b ∈ s.brokerManager.brokers.map (·.uri) :=
      mem_uris_of_mem_availableBrokerUris (List.mem_of_find?_eq_some hf)
    refine ⟨rfl, ?_, fun b' hb' => ?_, fun h => absurd h (by simp)⟩
    · exact (List.any_eq_true.2 ⟨b, List.mem_of_find?_eq_some hf, List.find?_some hf⟩).symm
    · obtain rfl : b = b' := Option.some.inj hb'
      refine ⟨rfl, rfl, ?_, ?_⟩
      · exact getCurrentBrokerUri_setCurrentBroker (by rwa [map_uri_markAll])
      · simp [completeConnection, resendQueuedMessages, markAll_eq _ hnd, tried]
  | none =>
    dsimp only
    refine ⟨rfl, ?_, fun _ h => absurd h (by simp), fun _ => ⟨rfl, hc, ?_⟩⟩
    · simpa [List.any_eq_false] using List.find?_eq_none.1 hf
    · rw [markAll_eq _ hnd]
      congr 1
      exact List.map_congr_left fun x hx => by
        simp only [mem_availableBrokerUris hnd hx, uris]

/-- A new manager given two brokers, connecting while the first is down. -/
theorem connect_spec_second_up :
    let s : SelfAdaptiveMqttManager ℚ := (init "sensor").setBrokers 0 ["tcp://a", "tcp://b"]
    let o : Oracle := ⟨(· = "tcp://b"), fun _ => true⟩
    let uris := availableBrokerUris s.brokerManager
    let tried := uris.takeWhile (!o.reach ·)
    s.isConnected = false ∧ s.isConnecting = false ∧ (s.brokerManager.brokers.map (·.uri)).Nodup ∧
    ((s.connect o).2.isConnecting = false ∧ (s.connect o).1 = uris.any o.reach ∧
    (∀ b, uris.find? o.reach = some b →
      (s.connect o).2.attempts = s.attempts ++ tried ++ [b] ∧
      (s.connect o).2.isConnected = true ∧ (s.connect o).2.getCurrentBrokerUri = b ∧
      (s.connect o).2.brokerManager.brokers = s.brokerManager.brokers.map fun x =>
        if x.uri ∈ tried then x.markUnavailable else x) ∧
    (uris.find? o.reach = none →
      (s.connect o).2.attempts = s.attempts ++ uris ∧ (s.connect o).2.isConnected = false ∧
      (s.connect o).2.brokerManager =
        { s.brokerManager with
          brokers := s.brokerManager.brokers.map fun x =>
            if x.isAvailable then x.markUnavailable else x })) :=
  ⟨rfl, rfl, by decide, connect_spec _ rfl rfl (by decide)⟩

end SelfAdaptiveMqttManager

end PahoMqtt
