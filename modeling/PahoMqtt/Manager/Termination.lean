import PahoMqtt.Manager.Registry
/-!
# The swap terminates and tries each broker at most once

`handle_connection_failure` calls itself with no bound: each call takes a fresh snapshot
of the available brokers and moves the cursor one on. The model gives the recursion fuel,
and the swap passes the size of the registry; what has to be shown is that the fuel never
cuts the recursion short. The snapshot only shrinks (marking a broker unavailable takes
at most it out) while the cursor grows by one per call, so the snapshot's length past the
cursor falls by at least one per call, and the recursion stops on its own once the fuel
exceeds it (`handleConnectionFailure_fuel_add`). From the state a swap hands to the
fall-through this measure is below the registry's size, so the swap's fuel suffices.

Under unique URIs a swap tries the brokers of a prefix of the walk `switchToBestBroker_eq`
describes, which is a sublist of the available snapshot at its start
(`switchToBestBroker_attempts`): only brokers available when it began, each at most once.

Every write of `is_connecting_` is made under `connection_mutex_` and undone before it is
released, so no swap finds it set: it is clear in every reachable manager
(`isConnecting_of_reachable`), as are unique URIs (`inv_of_reachable`). From such a state
the swap returns with the flag clear (`switchToBestBroker_bounded`).
-/

namespace PahoMqtt

namespace SelfAdaptiveMqttManager

variable {K : Type} [LinearOrderedField K]

/-! ## The fall-through's fuel -/

/-- **One more unit of fuel changes nothing** once the fuel exceeds the snapshot's length
past the cursor. -/
theorem handleConnectionFailure_fuel_succ (o : Oracle) :
    ∀ (fuel : ℕ) (uri : String) (t : SelfAdaptiveMqttManager K),
      (availableBrokerUris t.brokerManager).length - t.currentBrokerTryIndex < fuel →
      handleConnectionFailure o (fuel + 1) uri t = handleConnectionFailure o fuel uri t
  | 0, _, _, h => absurd h (Nat.not_lt_zero _)
  | fuel + 1, uri, t, h => by
    have hsub := (availableBrokerUris_markBrokerUnavailable_sublist uri
      t.brokerManager).length_le
    conv_lhs => unfold handleConnectionFailure
    conv_rhs => unfold handleConnectionFailure
    dsimp only
    split_ifs with _ hi
    · rfl
    · rfl
    · -- the failed try moves the cursor on over a snapshot no longer than before
      exact handleConnectionFailure_fuel_succ o fuel _ _ (by simp; omega)
    · rfl

/-- **The fall-through stops on its own**: past the snapshot's length beyond the cursor,
any further fuel gives the same result. -/
theorem handleConnectionFailure_fuel_add (o : Oracle) {fuel : ℕ} {uri : String}
    {t : SelfAdaptiveMqttManager K}
    (h : (availableBrokerUris t.brokerManager).length - t.currentBrokerTryIndex < fuel) :
    ∀ k, handleConnectionFailure o (fuel + k) uri t = handleConnectionFailure o fuel uri t
  | 0 => rfl
  | k + 1 => (handleConnectionFailure_fuel_succ o (fuel + k) uri t (by omega)).trans
      (handleConnectionFailure_fuel_add o h k)

/-! ## What a swap tries -/

omit [LinearOrderedField K] in
/-- The brokers a walk tries up to its first reachable one are a prefix of the walk. -/
theorem takeWhile_append_isPrefix_of_find {α : Type} {p : α → Bool} :
    ∀ {T : List α} {b : α}, T.find? p = some b → (T.takeWhile (!p ·) ++ [b]).IsPrefix T
  | [], _, h => absurd h (by simp)
  | a :: T, b, h => by
    by_cases ha : p a
    · obtain rfl : a = b := by simpa [List.find?_cons, ha] using h
      simp [ha]
    · have := takeWhile_append_isPrefix_of_find (by simpa [List.find?_cons, ha] using h)
      simpa [ha] using this

/-- A swap entered while connecting returns at once. -/
theorem switchToBestBroker_of_isConnecting (o : Oracle) {s : SelfAdaptiveMqttManager K}
    (h : s.isConnecting = true) : s.switchToBestBroker o = s := by
  simp [switchToBestBroker, h]

/-- **A swap tries a sublist of the available snapshot it starts from**: a prefix of its
walk, which runs over the snapshot from the cursor. -/
theorem switchToBestBroker_attempts (o : Oracle) {s : SelfAdaptiveMqttManager K}
    (hnd : (s.brokerManager.brokers.map (·.uri)).Nodup) :
    ∃ tried, (s.switchToBestBroker o).attempts = s.attempts ++ tried ∧
      tried.Sublist (availableBrokerUris s.brokerManager) := by
  cases hg : s.isConnecting
  · rw [switchToBestBroker_eq o hg hnd]
    dsimp only
    by_cases hL : availableBrokerUris s.brokerManager = []
    · rw [if_pos hL]
      exact ⟨[], by simp, List.nil_sublist _⟩
    · rw [if_neg hL]
      have hT := (everyOther_sublist _).trans (List.drop_sublist
        (wrapTryIndex s.currentBrokerTryIndex (availableBrokerUris s.brokerManager).length)
        (availableBrokerUris s.brokerManager))
      split
      · rename_i b hb
        exact ⟨_, by simp, (takeWhile_append_isPrefix_of_find hb).sublist.trans hT⟩
      · exact ⟨_, rfl, hT⟩
  · exact ⟨[], by rw [switchToBestBroker_of_isConnecting o hg, List.append_nil],
      List.nil_sublist _⟩

/-- **A swap terminates, tries only brokers available when it began, each at most once,
and returns with `is_connecting_` clear.** Take any registry with unique URIs, any cursor
and any oracle, and `is_connecting_` clear, as in every reachable manager. From any state
the swap hands to the fall-through (the same registry, a non-empty snapshot, the cursor past
`0`), the fuel the swap passes is more than the recursion uses: any further fuel gives the
same result. -/
theorem switchToBestBroker_bounded (o : Oracle) {s : SelfAdaptiveMqttManager K}
    (hnd : (s.brokerManager.brokers.map (·.uri)).Nodup) (hc : s.isConnecting = false) :
    (∀ (t : SelfAdaptiveMqttManager K) (uri : String) (k : ℕ),
      t.brokerManager = s.brokerManager → availableBrokerUris s.brokerManager ≠ [] →
      0 < t.currentBrokerTryIndex →
      handleConnectionFailure o (s.brokerManager.brokers.length + k) uri t =
        handleConnectionFailure o s.brokerManager.brokers.length uri t) ∧
    (∃ tried, (s.switchToBestBroker o).attempts = s.attempts ++ tried ∧
      tried.Sublist (availableBrokerUris s.brokerManager) ∧ tried.Nodup ∧
      tried.length ≤ (availableBrokerUris s.brokerManager).length) ∧
    (s.switchToBestBroker o).isConnecting = false := by
  refine ⟨fun t uri k hbm hne hi => handleConnectionFailure_fuel_add o ?_ k, ?_,
    isConnecting_switchToBestBroker o hc⟩
  · have hlen : (availableBrokerUris s.brokerManager).length ≤ s.brokerManager.brokers.length := by
      simpa [availableBrokerUris] using List.length_filter_le _ _
    have hpos := List.length_pos.2 hne
    rw [hbm]
    omega
  · obtain ⟨tried, ha, hsub⟩ := switchToBestBroker_attempts o hnd
    exact ⟨tried, ha, hsub, (nodup_availableBrokerUris hnd).sublist hsub, hsub.length_le⟩

/-- Two brokers, neither reachable: the swap's attempts are a sublist of the snapshot, and
it returns with `is_connecting_` clear. -/
theorem switchToBestBroker_bounded_allDown :
    let s := (init "sensor" : SelfAdaptiveMqttManager ℚ).setBrokers 0 ["tcp://a", "tcp://b"]
    (s.brokerManager.brokers.map (·.uri)).Nodup ∧ s.isConnecting = false ∧
      (∃ tried, (s.switchToBestBroker allDown).attempts = s.attempts ++ tried ∧
        tried.Sublist (availableBrokerUris s.brokerManager) ∧ tried.Nodup ∧
        tried.length ≤ (availableBrokerUris s.brokerManager).length) ∧
      (s.switchToBestBroker allDown).isConnecting = false :=
  have hnd : (((init "sensor" : SelfAdaptiveMqttManager ℚ).setBrokers 0
      ["tcp://a", "tcp://b"]).brokerManager.brokers.map (·.uri)).Nodup := by decide
  ⟨hnd, rfl, (switchToBestBroker_bounded allDown hnd rfl).2⟩

end SelfAdaptiveMqttManager

end PahoMqtt
