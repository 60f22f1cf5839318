import PahoMqtt.Manager.Connect
/-!
# Swaps and the fall-through

`switch_to_best_broker` is entered from `connection_lost` (after `is_connected_` is
cleared) and from a monitor update that the registry advises acting on (with
`is_connected_` as it was). It destroys the client, tries the broker under
`current_broker_try_index_` in the available snapshot, and on failure falls through
`handle_connection_failure`, which marks the failed broker unavailable, takes a fresh
snapshot, moves the cursor one on, and tries again.

Each failure both shortens the next snapshot by one and moves the cursor by one, so the
two moves add up: from the cursor a swap tries every other available broker
(`everyOther`), and stops at the first reachable one. `handleConnectionFailure_eq` and
`switchToBestBroker_eq` say this in one equation each; scores play no part.
`switchToBestBroker_cases` needs no hypothesis at all: a swap leaves the manager as it
was, or ends connected through a live client, or ends with `is_connected_` as it found it
and no live client, so a swap begun while connected that fails leaves the manager
reporting a connection it does not have.
-/

namespace PahoMqtt

/-- Every other element of a list, from its first: the order in which a swap walks the
available snapshot from its cursor. -/
def everyOther {α : Type} : List α → List α
  | [] => []
  | [a] => [a]
  | a :: _ :: l => a :: everyOther l

section everyOther

variable {α : Type}

@[simp] theorem everyOther_nil : everyOther ([] : List α) = [] := rfl

theorem everyOther_cons (a : α) (l : List α) : everyOther (a :: l) = a :: everyOther (l.drop 1) := by
  cases l <;> rfl

theorem everyOther_sublist : ∀ l : List α, (everyOther l).Sublist l
  | [] => .slnil
  | [_] => .refl _
  | a :: _ :: l => ((everyOther_sublist l).cons _).cons₂ a

end everyOther

/-! ## Networks for the runs below -/

/-- A network where every connect and every publish succeeds. -/
def allUp : Oracle := ⟨fun _ => true, fun _ => true⟩

/-- A network where every connect fails. -/
def allDown : Oracle := ⟨fun _ => false, fun _ => true⟩

/-- A network where only the broker at `uri` accepts connections. -/
def onlyUp (uri : String) : Oracle := ⟨(· == uri), fun _ => true⟩

namespace SelfAdaptiveMqttManager

open BrokerListManager

variable {K : Type} [LinearOrderedField K]

section fields

omit [LinearOrderedField K]

variable (o : Oracle) (uri : String) (i : ℕ) (s : SelfAdaptiveMqttManager K)

@[simp] theorem completeConnection_isConnected : (s.completeConnection o uri i).isConnected = true :=
  rfl
@[simp] theorem completeConnection_isConnecting :
    (s.completeConnection o uri i).isConnecting = false := rfl
@[simp] theorem completeConnection_client : (s.completeConnection o uri i).client = s.client := rfl
@[simp] theorem completeConnection_attempts :
    (s.completeConnection o uri i).attempts = s.attempts := rfl
@[simp] theorem completeConnection_brokerManager :
    (s.completeConnection o uri i).brokerManager = (s.brokerManager.setCurrentBroker uri).2 := rfl

theorem nodup_availableBrokerUris {r : BrokerListManager K} (hnd : (r.brokers.map (·.uri)).Nodup) :
    (availableBrokerUris r).Nodup :=
  hnd.sublist ((List.filter_sublist _).map _)

end fields

/-! ## What any swap can do -/

/-- **The fall-through ends connected through a live client, or as it found the
connection**, with no live client, when it starts with none. -/
theorem handleConnectionFailure_cases (o : Oracle) (fuel : ℕ) (uri : String)
    {s : SelfAdaptiveMqttManager K} (h : s.clientUp = false) :
    ((handleConnectionFailure o fuel uri s).isConnected = true ∧
      (handleConnectionFailure o fuel uri s).clientUp = true) ∨
    ((handleConnectionFailure o fuel uri s).isConnected = s.isConnected ∧
      (handleConnectionFailure o fuel uri s).clientUp = false) := by
  induction fuel generalizing uri s with
  | zero => exact .inr ⟨rfl, h⟩
  | succ fuel ih =>
    unfold handleConnectionFailure
    dsimp only
    split
    · exact .inr ⟨rfl, h⟩
    · split
      · split
        · exact .inl ⟨rfl, by simp_all [clientUp]⟩
        · exact ih _ (by simp_all [clientUp])
      · exact .inr ⟨rfl, h⟩

/-- **What a swap can do.** It returns at once while connecting; otherwise it ends
connected through a live client, or with `is_connected_` as it found it and no live
client. -/
theorem switchToBestBroker_cases (o : Oracle) (s : SelfAdaptiveMqttManager K) :
    s.switchToBestBroker o = s ∨
    ((s.switchToBestBroker o).isConnected = true ∧ (s.switchToBestBroker o).clientUp = true) ∨
    ((s.switchToBestBroker o).isConnected = s.isConnected ∧
      (s.switchToBestBroker o).clientUp = false) := by
  unfold switchToBestBroker
  split
  · exact .inl rfl
  · dsimp only
    split
    · exact .inr (.inr ⟨rfl, rfl⟩)
    · split
      · exact .inr (.inl ⟨rfl, by simp_all [clientUp]⟩)
      · exact .inr (handleConnectionFailure_cases o _ _ (by simp_all [clientUp]))

section runs

/- `decide` runs the model over `ℚ`, whose operations are irreducible by default. -/
attribute [local semireducible] Rat.add Rat.mul Rat.inv Rat.sub Rat.ofScientific

/-- Two brokers, a connect, and a latency probe that puts `tcp://b` more than `0.1` ahead
of the current `tcp://a`: the monitor's callback starts a swap. -/
def advisedSwapRun : List (Event ℚ) :=
  [.setBrokers 0 ["tcp://a", "tcp://b"], .connect allUp, .measureLatency allUp 1 "tcp://b" (some 10)]

/-- After the advised swap, a second probe advises it again while no broker accepts
connections: the swap fails, and the idle manager still reports a connection while its
client is the failed attempt on `tcp://a`. -/
theorem failedSwap_reports_connected :
    ∃ s : SelfAdaptiveMqttManager ℚ, Reachable s ∧ s.isConnecting = false ∧
      s.isConnected = true ∧ s.client = some ⟨"tcp://a", .failed⟩ := by
  obtain ⟨s, hs, hp⟩ := exists_reachable_of_run "sensor"
    (advisedSwapRun ++ [.measureLatency allDown 2 "tcp://b" (some 10)])
    (p := fun s => !s.isConnecting && s.isConnected && s.client == some ⟨"tcp://a", .failed⟩)
    (by decide)
  exact ⟨s, hs, by simpa [and_assoc] using hp⟩

end runs

/-! ## The walk of a swap -/

/-- **Marking a broker takes exactly its URI out of the snapshot**, under unique URIs. -/
theorem availableBrokerUris_markBrokerUnavailable (f : String) {r : BrokerListManager K}
    (hnd : (r.brokers.map (·.uri)).Nodup) :
    availableBrokerUris (r.markBrokerUnavailable f) = (availableBrokerUris r).erase f := by
  obtain ⟨l, i, c⟩ := r
  simp only [availableBrokerUris, markBrokerUnavailable] at hnd ⊢
  induction l with
  | nil => rfl
  | cons b l ih =>
    simp only [List.map_cons, List.nodup_cons] at hnd
    by_cases hb : b.uri = f
    · subst hb
      have hl : b.uri ∉ (l.filter (·.isAvailable)).map (·.uri) :=
        fun h => hnd.1 (((List.filter_sublist _).map _).subset h)
      cases hav : b.isAvailable <;>
        simp [updateFirst, hav, BrokerInfo.markUnavailable, List.erase_of_not_mem hl]
    · cases hav : b.isAvailable <;> simp [updateFirst, hb, hav, ih hnd.2]

/-- **The fall-through, in one equation.** Under unique URIs, say the snapshot is
`A ++ f :: B` with the failed broker `f` just left of the cursor. Then
`handle_connection_failure(f)` takes `f` out and tries every other broker of `B` from its
second, `everyOther (B.drop 1)`, stopping at the first reachable one. With nothing left
in the snapshot it returns at once; having found no reachable broker, it resets the cursor
and clears the connecting flag. -/
theorem handleConnectionFailure_eq (o : Oracle) {fuel : ℕ} {s : SelfAdaptiveMqttManager K}
    (hnd : (s.brokerManager.brokers.map (·.uri)).Nodup) {A B : List String} {f : String}
    (hav : availableBrokerUris s.brokerManager = A ++ f :: B)
    (hcur : s.currentBrokerTryIndex = A.length + 1) (hfuel : B.length < fuel) :
    handleConnectionFailure o fuel f s =
      if A ++ B = [] then { s with brokerManager := s.brokerManager.markBrokerUnavailable f }
      else match (everyOther (B.drop 1)).find? o.reach with
      | some b => completeConnection o b 0
          { s with client := some ⟨b, .connected⟩,
                   attempts := s.attempts ++ (everyOther (B.drop 1)).takeWhile (!o.reach ·) ++ [b],
                   brokerManager :=
                     markAll (f :: (everyOther (B.drop 1)).takeWhile (!o.reach ·)) s.brokerManager }
      | none =>
          { s with client := ((everyOther (B.drop 1)).getLast?.map (⟨·, .failed⟩)).or s.client,
                   attempts := s.attempts ++ everyOther (B.drop 1),
                   brokerManager := markAll (f :: everyOther (B.drop 1)) s.brokerManager,
                   currentBrokerTryIndex := 0, isConnecting := false } := by
  induction fuel generalizing A f B s with
  | zero => exact absurd hfuel (Nat.not_lt_zero _)
  | succ fuel ih =>
    have hf : f ∉ A ++ B := List.nodup_cons.1 (List.nodup_middle.1 (hav ▸ nodup_availableBrokerUris hnd)) |>.1
    have hav' : availableBrokerUris (s.brokerManager.markBrokerUnavailable f) = A ++ B := by
      rw [availableBrokerUris_markBrokerUnavailable f hnd, hav,
        List.erase_append_right _ fun h => hf (List.mem_append_left _ h), List.erase_cons_head]
    unfold handleConnectionFailure
    dsimp only
    rw [hav']
    rcases B with _ | ⟨b0, _ | ⟨b1, rest⟩⟩
    · by_cases hA : A = []
      · subst hA; rfl
      · simp [hA, hcur, markAll_cons]
    · simp [hcur, markAll_cons]
    · have hlt : A.length + 1 < (A ++ b0 :: b1 :: rest).length := by simp
      have hget : (A ++ b0 :: b1 :: rest)[A.length + 1] = b1 := by
        rw [List.getElem_append_right (by simp)]; simp
      simp only [hcur, List.append_eq_nil, List.cons_ne_nil, and_false, ↓reduceIte,
        List.isEmpty_eq_false, dif_pos hlt, hget, tryConnectToBroker_fst, List.drop_one,
        List.tail_cons, everyOther_cons, List.find?_cons, List.takeWhile_cons]
      by_cases hr : o.reach b1
      · simp [hr, markAll_cons, tryConnectToBroker, completeConnection, resendQueuedMessages]
      · simp only [hr, Bool.false_eq_true, ↓reduceIte, Bool.not_false]
        rw [ih (A := A ++ [b0]) (B := rest) (by simpa using hnd) (by simpa using hav')
          (by simp [hcur]) (by simp at hfuel; omega)]
        simp only [List.append_assoc, List.singleton_append, List.append_eq_nil, List.cons_ne_nil,
          and_false, ↓reduceIte, List.drop_one]
        cases hfind : (everyOther rest.tail).find? o.reach with
        | some b =>
          simp [markAll_cons, tryConnectToBroker, completeConnection, resendQueuedMessages]
        | none =>
          cases hl : (everyOther rest.tail).getLast? <;>
            simp [markAll_cons, List.getLast?_cons, hl, tryConnectToBroker, hr]

/-- **A swap, in one equation.** Under unique URIs, a swap that finds no connect under
way walks every other broker of the available snapshot `L` from the cursor (put back in
range), `everyOther (L.drop i)`, and stops at the first reachable one, having marked the
ones before it unavailable. If none is reachable the manager keeps `is_connected_` as it
found it and holds the last client tried, failed; the cursor is left at `0`, or at `1`
when the snapshot held one broker. -/
theorem switchToBestBroker_eq (o : Oracle) {s : SelfAdaptiveMqttManager K}
    (hg : s.isConnecting = false) (hnd : (s.brokerManager.brokers.map (·.uri)).Nodup) :
    s.switchToBestBroker o =
      let L := availableBrokerUris s.brokerManager
      let T := everyOther (L.drop (wrapTryIndex s.currentBrokerTryIndex L.length))
      if L = [] then { s with client := none }
      else match T.find? o.reach with
      | some b => completeConnection o b 0
          { s with client := some ⟨b, .connected⟩,
                   attempts := s.attempts ++ T.takeWhile (!o.reach ·) ++ [b],
                   brokerManager := markAll (T.takeWhile (!o.reach ·)) s.brokerManager }
      | none =>
          { s with client := T.getLast?.map (⟨·, .failed⟩),
                   attempts := s.attempts ++ T,
                   brokerManager := markAll T s.brokerManager,
                   currentBrokerTryIndex := if L.length = 1 then 1 else 0 } := by
  unfold switchToBestBroker
  simp only [hg, Bool.false_eq_true, ↓reduceIte]
  split
  · rename_i hL
    simp [hL]
  · rename_i hL
    have hi := @wrapTryIndex_lt s.currentBrokerTryIndex _ (List.length_pos.2 hL)
    obtain ⟨u, hu⟩ : ∃ u, ∀ h, getElem (availableBrokerUris s.brokerManager)
        (wrapTryIndex s.currentBrokerTryIndex (availableBrokerUris s.brokerManager).length) h = u :=
      ⟨getElem (availableBrokerUris s.brokerManager) _ hi, fun _ => rfl⟩
    simp only [hu]
    have hlen : (availableBrokerUris s.brokerManager).length ≤ s.brokerManager.brokers.length := by
      simpa [availableBrokerUris] using List.length_filter_le _ _
    generalize hLdef : availableBrokerUris s.brokerManager = L at hL hi hu hlen ⊢
    generalize wrapTryIndex s.currentBrokerTryIndex L.length = i at hi hu ⊢
    have hav : L = L.take i ++ u :: L.drop (i + 1) := by
      rw [← hu hi, ← List.drop_eq_getElem_cons hi, List.take_append_drop]
    rw [List.drop_eq_getElem_cons hi, hu hi, everyOther_cons]
    simp only [hL, ↓reduceIte, List.find?_cons, List.takeWhile_cons, tryConnectToBroker_fst]
    by_cases hr : o.reach u
    · simp [hr, tryConnectToBroker, completeConnection, resendQueuedMessages]
    · rw [handleConnectionFailure_eq o (A := L.take i) (B := L.drop (i + 1)) (by simpa using hnd)
        (by simpa [hLdef] using hav) (by simp; omega) (by simp; omega)]
      by_cases h1 : L.length = 1
      · obtain rfl : i = 0 := by omega
        simp [hr, h1, List.drop_eq_nil_of_le, tryConnectToBroker, markAll_cons]
      · have hne : L.take i ++ L.drop (i + 1) ≠ [] := by
          intro h
          have := congrArg List.length h
          simp only [List.length_append, List.length_take, List.length_drop, List.length_nil] at this
          omega
        simp only [hne, ↓reduceIte, hr, Bool.false_eq_true, h1, Bool.not_false]
        cases hfind : (everyOther ((L.drop (i + 1)).drop 1)).find? o.reach with
        | some b =>
          simp [markAll_cons, tryConnectToBroker, completeConnection, resendQueuedMessages]
        | none =>
          cases hl : (everyOther (L.drop (i + 1 + 1))).getLast? <;>
            simp [markAll_cons, List.getLast?_cons, hl, tryConnectToBroker, hr]

/-- **A swap never tries the broker after the cursor's.** Whatever the network does, the
broker `u` right after the cursor's in the snapshot is not among the attempts of the swap,
however reachable it is. -/
theorem switchToBestBroker_skips_next (o : Oracle) {s : SelfAdaptiveMqttManager K}
    (hg : s.isConnecting = false) (hnd : (s.brokerManager.brokers.map (·.uri)).Nodup) {i : ℕ}
    (hwrap : wrapTryIndex s.currentBrokerTryIndex (availableBrokerUris s.brokerManager).length = i)
    {u : String} (hu : (availableBrokerUris s.brokerManager)[i + 1]? = some u) :
    u ∉ (s.switchToBestBroker o).attempts.drop s.attempts.length := by
  obtain ⟨hi, rfl⟩ := List.getElem?_eq_some_iff.1 hu
  have hL : availableBrokerUris s.brokerManager ≠ [] := List.ne_nil_of_length_pos (by omega)
  rw [switchToBestBroker_eq o hg hnd]
  simp only [hL, ↓reduceIte]
  generalize hT : everyOther ((availableBrokerUris s.brokerManager).drop
    (wrapTryIndex s.currentBrokerTryIndex (availableBrokerUris s.brokerManager).length)) = T
  have hnd' := nodup_availableBrokerUris hnd
  have hskip : (availableBrokerUris s.brokerManager)[i + 1] ∉ T := by
    rw [← hT, hwrap, List.drop_eq_getElem_cons (by omega), everyOther_cons, List.drop_one,
      List.tail_drop]
    intro h
    rcases List.mem_cons.1 h with h | h
    · exact absurd ((hnd'.getElem_inj_iff).1 h) (by omega)
    · have := (List.drop_eq_getElem_cons hi ▸ hnd'.sublist (List.drop_sublist (i + 1) _))
      exact (List.nodup_cons.1 this).1 ((everyOther_sublist _).subset h)
  split
  · rename_i b hb
    simp only [completeConnection_attempts, List.append_assoc, List.drop_left]
    intro h
    rcases List.mem_append.1 h with h | h
    · exact hskip ((List.takeWhile_sublist _).subset h)
    · exact hskip (List.mem_singleton.1 h ▸ List.mem_of_find?_eq_some hb)
  · simpa using hskip

section runs

/- `decide` runs the model over `ℚ`, whose operations are irreducible by default. -/
attribute [local semireducible] Rat.add Rat.mul Rat.inv Rat.sub Rat.ofScientific

/-- Three brokers connected at `tcp://a`, the cursor at `0`: a swap skips `tcp://b`. -/
theorem switchToBestBroker_skips_next_three :
    let s : SelfAdaptiveMqttManager ℚ :=
      (((init "sensor").setBrokers 0 ["tcp://a", "tcp://b", "tcp://c"]).connect allUp).2
    s.isConnecting = false ∧ (s.brokerManager.brokers.map (·.uri)).Nodup ∧
    wrapTryIndex s.currentBrokerTryIndex (availableBrokerUris s.brokerManager).length = 0 ∧
    (availableBrokerUris s.brokerManager)[0 + 1]? = some "tcp://b" ∧
    "tcp://b" ∉ (s.switchToBestBroker (onlyUp "tcp://b")).attempts.drop s.attempts.length :=
  ⟨by decide, by decide, by decide, by decide,
    switchToBestBroker_skips_next _ (i := 0) (by decide) (by decide) (by decide) (by decide)⟩

/-- The advised swap from `tcp://a` to `tcp://b` rebinds to `tcp://a`: the cursor that
`connect` left at `0` picks the broker the swap was meant to leave, and it is reachable. -/
theorem advisedSwap_rebinds_to_cursor :
    ∃ s : SelfAdaptiveMqttManager ℚ, Reachable s ∧ s.isConnected = true ∧
      s.brokerManager.shouldSwitchBroker = true ∧
      s.brokerManager.findBestBroker.map (·.uri) = some "tcp://b" ∧ allUp.reach "tcp://b" = true ∧
      s.getCurrentBrokerUri = "tcp://a" ∧ (s.onMetricsUpdated allUp).isConnected = true ∧
      (s.onMetricsUpdated allUp).getCurrentBrokerUri = "tcp://a" := by
  obtain ⟨s, hs, hp⟩ := exists_reachable_of_run "sensor" advisedSwapRun
    (p := fun s => s.isConnected && s.brokerManager.shouldSwitchBroker &&
      s.brokerManager.findBestBroker.map (·.uri) == some "tcp://b" && allUp.reach "tcp://b" &&
      s.getCurrentBrokerUri == "tcp://a" && (s.onMetricsUpdated allUp).isConnected &&
      (s.onMetricsUpdated allUp).getCurrentBrokerUri == "tcp://a")
    (by decide)
  exact ⟨s, hs, by simpa [and_assoc] using hp⟩

/-- Three brokers, connected to `tcp://a` with the cursor at `0`; the connection is lost
while only `tcp://b` accepts connections. The reconnect tries `tcp://a`, then `tcp://c`,
and gives up disconnected, never having tried `tcp://b`. -/
theorem reconnect_skips_reachable_broker :
    ∃ s : SelfAdaptiveMqttManager ℚ, Reachable s ∧ s.clientUp = true ∧ s.isConnecting = false ∧
      (s.brokerManager.brokers.map (·.uri)).Nodup ∧
      availableBrokerUris s.brokerManager = ["tcp://a", "tcp://b", "tcp://c"] ∧
      (onlyUp "tcp://b").reach "tcp://b" = true ∧
      (s.connectionLost (onlyUp "tcp://b")).attempts = s.attempts ++ ["tcp://a", "tcp://c"] ∧
      (s.connectionLost (onlyUp "tcp://b")).isConnected = false ∧
      (s.connectionLost (onlyUp "tcp://b")).clientUp = false := by
  have h := exists_reachable_of_run "sensor"
    ([.setBrokers 0 ["tcp://a", "tcp://b", "tcp://c"], .connect allUp] : List (Event ℚ))
    (p := fun s => s.clientUp && !s.isConnecting &&
      decide (s.brokerManager.brokers.map (·.uri)).Nodup &&
      availableBrokerUris s.brokerManager == ["tcp://a", "tcp://b", "tcp://c"] &&
      (onlyUp "tcp://b").reach "tcp://b" &&
      (s.connectionLost (onlyUp "tcp://b")).attempts == s.attempts ++ ["tcp://a", "tcp://c"] &&
      !(s.connectionLost (onlyUp "tcp://b")).isConnected &&
      !(s.connectionLost (onlyUp "tcp://b")).clientUp)
    (by decide)
  obtain ⟨s, hs, hp⟩ := h
  exact ⟨s, hs, by simpa [and_assoc] using hp⟩

end runs

end SelfAdaptiveMqttManager

end PahoMqtt
