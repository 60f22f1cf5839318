import PahoMqtt.Registry.Invariant
/-!
# Edits and the current broker

The current broker is `brokers_[current_broker_index_]`, so what an operation does to it is
what it does to the index and to the record list at that index. The three loops that
rewrite one record, `set_category` and a `set_current_broker` of an unregistered URI keep
both URIs and index (`getCurrentBrokerUri_congr`). `add_broker` appends, so the index keeps
its record unless the registry was empty, where the new broker becomes current.
`remove_broker` erases one record and re-anchors the index: a record before the current one
shifts the index down, one after leaves it, and removing the current one makes current the
broker registered right after it, or the new last one, or none
(`getCurrentBroker_removeBroker_current`). `getCurrentBrokerUri_edits` collects these for
every reachable registry.

Adding an unregistered URI appends a record at index `size`, which is never the current
index of a reachable non-empty registry, so removing it again gives back the registry
exactly (`removeBroker_addBroker`). `set_brokers` clears the registry and adds each URI
in turn; the duplicate check of `add_broker` keeps the first occurrence of each, which is
`List.eraseDups` (`foldl_addBroker_clearBrokers`).
-/

namespace PahoMqtt

namespace BrokerListManager

variable {K : Type}

/-! ## The current broker, as a URI list and an index -/

theorem getCurrentBrokerUri_eq (r : BrokerListManager K) :
    r.getCurrentBrokerUri = ((r.brokers.map (·.uri))[r.currentBrokerIndex]?).getD "" := by
  unfold getCurrentBrokerUri getCurrentBroker
  rw [List.getElem?_map]
  cases r.brokers[r.currentBrokerIndex]? <;> rfl

/-- An operation that keeps the URIs in order and the index keeps the current URI. -/
theorem getCurrentBrokerUri_congr {r r' : BrokerListManager K}
    (hu : r'.brokers.map (·.uri) = r.brokers.map (·.uri))
    (hi : r'.currentBrokerIndex = r.currentBrokerIndex) :
    r'.getCurrentBrokerUri = r.getCurrentBrokerUri := by
  rw [getCurrentBrokerUri_eq, getCurrentBrokerUri_eq, hu, hi]

theorem getCurrentBrokerUri_updateFirst (r : BrokerListManager K) {uri : String}
    {f : BrokerInfo K → BrokerInfo K} (hf : ∀ b, (f b).uri = b.uri) :
    ({ r with brokers := updateFirst uri f r.brokers } : BrokerListManager K).getCurrentBrokerUri =
      r.getCurrentBrokerUri :=
  getCurrentBrokerUri_congr (map_uri_updateFirst hf _) rfl

theorem findIdx?_uri_eq_none {l : List (BrokerInfo K)} {uri : String}
    (hu : uri ∉ l.map (·.uri)) : l.findIdx? (·.uri = uri) = none :=
  List.findIdx?_eq_none_iff.2 fun b hb => by
    simpa using fun he => hu (List.mem_map.2 ⟨b, hb, he⟩)

/-- Under unique URIs the first record with the URI of the one at `i` is at `i`. -/
theorem findIdx?_uri_getElem {l : List (BrokerInfo K)} (hnd : (l.map (·.uri)).Nodup) {i : ℕ}
    (hi : i < l.length) : l.findIdx? (·.uri = l[i].uri) = some i := by
  refine List.findIdx?_eq_some_iff_getElem.2 ⟨hi, by simp, fun j hji => ?_⟩
  simpa using List.pairwise_iff_getElem.1 (List.pairwise_map.1 hnd) j i (by omega) hi hji

theorem setCurrentBroker_of_not_mem (r : BrokerListManager K) {uri : String}
    (hu : uri ∉ r.getBrokerUris) : r.setCurrentBroker uri = (false, r) := by
  simp [setCurrentBroker, findIdx?_uri_eq_none hu]

/-! ## `remove_broker` -/

/-- Removing any record but the current one keeps the current record. -/
theorem getCurrentBroker_removeBroker {r : BrokerListManager K} {uri : String}
    (hu : r.getCurrentBroker.map (·.uri) ≠ some uri) :
    (r.removeBroker uri).getCurrentBroker = r.getCurrentBroker := by
  unfold removeBroker
  split
  · rfl
  · rename_i j hj
    obtain ⟨hjl, hju, -⟩ := List.findIdx?_eq_some_iff_getElem.1 hj
    have hji : j ≠ r.currentBrokerIndex := by
      rintro rfl
      exact hu (by simpa [getCurrentBroker, List.getElem?_eq_getElem hjl] using hju)
    simp only [getCurrentBroker, reanchor, if_neg hji, List.getElem?_eraseIdx]
    split_ifs <;> first | rfl | omega | (congr 1; omega)

/-- **Removing the current broker** makes current the broker registered right after it, or,
when it was the last, the new last broker, or none when the registry becomes empty. -/
theorem getCurrentBroker_removeBroker_current {r : BrokerListManager K}
    (hnd : (r.brokers.map (·.uri)).Nodup) {current : BrokerInfo K}
    (hc : r.getCurrentBroker = some current) :
    (r.removeBroker current.uri).getCurrentBroker =
      r.brokers[r.currentBrokerIndex + 1]?.or r.brokers.dropLast.getLast? := by
  obtain ⟨hi, rfl⟩ := List.getElem?_eq_some_iff.1 hc
  unfold removeBroker
  rw [findIdx?_uri_getElem hnd hi]
  have hlen := List.length_eraseIdx_of_lt hi
  simp only [getCurrentBroker, reanchor, if_true]
  rcases Nat.lt_or_ge (r.currentBrokerIndex + 1) r.brokers.length with hlt | hge
  · -- the next broker slides into the removed one's place
    rw [if_neg (by omega), if_neg (by omega), List.getElem?_eraseIdx_of_ge _ _ _ le_rfl,
      List.getElem?_eq_getElem hlt]
    rfl
  · -- the removed broker was the last: the index falls back to the new last one, if any
    rw [List.getElem?_eq_none hge, Option.none_or,
      List.dropLast_eq_eraseIdx (i := r.currentBrokerIndex) (by omega), List.getLast?_eq_getElem?]
    congr 1
    split_ifs <;> omega

/-! ## `add_broker` -/

/-- `add_broker` on a non-empty registry keeps the current record. -/
theorem getCurrentBroker_addBroker [LinearOrderedField K] {r : BrokerListManager K}
    (hi : r.currentBrokerIndex < r.brokers.length) (now : ℕ) (uri : String) :
    (r.addBroker now uri).getCurrentBroker = r.getCurrentBroker := by
  unfold addBroker
  split
  · rfl
  · have : (r.brokers ++ [BrokerInfo.init uri now]).length ≠ 1 := by
      simp only [List.length_append, List.length_singleton]; omega
    simp only [getCurrentBroker, this, if_false, List.getElem?_append_left hi]

/-- `add_broker` on an empty registry makes the new broker current. -/
theorem getCurrentBroker_addBroker_nil [LinearOrderedField K] {r : BrokerListManager K}
    (hr : r.brokers = []) (now : ℕ) (uri : String) :
    (r.addBroker now uri).getCurrentBroker = some (BrokerInfo.init uri now) := by
  simp [addBroker, getCurrentBroker, hr]

/-! ## Every edit, in every reachable registry -/

section reachable

variable [LinearOrderedField K]

/-- **The current broker under every registry edit.** In a reachable registry the record
edits, `set_category`, a `set_current_broker` that finds nothing, `add_broker` on a non-empty
registry and `remove_broker` of any other URI keep the current URI; removing the current
broker hands over to the next one or the new last one; and on an empty registry
`add_broker` makes the new broker current. -/
theorem getCurrentBrokerUri_edits {r : BrokerListManager K} (h : Reachable r) :
    (∀ now uri, r.brokers ≠ [] →
      (r.addBroker now uri).getCurrentBrokerUri = r.getCurrentBrokerUri) ∧
    (∀ now uri latency bandwidth connectionCount,
      (r.updateBrokerMetrics now uri latency bandwidth connectionCount).getCurrentBrokerUri =
        r.getCurrentBrokerUri) ∧
    (∀ uri, (r.markBrokerUnavailable uri).getCurrentBrokerUri = r.getCurrentBrokerUri) ∧
    (∀ uri, (r.markBrokerAvailable uri).getCurrentBrokerUri = r.getCurrentBrokerUri) ∧
    (∀ category, (r.setCategory category).getCurrentBrokerUri = r.getCurrentBrokerUri) ∧
    (∀ uri, uri ∉ r.getBrokerUris →
      (r.setCurrentBroker uri).2.getCurrentBrokerUri = r.getCurrentBrokerUri) ∧
    (∀ uri, r.getCurrentBroker.map (·.uri) ≠ some uri →
      (r.removeBroker uri).getCurrentBrokerUri = r.getCurrentBrokerUri) ∧
    (∀ current, r.getCurrentBroker = some current →
      (r.removeBroker current.uri).getCurrentBroker =
        r.brokers[r.currentBrokerIndex + 1]?.or r.brokers.dropLast.getLast?) ∧
    (∀ now uri, r.brokers = [] →
      (r.addBroker now uri).getCurrentBroker = some (BrokerInfo.init uri now)) := by
  have hinv := h.inv
  refine ⟨fun now uri hne => ?_, fun _ _ _ _ _ => getCurrentBrokerUri_updateFirst r fun _ => rfl,
    fun _ => getCurrentBrokerUri_updateFirst r fun _ => rfl,
    fun _ => getCurrentBrokerUri_updateFirst r fun _ => rfl, fun _ => rfl,
    fun uri hu => by rw [setCurrentBroker_of_not_mem r hu], fun uri hu => ?_,
    fun _ => getCurrentBroker_removeBroker_current hinv.nodup,
    fun now uri hr => getCurrentBroker_addBroker_nil hr now uri⟩
  · have hi := hinv.index.resolve_right fun h' => hne h'.1
    rw [getCurrentBrokerUri, getCurrentBrokerUri, getCurrentBroker_addBroker hi]
  · rw [getCurrentBrokerUri, getCurrentBrokerUri, getCurrentBroker_removeBroker hu]

/-- Two brokers, the first current: removing it hands over to the second. -/
theorem getCurrentBrokerUri_edits_handover :
    let r : BrokerListManager ℚ := ((init "sensor").addBroker 0 "tcp://a").addBroker 0 "tcp://b"
    Reachable r ∧ (r.removeBroker "tcp://a").getCurrentBroker =
      r.brokers[r.currentBrokerIndex + 1]?.or r.brokers.dropLast.getLast? :=
  have h : Reachable (((init "sensor" : BrokerListManager ℚ).addBroker 0 "tcp://a").addBroker 0
      "tcp://b") := .step (.addBroker 0 "tcp://b") (.step (.addBroker 0 "tcp://a") (.init "sensor"))
  ⟨h, (getCurrentBrokerUri_edits h).2.2.2.2.2.2.2.1 (BrokerInfo.init "tcp://a" 0) rfl⟩

/-- `add_broker` of an unregistered URI appends a fresh record; the index moves to it only
when it is the first. -/
theorem addBroker_of_not_mem (r : BrokerListManager K) (now : ℕ) {uri : String}
    (hu : uri ∉ r.getBrokerUris) : r.addBroker now uri =
      { r with brokers := r.brokers ++ [BrokerInfo.init uri now],
               currentBrokerIndex := if r.brokers = [] then 0 else r.currentBrokerIndex } := by
  have hany : r.brokers.any (·.uri = uri) = false := by simpa [getBrokerUris] using hu
  simp [addBroker, hany]

/-- **Adding an unregistered URI and removing it again is the identity** on every reachable
registry: the appended record sits at index `size`, after the current one, or, on the
empty registry, at the index `0` that the removal re-anchors to `0`. -/
theorem removeBroker_addBroker {r : BrokerListManager K} (h : Reachable r) (now : ℕ)
    {uri : String} (hu : uri ∉ r.getBrokerUris) : (r.addBroker now uri).removeBroker uri = r := by
  have hfind : (r.brokers ++ [BrokerInfo.init uri now] : List (BrokerInfo K)).findIdx?
      (·.uri = uri) = some r.brokers.length := by
    simp [List.findIdx?_append, findIdx?_uri_eq_none hu, BrokerInfo.init]
  rw [addBroker_of_not_mem r now hu, removeBroker]
  simp only [hfind, List.eraseIdx_append_of_length_le le_rfl, Nat.sub_self, List.eraseIdx_cons_zero,
    List.eraseIdx_nil, List.append_nil, reanchor]
  rcases h.inv.index with hi | ⟨hnil, hidx⟩
  · -- the appended record sits after the current one
    have hne : r.brokers ≠ [] := List.ne_nil_of_length_pos (by omega)
    simp only [hne, hi.ne', if_false, if_neg (Nat.lt_asymm hi)]
  · -- on the empty registry both indices are 0
    simp only [hnil, hidx, if_true, List.length_nil]
    rw [← hnil, ← hidx]

/-- One broker registered; a second is added and removed again. -/
theorem removeBroker_addBroker_second :
    let r : BrokerListManager ℚ := (init "sensor").addBroker 0 "tcp://a"
    Reachable r ∧ "tcp://b" ∉ r.getBrokerUris ∧ (r.addBroker 5 "tcp://b").removeBroker "tcp://b" = r :=
  have h : Reachable ((init "sensor" : BrokerListManager ℚ).addBroker 0 "tcp://a") :=
    .step (.addBroker 0 "tcp://a") (.init "sensor")
  have hu : "tcp://b" ∉ ((init "sensor" : BrokerListManager ℚ).addBroker 0 "tcp://a").getBrokerUris := by
    decide
  ⟨h, hu, removeBroker_addBroker h 5 hu⟩

end reachable

/-! ## `set_brokers`: clearing, then adding each URI -/

variable [LinearOrderedField K]

theorem foldl_addBroker_loop (now : ℕ) (uris acc : List String) {r : BrokerListManager K}
    (hr : r.brokers = acc.reverse.map (BrokerInfo.init · now)) (hi : r.currentBrokerIndex = 0) :
    (uris.foldl (fun r uri => r.addBroker now uri) r).brokers =
        (List.eraseDups.loop uris acc).map (BrokerInfo.init · now) ∧
      (uris.foldl (fun r uri => r.addBroker now uri) r).currentBrokerIndex = 0 := by
  induction uris generalizing acc r with
  | nil => simp [List.eraseDups.loop, hr, hi]
  | cons u us ih =>
    have hmem : r.brokers.any (·.uri = u) = acc.elem u := by
      rw [List.elem_eq_mem, Bool.eq_iff_iff, hr]; simp [BrokerInfo.init]
    rw [List.foldl_cons, List.eraseDups.loop]
    cases he : acc.elem u
    · -- a new URI is appended, and the index stays at the first broker
      refine ih (u :: acc) ?_ ?_ <;> simp only [addBroker, hmem, he, Bool.false_eq_true, if_false]
      · simp [hr]
      · split_ifs <;> simp [hi]
    · -- a repeated one is a no-op
      simpa only [addBroker, hmem, he, if_true] using ih acc hr hi

/-- `set_brokers`' loop from a cleared registry: fresh records for the first occurrence of
each URI, in order, with the index at the first. -/
theorem foldl_addBroker_clearBrokers (now : ℕ) (uris : List String) (r : BrokerListManager K) :
    (uris.foldl (fun r uri => r.addBroker now uri) r.clearBrokers).brokers =
        uris.eraseDups.map (BrokerInfo.init · now) ∧
      (uris.foldl (fun r uri => r.addBroker now uri) r.clearBrokers).currentBrokerIndex = 0 :=
  foldl_addBroker_loop now uris [] rfl rfl

omit [LinearOrderedField K] in
/-- The deduplicating loop only ever appends to what it has kept. -/
theorem eraseDups_loop_eq_append {α : Type} [BEq α] (l acc : List α) :
    ∃ t, List.eraseDups.loop l acc = acc.reverse ++ t := by
  induction l generalizing acc with
  | nil => exact ⟨[], by simp [List.eraseDups.loop]⟩
  | cons a l ih =>
    rw [List.eraseDups.loop]
    split
    · exact ih acc
    · obtain ⟨t, ht⟩ := ih (a :: acc)
      exact ⟨a :: t, by simp [ht]⟩

omit [LinearOrderedField K] in
/-- The first element always survives deduplication. -/
theorem head?_eraseDups {α : Type} [BEq α] (l : List α) : l.eraseDups.head? = l.head? := by
  cases l with
  | nil => rfl
  | cons a l =>
    obtain ⟨t, ht⟩ := eraseDups_loop_eq_append l [a]
    simp [List.eraseDups, List.eraseDups.loop, ht]

end BrokerListManager

end PahoMqtt
