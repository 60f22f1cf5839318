import PahoMqtt.Registry.Basic
/-!
# The registry invariant

`Inv` is what every reachable registry satisfies: unique URIs, a current index in range
(or `0` on an empty registry), and records whose score lies in `[0, 1]` and is `0` when
unavailable. Each operation keeps it (`Inv.apply`), so every reachable registry has it
(`inv_of_reachable`).

The records' part is one predicate, `BrokerInfo.ScoreSound`, kept by `update_score` under
any profile of the table and by `mark_broker_unavailable`; `forall_updateFirst` carries it
through the three loops that rewrite one record.
-/

namespace PahoMqtt

variable {K : Type} [LinearOrderedField K]

/-- A record's score lies in `[0, 1]`, and is `0` when the broker is unavailable. -/
def BrokerInfo.ScoreSound (b : BrokerInfo K) : Prop :=
  (0 ≤ b.score ∧ b.score ≤ 1) ∧ (b.isAvailable = false → b.score = 0)

theorem BrokerInfo.scoreSound_updateScore {w : ScoreWeights K} (hw : w.Valid) (b : BrokerInfo K) :
    (b.updateScore w).ScoreSound :=
  ⟨b.updateScore_score_mem hw, b.updateScore_score_of_unavailable w⟩

theorem BrokerInfo.scoreSound_markUnavailable (b : BrokerInfo K) : b.markUnavailable.ScoreSound :=
  ⟨⟨le_rfl, zero_le_one⟩, fun _ => rfl⟩

theorem BrokerInfo.scoreSound_init (uri : String) (now : ℕ) :
    (BrokerInfo.init uri now : BrokerInfo K).ScoreSound :=
  ⟨⟨le_rfl, zero_le_one⟩, fun _ => rfl⟩

namespace BrokerListManager

/-- The registry invariant. -/
structure Inv (r : BrokerListManager K) : Prop where
  /-- (i) The URIs are pairwise distinct. -/
  nodup : (r.brokers.map (·.uri)).Nodup
  /-- (ii) The current index is in range, or the registry is empty and it is `0`. -/
  index : r.currentBrokerIndex < r.brokers.length ∨ (r.brokers = [] ∧ r.currentBrokerIndex = 0)
  /-- (iii) and (iv) Every score lies in `[0, 1]`, and is `0` when unavailable. -/
  sound : ∀ b ∈ r.brokers, b.ScoreSound

theorem inv_init (category : String) : (init category : BrokerListManager K).Inv :=
  ⟨List.nodup_nil, .inr ⟨rfl, rfl⟩, fun _ h => absurd h (List.not_mem_nil _)⟩

/-- The three loops that rewrite one record keep the invariant when the rewrite keeps the
URI and produces a sound record. -/
theorem Inv.updateFirst {r : BrokerListManager K} (h : r.Inv) {uri : String}
    {f : BrokerInfo K → BrokerInfo K} (hu : ∀ b, (f b).uri = b.uri)
    (hs : ∀ b, (f b).ScoreSound) :
    ({ r with brokers := updateFirst uri f r.brokers } : BrokerListManager K).Inv where
  nodup := by rw [map_uri_updateFirst hu]; exact h.nodup
  index := by
    rcases h.index with h1 | ⟨h1, h2⟩
    · exact .inl (by simpa using h1)
    · exact .inr ⟨by simp [h1, BrokerListManager.updateFirst], h2⟩
  sound := forall_updateFirst h.sound fun b _ => hs b

theorem Inv.addBroker {r : BrokerListManager K} (h : r.Inv) (now : ℕ) (uri : String) :
    (r.addBroker now uri).Inv := by
  unfold BrokerListManager.addBroker
  split
  · exact h
  · rename_i hnew
    simp only [List.any_eq_true, decide_eq_true_eq, not_exists, not_and] at hnew
    refine ⟨?_, ?_, ?_⟩
    · simpa [List.nodup_append, h.nodup] using fun b hb => hnew b hb
    · have := h.index
      simp only [List.length_append, List.length_singleton]
      split <;> exact .inl (by omega)
    · intro b hb
      rcases List.mem_append.1 hb with hb | hb
      · exact h.sound b hb
      · rw [List.mem_singleton.1 hb]; exact BrokerInfo.scoreSound_init uri now

/-- Where `remove_broker` re-anchors the index is in range of the shortened registry. -/
theorem reanchor_lt {i cur n : ℕ} (hi : i < n) (hcur : cur < n ∨ (n = 0 ∧ cur = 0)) :
    reanchor i cur (n - 1) < n - 1 ∨ (n - 1 = 0 ∧ reanchor i cur (n - 1) = 0) := by
  unfold reanchor
  split_ifs <;> omega

theorem Inv.removeBroker {r : BrokerListManager K} (h : r.Inv) (uri : String) :
    (r.removeBroker uri).Inv := by
  unfold BrokerListManager.removeBroker
  split
  · exact h
  · rename_i i hi
    have hlt : i < r.brokers.length := (List.findIdx?_eq_some_iff_findIdx_eq.1 hi).1
    have hsub := List.eraseIdx_sublist r.brokers i
    refine ⟨(hsub.map _).nodup h.nodup, ?_, fun b hb => h.sound b (hsub.subset hb)⟩
    have hidx : r.currentBrokerIndex < r.brokers.length ∨
        (r.brokers.length = 0 ∧ r.currentBrokerIndex = 0) := by
      simpa [List.length_eq_zero] using h.index
    simpa only [List.length_eraseIdx_of_lt hlt, ← List.length_eq_zero] using reanchor_lt hlt hidx

theorem Inv.setCurrentBroker {r : BrokerListManager K} (h : r.Inv) (uri : String) :
    (r.setCurrentBroker uri).2.Inv := by
  unfold BrokerListManager.setCurrentBroker
  split
  · rename_i i hi
    exact { h with index := .inl (List.findIdx?_eq_some_iff_findIdx_eq.1 hi).1 }
  · exact h

/-- **Every operation keeps the invariant.** -/
theorem Inv.apply {r : BrokerListManager K} (h : r.Inv) : ∀ op : Op K, (op.apply r).Inv
  | .addBroker now uri => h.addBroker now uri
  | .removeBroker uri => h.removeBroker uri
  | .clearBrokers => ⟨List.nodup_nil, .inr ⟨rfl, rfl⟩, fun _ h => absurd h (List.not_mem_nil _)⟩
  | .setCurrentBroker uri => h.setCurrentBroker uri
  | .updateBrokerMetrics _ _ _ _ _ =>
      h.updateFirst (fun _ => rfl) fun _ => BrokerInfo.scoreSound_updateScore (weightsFor_valid _) _
  | .markBrokerUnavailable _ => h.updateFirst (fun _ => rfl) BrokerInfo.scoreSound_markUnavailable
  | .markBrokerAvailable _ =>
      h.updateFirst (fun _ => rfl) fun _ => BrokerInfo.scoreSound_updateScore (weightsFor_valid _) _
  | .setCategory _ => ⟨h.1, h.2, h.3⟩

theorem Reachable.inv {r : BrokerListManager K} (h : Reachable r) : r.Inv := by
  induction h with
  | init category => exact inv_init category
  | step op _ ih => exact ih.apply op

/-- **The registry invariant holds in every reachable state**: unique URIs, an index in
range or `0` on an empty registry, scores in `[0, 1]`, and score `0` when unavailable. -/
theorem inv_of_reachable {r : BrokerListManager K} (h : Reachable r) : r.Inv :=
  h.inv

/-- A registry given two brokers, the second of them made current and then removed. -/
theorem inv_of_reachable_removed_current :
    Reachable ((((((init "sensor" : BrokerListManager ℚ).addBroker 0 "tcp://a").addBroker 0
      "tcp://b").setCurrentBroker "tcp://b").2).removeBroker "tcp://b") ∧
    ((((((init "sensor" : BrokerListManager ℚ).addBroker 0 "tcp://a").addBroker 0
      "tcp://b").setCurrentBroker "tcp://b").2).removeBroker "tcp://b").Inv :=
  have h : Reachable ((((((init "sensor" : BrokerListManager ℚ).addBroker 0 "tcp://a").addBroker 0
      "tcp://b").setCurrentBroker "tcp://b").2).removeBroker "tcp://b") :=
    .step (.removeBroker "tcp://b") (.step (.setCurrentBroker "tcp://b")
      (.step (.addBroker 0 "tcp://b") (.step (.addBroker 0 "tcp://a") (.init "sensor"))))
  ⟨h, inv_of_reachable h⟩

end BrokerListManager

end PahoMqtt
