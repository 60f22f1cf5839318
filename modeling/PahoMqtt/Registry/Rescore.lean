import PahoMqtt.Registry.Invariant
/-!
# Scores and the category

`update_broker_metrics` and `mark_broker_available` rescore the record they touch under the
profile of the registry's category; `add_broker` creates a record whose score `0` is what
rescoring would give it; `mark_broker_unavailable` zeroes the score of the record it makes
unavailable. So each keeps every record a fixed point of rescoring under the current
profile (`Rescored`). `set_category` changes the profile and rescores nothing, and the
fixed points of one profile are not those of another (`setCategory_breaks_rescore`).

Along a run whose every `set_category` keeps the profile of the initial category, every
record stays rescored, and marking an available broker unavailable and then available
gives back the registry it started from (`rescored_of_run`).
-/

namespace PahoMqtt

theorem BrokerInfo.updateScore_updateScore {K : Type} [LinearOrderedField K] (w : ScoreWeights K)
    (b : BrokerInfo K) : (b.updateScore w).updateScore w = b.updateScore w := rfl

namespace BrokerListManager

variable {K : Type} [LinearOrderedField K]

/-- Every record is what `update_score` under the category's profile makes of it: an
available record scores its metrics, an unavailable one `0`. -/
def Rescored (r : BrokerListManager K) : Prop :=
  ∀ b ∈ r.brokers, b.updateScore (weightsFor r.category) = b

/-- Whether an operation leaves a registry of `category` scoring with the same profile:
only a `set_category` to a category of another profile does not. -/
def Op.keepsProfile (category : String) : Op K → Bool
  | .setCategory c => weightsFor (K := K) c = weightsFor category
  | _ => true

theorem Op.keepsProfile_congr {c₁ c₂ : String} (h : weightsFor (K := K) c₁ = weightsFor c₂)
    (op : Op K) : op.keepsProfile c₁ = op.keepsProfile c₂ := by
  cases op <;> simp only [Op.keepsProfile, h]

/-- The registry after a list of operations, in order. -/
def runOps (ops : List (Op K)) (r : BrokerListManager K) : BrokerListManager K :=
  ops.foldl (fun r op => op.apply r) r

/-! ## Each operation keeps the scores rescored -/

theorem rescored_init (category : String) : (init category : BrokerListManager K).Rescored :=
  fun _ h => absurd h (List.not_mem_nil _)

theorem Rescored.updateFirst {r : BrokerListManager K} (h : r.Rescored) {uri : String}
    {f : BrokerInfo K → BrokerInfo K}
    (hf : ∀ b, (f b).updateScore (weightsFor r.category) = f b) :
    ({ r with brokers := BrokerListManager.updateFirst uri f r.brokers } : BrokerListManager K).Rescored :=
  forall_updateFirst h fun b _ => hf b

theorem Rescored.addBroker {r : BrokerListManager K} (h : r.Rescored) (now : ℕ) (uri : String) :
    (r.addBroker now uri).Rescored := by
  unfold BrokerListManager.addBroker
  split
  · exact h
  · intro b hb
    rcases List.mem_append.1 hb with hb | hb
    · exact h b hb
    · rw [List.mem_singleton.1 hb]; exact BrokerInfo.init_updateScore _ uri now

/-- **Every operation that keeps the profile keeps the scores rescored**, and the profile
itself. -/
theorem Rescored.apply {r : BrokerListManager K} (h : r.Rescored) {op : Op K}
    (hop : op.keepsProfile r.category) :
    (op.apply r).Rescored ∧ weightsFor (K := K) (op.apply r).category = weightsFor r.category := by
  cases op with
  | addBroker now uri => exact ⟨h.addBroker now uri, by simp [Op.apply]⟩
  | removeBroker uri =>
    show (r.removeBroker uri).Rescored ∧ weightsFor (r.removeBroker uri).category = _
    unfold BrokerListManager.removeBroker
    split
    · exact ⟨h, rfl⟩
    · exact ⟨fun b hb => h b ((List.eraseIdx_sublist _ _).subset hb), rfl⟩
  | clearBrokers => exact ⟨fun _ hb => absurd hb (List.not_mem_nil _), rfl⟩
  | setCurrentBroker uri =>
    show (r.setCurrentBroker uri).2.Rescored ∧ weightsFor (r.setCurrentBroker uri).2.category = _
    unfold BrokerListManager.setCurrentBroker
    split <;> exact ⟨h, rfl⟩
  | updateBrokerMetrics => exact ⟨h.updateFirst fun _ => rfl, rfl⟩
  | markBrokerUnavailable => exact ⟨h.updateFirst fun _ => rfl, rfl⟩
  | markBrokerAvailable => exact ⟨h.updateFirst fun _ => rfl, rfl⟩
  | setCategory c =>
    have hw : weightsFor (K := K) c = weightsFor r.category := by simpa [Op.keepsProfile] using hop
    exact ⟨fun b hb => by simpa [Op.apply, BrokerListManager.setCategory, hw] using h b hb, hw⟩

/-- Marking the unique record of `uri`, available and rescored, unavailable and then
available again gives back the registry. -/
theorem Rescored.markBrokerAvailable_markBrokerUnavailable {r : BrokerListManager K}
    (h : r.Rescored) (hnd : (r.brokers.map (·.uri)).Nodup) {b : BrokerInfo K} (hb : b ∈ r.brokers)
    (ha : b.isAvailable = true) :
    (r.markBrokerUnavailable b.uri).markBrokerAvailable b.uri = r := by
  have hnd' : ((r.markBrokerUnavailable b.uri).brokers.map (·.uri)).Nodup := by
    rwa [map_uri_markBrokerUnavailable]
  obtain ⟨l, i, c⟩ := r
  simp only [markBrokerAvailable, markBrokerUnavailable, category_markBrokerUnavailable,
    mk.injEq, and_true] at hnd' ⊢
  simp only at hnd h hb
  rw [updateFirst_eq_map hnd', updateFirst_eq_map hnd, List.map_map]
  conv_rhs => rw [← List.map_id l]
  refine List.map_congr_left fun x hx => ?_
  by_cases hx' : x.uri = b.uri
  · obtain rfl : x = b := List.inj_on_of_nodup_map hnd hx hb hx'
    simpa [BrokerInfo.markUnavailable, BrokerInfo.updateScore, ha] using h x hx
  · simp [hx']

/-! ## Runs -/

/-- **Along a run that keeps the weight profile, scores stay what rescoring makes them.**
From a new registry of `category`, after operations none of which is a `set_category` to a
category of another profile, every available record scores its metrics under the current
profile, every unavailable one `0`, and marking any available broker unavailable and then
available gives back the same registry. -/
theorem rescored_of_run (category : String) (ops : List (Op K))
    (hops : ∀ op ∈ ops, op.keepsProfile category = true) :
    (runOps ops (init category)).Rescored ∧
    ∀ b ∈ (runOps ops (init category)).brokers, b.isAvailable = true →
      ((runOps ops (init category)).markBrokerUnavailable b.uri).markBrokerAvailable b.uri =
        runOps ops (init category) := by
  have key : ∀ (ops : List (Op K)) (r : BrokerListManager K), r.Inv → r.Rescored →
      weightsFor (K := K) r.category = weightsFor category →
      (∀ op ∈ ops, op.keepsProfile category = true) →
      (runOps ops r).Inv ∧ (runOps ops r).Rescored := by
    intro ops
    induction ops with
    | nil => exact fun r hi hr _ _ => ⟨hi, hr⟩
    | cons op ops ih =>
      intro r hi hr hw hops
      have hop : op.keepsProfile r.category :=
        (Op.keepsProfile_congr hw op).trans (hops op (List.mem_cons_self _ _))
      obtain ⟨hr', hw'⟩ := hr.apply hop
      exact ih _ (hi.apply op) hr' (hw'.trans hw) fun op' h' => hops op' (List.mem_cons_of_mem _ h')
  obtain ⟨hi, hr⟩ := key ops _ (inv_init category) (rescored_init category) rfl hops
  exact ⟨hr, fun b hb ha => hr.markBrokerAvailable_markBrokerUnavailable hi.nodup hb ha⟩

section runs

/- `decide` runs the model over `ℚ`, whose operations are irreducible by default. -/
attribute [local semireducible] Rat.add Rat.mul Rat.inv Rat.sub Rat.ofScientific

/-- A sensor registry measured and then renamed to `meter`, of the same profile. -/
theorem rescored_of_run_meter :
    let ops : List (Op ℚ) :=
      [.addBroker 0 "tcp://a", .updateBrokerMetrics 1 "tcp://a" 10 0 0, .setCategory "meter"]
    (∀ op ∈ ops, op.keepsProfile "sensor" = true) ∧
    ((runOps ops (init "sensor")).Rescored ∧
    ∀ b ∈ (runOps ops (init "sensor")).brokers, b.isAvailable = true →
      ((runOps ops (init "sensor")).markBrokerUnavailable b.uri).markBrokerAvailable b.uri =
        runOps ops (init "sensor")) :=
  have h : ∀ op ∈ ([.addBroker 0 "tcp://a", .updateBrokerMetrics 1 "tcp://a" 10 0 0,
      .setCategory "meter"] : List (Op ℚ)), op.keepsProfile "sensor" = true := by decide
  ⟨h, rescored_of_run "sensor" _ h⟩

/-- A sensor registry with one broker measured at 10 ms (score `0.54`), switched to the
camera profile: the stored score stays `0.54` while the profile gives `0.18`, and marking
the broker unavailable and then available changes the registry. -/
theorem setCategory_breaks_rescore :
    Reachable ((((init "sensor" : BrokerListManager ℚ).addBroker 0 "tcp://a").updateBrokerMetrics
      1 "tcp://a" 10 0 0).setCategory "camera") ∧
    ((((init "sensor" : BrokerListManager ℚ).addBroker 0 "tcp://a").updateBrokerMetrics
      1 "tcp://a" 10 0 0).setCategory "camera").brokers.map
        (fun b => (b.uri, b.isAvailable, b.score,
          weightedScore (weightsFor "camera") b.latency b.bandwidth b.connectionCount)) =
      [("tcp://a", true, 27 / 50, 9 / 50)] ∧
    (((((init "sensor" : BrokerListManager ℚ).addBroker 0 "tcp://a").updateBrokerMetrics
      1 "tcp://a" 10 0 0).setCategory "camera").markBrokerUnavailable "tcp://a").markBrokerAvailable
        "tcp://a" ≠
      (((init "sensor" : BrokerListManager ℚ).addBroker 0 "tcp://a").updateBrokerMetrics
        1 "tcp://a" 10 0 0).setCategory "camera" :=
  ⟨.step (.setCategory "camera") (.step (.updateBrokerMetrics 1 "tcp://a" 10 0 0)
    (.step (.addBroker 0 "tcp://a") (.init "sensor"))), by decide, by decide⟩

end runs

end BrokerListManager

end PahoMqtt
