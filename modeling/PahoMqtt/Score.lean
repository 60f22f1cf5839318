import Mathlib
/-!
# The score model

`BrokerInfo` and `BrokerInfo::update_score` of the self-adaptive publisher, with the
weight table `CATEGORY_WEIGHTS` of score_weights.h. A `double` is read in an arbitrary
linear ordered field `K`, so that every statement holds of the reals in particular, and
`ℚ` runs the model.

Each of the three components lies in `[0, 1]` and every profile of the table is a convex
combination (`categoryWeights_valid`), so a recomputed score lies in `[0, 1]`
(`updateScore_score_mem`), and it is `0` for an unavailable broker
(`updateScore_score_of_unavailable`).

The code computes in `double`, which rounds where `ℚ` does not, so a run of the model over
`ℚ` at a rounding boundary is not a run of the code. In a camera registry with latencies of
70 and 20 ms and nothing else measured, the two scores are `0.06` and `0.16` in `ℚ`, exactly
`SWITCH_THRESHOLD = 0.1` apart, and `should_switch_broker` advises no switch; in doubles
their difference rounds to just above `0.1`, and the code advises one. The statements of
the model are about exact arithmetic.
-/

namespace PahoMqtt

/-- `ScoreWeights`: one weight per metric. -/
structure ScoreWeights (K : Type) where
  latency : K
  bandwidth : K
  connection : K
  deriving DecidableEq, Repr

/-- A broker record. `lastCheck` is the `steady_clock` reading, in ticks. -/
structure BrokerInfo (K : Type) where
  uri : String
  latency : K
  bandwidth : K
  connectionCount : ℤ
  score : K
  isAvailable : Bool
  lastCheck : ℕ
  deriving DecidableEq, Repr

variable {K : Type} [LinearOrderedField K]

/-- `CATEGORY_WEIGHTS`: the category names and their weight profiles. -/
def categoryWeights : List (String × ScoreWeights K) :=
  [("sensor", ⟨0.6, 0.2, 0.2⟩), ("camera", ⟨0.2, 0.6, 0.2⟩), ("meter", ⟨0.6, 0.2, 0.2⟩),
   ("light", ⟨0.6, 0.2, 0.2⟩), ("appliance", ⟨0.6, 0.2, 0.2⟩), ("wearable", ⟨0.3, 0.4, 0.3⟩),
   ("beacon", ⟨0.6, 0.2, 0.2⟩), ("traffic", ⟨0.4, 0.2, 0.4⟩), ("drone", ⟨0.3, 0.5, 0.2⟩),
   ("rfid", ⟨0.3, 0.2, 0.5⟩), ("signage", ⟨0.2, 0.6, 0.2⟩)]

/-- The profile of `"sensor"`, the fallback. -/
def sensorWeights : ScoreWeights K := ⟨0.6, 0.2, 0.2⟩

/-- The profile a registry of this category scores with:
`CATEGORY_WEIGHTS.count(category_) ? CATEGORY_WEIGHTS.at(category_) : CATEGORY_WEIGHTS.at("sensor")`. -/
def weightsFor (category : String) : ScoreWeights K :=
  ((categoryWeights (K := K)).lookup category).getD sensorWeights

theorem lookup_sensor : (categoryWeights (K := K)).lookup "sensor" = some sensorWeights := rfl

/-! ## The three components -/

/-- `latency_score`: `max(0, 1 − latency / LATENCY_BASELINE)` for a measured latency. -/
def latencyScore (latency : K) : K :=
  if 0 < latency then max 0 (1 - latency / 100) else 0

/-- `bandwidth_score`: `min(1, bandwidth / BANDWIDTH_BASELINE)` for a measured bandwidth. -/
def bandwidthScore (bandwidth : K) : K :=
  if 0 < bandwidth then min 1 (bandwidth / 1000000) else 0

/-- `connection_score`: `max(0, 1 − connection_count / CONNECTION_BASELINE)` for a
positive count. -/
def connectionScore (connectionCount : ℤ) : K :=
  if 0 < connectionCount then max 0 (1 - (connectionCount : K) / 100) else 0

/-- The weighted sum `update_score` stores before its availability test. -/
def weightedScore (w : ScoreWeights K) (latency bandwidth : K) (connectionCount : ℤ) : K :=
  latencyScore latency * w.latency + bandwidthScore bandwidth * w.bandwidth +
    connectionScore connectionCount * w.connection

/-- `BrokerInfo::update_score`: the weighted sum, forced to `0` when unavailable. -/
def BrokerInfo.updateScore (w : ScoreWeights K) (b : BrokerInfo K) : BrokerInfo K :=
  { b with score := if b.isAvailable then weightedScore w b.latency b.bandwidth b.connectionCount
                    else 0 }

/-- The body of `mark_broker_unavailable` on the record it finds. -/
def BrokerInfo.markUnavailable (b : BrokerInfo K) : BrokerInfo K :=
  { b with isAvailable := false, score := 0 }

/-- The constructor `BrokerInfo(broker_uri)`: no metric measured, score `0`, available. -/
def BrokerInfo.init (uri : String) (now : ℕ) : BrokerInfo K :=
  ⟨uri, 0, 0, 0, 0, true, now⟩

theorem latencyScore_mem (l : K) : 0 ≤ latencyScore l ∧ latencyScore l ≤ 1 := by
  unfold latencyScore
  split_ifs with h
  · exact ⟨le_max_left _ _, max_le zero_le_one (sub_le_self _ (div_pos h (by norm_num)).le)⟩
  · norm_num

theorem bandwidthScore_mem (bw : K) : 0 ≤ bandwidthScore bw ∧ bandwidthScore bw ≤ 1 := by
  unfold bandwidthScore
  split_ifs with h
  · exact ⟨le_min zero_le_one (div_pos h (by norm_num)).le, min_le_left _ _⟩
  · norm_num

theorem connectionScore_mem (c : ℤ) : 0 ≤ (connectionScore c : K) ∧ (connectionScore c : K) ≤ 1 := by
  unfold connectionScore
  split_ifs with h
  · have : (0 : K) < c := by exact_mod_cast h
    exact ⟨le_max_left _ _, max_le zero_le_one (sub_le_self _ (div_pos this (by norm_num)).le)⟩
  · norm_num

@[simp] theorem latencyScore_zero : latencyScore (0 : K) = 0 := by simp [latencyScore]
@[simp] theorem bandwidthScore_zero : bandwidthScore (0 : K) = 0 := by simp [bandwidthScore]
@[simp] theorem connectionScore_zero : (connectionScore 0 : K) = 0 := by simp [connectionScore]

/-! ## Weight profiles -/

/-- A profile is a convex combination: nonnegative weights summing to `1`. -/
structure ScoreWeights.Valid (w : ScoreWeights K) : Prop where
  latency_nonneg : 0 ≤ w.latency
  bandwidth_nonneg : 0 ≤ w.bandwidth
  connection_nonneg : 0 ≤ w.connection
  sum_eq_one : w.latency + w.bandwidth + w.connection = 1

/-- The profile `(0.6, 0.2, 0.2)` of `"sensor"`, which five categories share. -/
theorem sensorWeights_valid : (sensorWeights : ScoreWeights K).Valid :=
  ⟨by norm_num [sensorWeights], by norm_num [sensorWeights], by norm_num [sensorWeights],
    by norm_num [sensorWeights]⟩

theorem categoryWeights_valid : ∀ p ∈ categoryWeights (K := K), p.2.Valid := by
  have h622 : (⟨0.6, 0.2, 0.2⟩ : ScoreWeights K).Valid := sensorWeights_valid
  have h262 : (⟨0.2, 0.6, 0.2⟩ : ScoreWeights K).Valid :=
    ⟨by norm_num, by norm_num, by norm_num, by norm_num⟩
  simp only [categoryWeights, List.mem_cons, List.mem_singleton, forall_eq_or_imp,
    forall_eq, List.not_mem_nil, or_false]
  refine ⟨h622, h262, h622, h622, h622, ?_, h622, ?_, ?_, ?_, h262⟩ <;>
    exact ⟨by norm_num, by norm_num, by norm_num, by norm_num⟩

theorem valid_of_lookup {l : List (String × ScoreWeights K)} (hl : ∀ p ∈ l, p.2.Valid)
    {c : String} {w : ScoreWeights K} (h : l.lookup c = some w) : w.Valid := by
  induction l with
  | nil => simp at h
  | cons p l ih =>
    rw [List.lookup_cons] at h
    split at h
    · cases h; exact hl p (List.mem_cons_self _ _)
    · exact ih (fun q hq => hl q (List.mem_cons_of_mem _ hq)) h

/-- **Every category scores with a convex combination**, the fallback included. -/
theorem weightsFor_valid (category : String) : (weightsFor category : ScoreWeights K).Valid := by
  unfold weightsFor
  cases h : (categoryWeights (K := K)).lookup category with
  | none => exact sensorWeights_valid
  | some w => exact valid_of_lookup categoryWeights_valid h

/-! ## Scores -/

theorem weightedScore_mem {w : ScoreWeights K} (hw : w.Valid) (l bw : K) (c : ℤ) :
    0 ≤ weightedScore w l bw c ∧ weightedScore w l bw c ≤ 1 := by
  obtain ⟨h1, h2⟩ := latencyScore_mem l
  obtain ⟨h3, h4⟩ := bandwidthScore_mem bw
  obtain ⟨h5, h6⟩ := connectionScore_mem (K := K) c
  unfold weightedScore
  refine ⟨add_nonneg (add_nonneg (mul_nonneg h1 hw.latency_nonneg) (mul_nonneg h3 hw.bandwidth_nonneg))
    (mul_nonneg h5 hw.connection_nonneg), ?_⟩
  calc _ ≤ w.latency + w.bandwidth + w.connection :=
        add_le_add (add_le_add (mul_le_of_le_one_left hw.latency_nonneg h2)
          (mul_le_of_le_one_left hw.bandwidth_nonneg h4)) (mul_le_of_le_one_left hw.connection_nonneg h6)
    _ = 1 := hw.sum_eq_one

@[simp] theorem BrokerInfo.updateScore_uri (w : ScoreWeights K) (b : BrokerInfo K) :
    (b.updateScore w).uri = b.uri := rfl
@[simp] theorem BrokerInfo.updateScore_isAvailable (w : ScoreWeights K) (b : BrokerInfo K) :
    (b.updateScore w).isAvailable = b.isAvailable := rfl
@[simp] theorem BrokerInfo.updateScore_latency (w : ScoreWeights K) (b : BrokerInfo K) :
    (b.updateScore w).latency = b.latency := rfl
@[simp] theorem BrokerInfo.updateScore_bandwidth (w : ScoreWeights K) (b : BrokerInfo K) :
    (b.updateScore w).bandwidth = b.bandwidth := rfl
@[simp] theorem BrokerInfo.updateScore_connectionCount (w : ScoreWeights K) (b : BrokerInfo K) :
    (b.updateScore w).connectionCount = b.connectionCount := rfl
@[simp] theorem BrokerInfo.updateScore_lastCheck (w : ScoreWeights K) (b : BrokerInfo K) :
    (b.updateScore w).lastCheck = b.lastCheck := rfl

/-- **A recomputed score lies in `[0, 1]`.** -/
theorem BrokerInfo.updateScore_score_mem {w : ScoreWeights K} (hw : w.Valid) (b : BrokerInfo K) :
    0 ≤ (b.updateScore w).score ∧ (b.updateScore w).score ≤ 1 := by
  unfold BrokerInfo.updateScore
  split_ifs
  · exact weightedScore_mem hw _ _ _
  · exact ⟨le_rfl, zero_le_one⟩

theorem BrokerInfo.updateScore_score_of_unavailable (w : ScoreWeights K) {b : BrokerInfo K}
    (h : b.isAvailable = false) : (b.updateScore w).score = 0 := by
  simp [BrokerInfo.updateScore, h]

@[simp] theorem BrokerInfo.markUnavailable_uri (b : BrokerInfo K) : b.markUnavailable.uri = b.uri := rfl
@[simp] theorem BrokerInfo.markUnavailable_isAvailable (b : BrokerInfo K) :
    b.markUnavailable.isAvailable = false := rfl
@[simp] theorem BrokerInfo.markUnavailable_score (b : BrokerInfo K) : b.markUnavailable.score = 0 := rfl

/-- A fresh record already carries the score `update_score` would give it. -/
theorem BrokerInfo.init_updateScore (w : ScoreWeights K) (uri : String) (now : ℕ) :
    (BrokerInfo.init uri now).updateScore w = BrokerInfo.init uri now := by
  simp [BrokerInfo.updateScore, BrokerInfo.init, weightedScore]

end PahoMqtt
