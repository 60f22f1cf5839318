import PahoMqtt.Registry.Invariant
/-!
# Selecting the best broker

`find_best_broker` scans the records once, replacing its candidate only on an available
record of strictly larger score, from the sentinel `-1.0`. `findBestFrom_spec` says what
the scan returns from any candidate and any sentinel; on a registry satisfying `Inv`
every available score is at least `0`, above the sentinel, so the scan returns the
earliest available record of maximal score (`findBestBroker_spec`).

`should_switch_broker` compares the URIs of the current and the best record, and their
scores. Under unique URIs a best record with the current URI is the current record, so the
decision reads only scores: a switch is advised exactly when some available record scores
more than `0.1` above the current one (`shouldSwitchBroker_iff`), whichever best record the
scan picks.
-/

namespace PahoMqtt

namespace BrokerListManager

variable {K : Type} [LinearOrderedField K]

/-- `b`, at index `i` of `l`, is available, scores at least as much as every available
record, and strictly more than every available record registered before it. -/
def IsFirstBest (l : List (BrokerInfo K)) (i : ℕ) (b : BrokerInfo K) : Prop :=
  l[i]? = some b ∧ b.isAvailable ∧ (∀ c ∈ l, c.isAvailable → c.score ≤ b.score) ∧
    ∀ c ∈ l.take i, c.isAvailable → c.score < b.score

/-- There is at most one earliest best record. -/
theorem IsFirstBest.unique {l : List (BrokerInfo K)} {i j : ℕ} {b b' : BrokerInfo K}
    (h : IsFirstBest l i b) (h' : IsFirstBest l j b') : i = j ∧ b = b' := by
  have key : ∀ {i j b b'}, IsFirstBest l i b → IsFirstBest l j b' → ¬ i < j :=
    fun {i j b b'} h h' hij => by
      have hb : b ∈ l.take j := by
        rw [List.mem_iff_getElem?]; exact ⟨i, by rw [List.getElem?_take_of_lt hij]; exact h.1⟩
      exact absurd (h.2.2.1 b' (List.getElem?_mem h'.1) h'.2.1)
        (not_le.2 (h'.2.2.2 b hb h.2.1))
  obtain rfl : i = j := by have := @key i j b b' h h'; have := @key j i b' b h' h; omega
  exact ⟨rfl, Option.some.inj (h.1.symm.trans h'.1)⟩

/-- **What the scan returns.** Either no available record beats the sentinel and the
candidate comes back, or the earliest best record comes back, and it beats the sentinel. -/
theorem findBestFrom_spec (best : Option (BrokerInfo K)) (s : K) (l : List (BrokerInfo K)) :
    (findBestFrom best s l = best ∧ ∀ c ∈ l, c.isAvailable → c.score ≤ s) ∨
      ∃ i b, findBestFrom best s l = some b ∧ s < b.score ∧ IsFirstBest l i b := by
  induction l generalizing best s with
  | nil => exact .inl ⟨rfl, fun _ h => absurd h (List.not_mem_nil _)⟩
  | cons a l ih =>
    unfold findBestFrom
    split
    · rename_i ha
      refine .inr ?_
      rcases ih (some a) a.score with ⟨hr, hl⟩ | ⟨i, b, hr, hab, hb⟩
      · exact ⟨0, a, hr, ha.2, List.getElem?_cons_zero, ha.1, List.forall_mem_cons.2 ⟨fun _ => le_rfl, hl⟩, by simp⟩
      · refine ⟨i + 1, b, hr, ha.2.trans hab, by simpa using hb.1, hb.2.1,
          List.forall_mem_cons.2 ⟨fun _ => hab.le, hb.2.2.1⟩, ?_⟩
        exact List.forall_mem_cons.2 ⟨fun _ => hab, hb.2.2.2⟩
    · rename_i ha
      have ha' : a.isAvailable → a.score ≤ s := fun h => not_lt.1 fun h' => ha ⟨h, h'⟩
      rcases ih best s with ⟨hr, hl⟩ | ⟨i, b, hr, hsb, hb⟩
      · exact .inl ⟨hr, List.forall_mem_cons.2 ⟨ha', hl⟩⟩
      · refine .inr ⟨i + 1, b, hr, hsb, by simpa using hb.1, hb.2.1,
          List.forall_mem_cons.2 ⟨fun h => (ha' h).trans hsb.le, hb.2.2.1⟩, ?_⟩
        exact List.forall_mem_cons.2 ⟨fun h => (ha' h).trans_lt hsb, hb.2.2.2⟩

/-- **`find_best_broker` returns the earliest available record of maximal score**, and
`nullptr` exactly when no record is available. -/
theorem findBestBroker_spec {r : BrokerListManager K} (h : r.Inv) :
    (r.findBestBroker = none ↔ ∀ b ∈ r.brokers, b.isAvailable = false) ∧
      ∀ b, r.findBestBroker = some b ↔ ∃ i, IsFirstBest r.brokers i b := by
  have hpos : ∀ c ∈ r.brokers, c.isAvailable → (-1 : K) < c.score :=
    fun c hc _ => lt_of_lt_of_le (by norm_num) (h.sound c hc).1.1
  have hnone : (∀ b ∈ r.brokers, b.isAvailable = false) → r.findBestBroker = none := by
    intro hall
    unfold findBestBroker
    split
    · rfl
    · rcases findBestFrom_spec none (-1) r.brokers with ⟨hr, _⟩ | ⟨i, b, -, -, hb⟩
      · exact hr
      · exact absurd hb.2.1 (by simp [hall b (List.getElem?_mem hb.1)])
  rcases findBestFrom_spec none (-1) r.brokers with ⟨hr, hl⟩ | ⟨i, b, hr, -, hb⟩
  · have hall : ∀ b ∈ r.brokers, b.isAvailable = false := fun b hb => by
      by_contra hav
      exact absurd (hl b hb (by simpa using hav)) (not_le.2 (hpos b hb (by simpa using hav)))
    simp only [hnone hall, true_iff, reduceCtorEq, false_iff, not_exists]
    exact ⟨hall, fun b i hb => absurd hb.2.1 (by simp [hall b (List.getElem?_mem hb.1)])⟩
  · have hne : r.brokers ≠ [] := List.ne_nil_of_mem (List.getElem?_mem hb.1)
    have hbest : r.findBestBroker = some b := by
      simpa [findBestBroker, List.isEmpty_iff, hne] using hr
    refine ⟨by simpa [hbest] using ⟨b, List.getElem?_mem hb.1, hb.2.1⟩, fun b' => ?_⟩
    rw [hbest]
    exact ⟨fun e => ⟨i, Option.some.inj e ▸ hb⟩, fun ⟨j, hb'⟩ => by rw [(hb.unique hb').2]⟩

/-- The registry of two sensors, the second of which has been measured at `10` ms. -/
theorem findBestBroker_spec_measured :
    let r : BrokerListManager ℚ := (((init "sensor").addBroker 0 "tcp://a").addBroker 0
      "tcp://b").updateBrokerMetrics 1 "tcp://b" 10 0 0
    r.Inv ∧ ((r.findBestBroker = none ↔ ∀ b ∈ r.brokers, b.isAvailable = false) ∧
      ∀ b, r.findBestBroker = some b ↔ ∃ i, IsFirstBest r.brokers i b) :=
  have h := (((inv_init "sensor").addBroker 0 "tcp://a").addBroker 0 "tcp://b").apply
    (.updateBrokerMetrics 1 "tcp://b" 10 0 0)
  ⟨h, findBestBroker_spec h⟩

/-! ## The switching decision -/

/-- The record `find_best_broker` returns is registered and available. -/
theorem findBestBroker_mem {r : BrokerListManager K} {best : BrokerInfo K}
    (h : r.findBestBroker = some best) : best ∈ r.brokers ∧ best.isAvailable := by
  unfold findBestBroker at h
  split at h
  · cases h
  · rcases findBestFrom_spec none (-1) r.brokers with ⟨hr, -⟩ | ⟨i, b, hr, -, hb⟩
    · rw [hr] at h; cases h
    · obtain rfl : b = best := Option.some.inj (hr.symm.trans h)
      exact ⟨List.getElem?_mem hb.1, hb.2.1⟩

/-- On sound scores, as soon as one record is available the scan returns a record scoring
at least as much. -/
theorem exists_findBestBroker {r : BrokerListManager K} (h : r.Inv) {b : BrokerInfo K}
    (hb : b ∈ r.brokers) (ha : b.isAvailable) :
    ∃ best, r.findBestBroker = some best ∧ b.score ≤ best.score := by
  rcases findBestFrom_spec none (-1) r.brokers with ⟨-, hl⟩ | ⟨i, best, hr, -, hbest⟩
  · exact absurd (hl b hb ha) (not_le.2 (lt_of_lt_of_le (by norm_num) (h.sound b hb).1.1))
  · exact ⟨best, by simpa [findBestBroker, List.isEmpty_iff, List.ne_nil_of_mem hb] using hr,
      hbest.2.2.1 b hb ha⟩

/-- **`should_switch_broker` compares the current record with every available one.** In
every reachable registry it advises a switch exactly when there is a current record and
some available record scores more than `0.1` above it. Which of several best records the
scan picks plays no part, and a current record that is itself a best one, first or not, is
never switched away from. -/
theorem shouldSwitchBroker_iff {r : BrokerListManager K} (h : Reachable r) :
    r.shouldSwitchBroker = true ↔ ∃ current, r.getCurrentBroker = some current ∧
      ∃ b ∈ r.brokers, b.isAvailable ∧ 0.1 < b.score - current.score := by
  have hi := h.inv
  unfold shouldSwitchBroker
  constructor
  · intro hs
    split at hs
    · rename_i current best hc hbest
      exact ⟨current, hc, best, (findBestBroker_mem hbest).1, (findBestBroker_mem hbest).2,
        (of_decide_eq_true hs).2⟩
    · cases hs
  · rintro ⟨current, hc, b, hb, ha, hlt⟩
    obtain ⟨best, hbest, hle⟩ := exists_findBestBroker hi hb ha
    have hgap : 0.1 < best.score - current.score := by linarith
    have hne : current.uri ≠ best.uri := fun he => by
      obtain rfl := List.inj_on_of_nodup_map hi.nodup (List.getElem?_mem hc)
        (findBestBroker_mem hbest).1 he
      norm_num at hgap
    simp [hc, hbest, hne, hgap]

/-- Two sensors, the second measured at `10` ms while the first is current. -/
theorem shouldSwitchBroker_iff_measured :
    let r : BrokerListManager ℚ := (((init "sensor").addBroker 0 "tcp://a").addBroker 0
      "tcp://b").updateBrokerMetrics 1 "tcp://b" 10 0 0
    Reachable r ∧ (r.shouldSwitchBroker = true ↔ ∃ current, r.getCurrentBroker = some current ∧
      ∃ b ∈ r.brokers, b.isAvailable ∧ 0.1 < b.score - current.score) :=
  have h : Reachable ((((init "sensor" : BrokerListManager ℚ).addBroker 0 "tcp://a").addBroker 0
      "tcp://b").updateBrokerMetrics 1 "tcp://b" 10 0 0) :=
    .step (.updateBrokerMetrics 1 "tcp://b" 10 0 0) (.step (.addBroker 0 "tcp://b")
      (.step (.addBroker 0 "tcp://a") (.init "sensor")))
  ⟨h, shouldSwitchBroker_iff h⟩

end BrokerListManager

end PahoMqtt
