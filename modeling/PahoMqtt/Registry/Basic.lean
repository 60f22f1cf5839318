import PahoMqtt.Score
/-!
# The broker registry

`BrokerListManager` (broker_list_manager.h and its implementation): the records in
registration order, the index of the current one, and the category that picks the
weight profile. Every operation holds the registry's mutex for its whole body, so each
is one function of the registry here.

The three loops that stop at the first record with a given URI
(`update_broker_metrics`, `mark_broker_unavailable`, `mark_broker_available`) are one
definition, `updateFirst`, applied to each body. Its lemmas say once what the three
share: the URIs and the length do not move, and under unique URIs it is a `map`
(`updateFirst_eq_map`).
-/

namespace PahoMqtt

/-- `BrokerListManager`: `brokers_`, `current_broker_index_` and `category_`. -/
structure BrokerListManager (K : Type) where
  brokers : List (BrokerInfo K)
  currentBrokerIndex : ℕ
  category : String
  deriving DecidableEq, Repr

namespace BrokerListManager

variable {K : Type}

/-- The constructor `BrokerListManager(category)`. -/
def init (category : String) : BrokerListManager K := ⟨[], 0, category⟩

/-- The loop `for (auto& broker : brokers_) if (broker->uri == uri) { …; break; }`. -/
def updateFirst (uri : String) (f : BrokerInfo K → BrokerInfo K) :
    List (BrokerInfo K) → List (BrokerInfo K)
  | [] => []
  | b :: bs => if b.uri = uri then f b :: bs else b :: updateFirst uri f bs

/-! ## `updateFirst` -/

section updateFirst

variable {uri : String} {f : BrokerInfo K → BrokerInfo K}

@[simp] theorem length_updateFirst (l : List (BrokerInfo K)) :
    (updateFirst uri f l).length = l.length := by
  induction l with
  | nil => rfl
  | cons b bs ih => unfold updateFirst; split <;> simp [ih]

theorem map_uri_updateFirst (hf : ∀ b, (f b).uri = b.uri) (l : List (BrokerInfo K)) :
    (updateFirst uri f l).map (·.uri) = l.map (·.uri) := by
  induction l with
  | nil => rfl
  | cons b bs ih => unfold updateFirst; split <;> simp [hf, ih]

/-- What holds of every record, and of every record `f` rewrites, holds after the loop. -/
theorem forall_updateFirst {P : BrokerInfo K → Prop} {l : List (BrokerInfo K)}
    (h : ∀ b ∈ l, P b) (hf : ∀ b ∈ l, P (f b)) : ∀ b ∈ updateFirst uri f l, P b := by
  induction l with
  | nil => simp [updateFirst]
  | cons a as ih =>
    unfold updateFirst
    split
    · simpa [forall_eq_or_imp, hf a (List.mem_cons_self _ _)] using fun b hb => h b (List.mem_cons_of_mem _ hb)
    · simp only [List.mem_cons, forall_eq_or_imp]
      exact ⟨h a (List.mem_cons_self _ _), ih (fun b hb => h b (List.mem_cons_of_mem _ hb))
        (fun b hb => hf b (List.mem_cons_of_mem _ hb))⟩

/-- **Under unique URIs the loop is a `map`**: the first record with the URI is the only one. -/
theorem updateFirst_eq_map {l : List (BrokerInfo K)} (hnd : (l.map (·.uri)).Nodup) :
    updateFirst uri f l = l.map (fun b => if b.uri = uri then f b else b) := by
  induction l with
  | nil => rfl
  | cons a as ih =>
    simp only [List.map_cons, List.nodup_cons, List.mem_map] at hnd
    unfold updateFirst
    split
    · rename_i h
      have : ∀ b ∈ as, b.uri ≠ uri := fun b hb hbu => hnd.1 ⟨b, hb, hbu.trans h.symm⟩
      simp only [List.map_cons, if_pos h, List.cons.injEq, true_and]
      rw [List.map_congr_left (fun b hb => if_neg (this b hb)), List.map_id']
    · simp [*]

/-- A URI no record carries leaves the loop a no-op. -/
theorem updateFirst_of_not_mem {l : List (BrokerInfo K)} (h : uri ∉ l.map (·.uri)) :
    updateFirst uri f l = l := by
  induction l with
  | nil => rfl
  | cons a as ih =>
    simp only [List.map_cons, List.mem_cons, not_or] at h
    simp [updateFirst, Ne.symm h.1, ih h.2]

end updateFirst

/-- The index `remove_broker` leaves current after erasing index `removed` from a
registry now holding `size` records. -/
def reanchor (removed current size : ℕ) : ℕ :=
  if removed = current then
    if size = 0 then 0 else if size ≤ current then size - 1 else current
  else if removed < current then current - 1 else current

/-- `remove_broker`: erase the first record with this URI and re-anchor the index. -/
def removeBroker (uri : String) (r : BrokerListManager K) : BrokerListManager K :=
  match r.brokers.findIdx? (·.uri = uri) with
  | none => r
  | some i =>
    let brokers := r.brokers.eraseIdx i
    { r with brokers, currentBrokerIndex := reanchor i r.currentBrokerIndex brokers.length }

/-- `clear_brokers`. -/
def clearBrokers (r : BrokerListManager K) : BrokerListManager K :=
  { r with brokers := [], currentBrokerIndex := 0 }

/-- `get_broker_uris`. -/
def getBrokerUris (r : BrokerListManager K) : List String := r.brokers.map (·.uri)

/-- `get_current_broker`: `nullptr` (here `none`) when the registry is empty or the index
is out of range, which is exactly where `get?` fails. -/
def getCurrentBroker (r : BrokerListManager K) : Option (BrokerInfo K) :=
  r.brokers[r.currentBrokerIndex]?

/-- `get_current_broker_uri`: `""` when there is no current broker. -/
def getCurrentBrokerUri (r : BrokerListManager K) : String :=
  match r.getCurrentBroker with
  | some b => b.uri
  | none => ""

/-- `set_current_broker`: point the index at the first record with this URI. -/
def setCurrentBroker (uri : String) (r : BrokerListManager K) : Bool × BrokerListManager K :=
  match r.brokers.findIdx? (·.uri = uri) with
  | some i => (true, { r with currentBrokerIndex := i })
  | none => (false, r)

/-- `set_category`: the category alone; no record is rescored. -/
def setCategory (category : String) (r : BrokerListManager K) : BrokerListManager K :=
  { r with category }

variable [LinearOrderedField K]

/-- `add_broker`: a no-op on a registered URI; the first broker becomes current. -/
def addBroker (now : ℕ) (uri : String) (r : BrokerListManager K) : BrokerListManager K :=
  if r.brokers.any (·.uri = uri) then r
  else
    let brokers := r.brokers ++ [BrokerInfo.init uri now]
    { r with brokers, currentBrokerIndex := if brokers.length = 1 then 0 else r.currentBrokerIndex }

/-- The loop of `find_best_broker_internal`, from the record and score found so far:
a record replaces the best one only when available and of strictly larger score. -/
def findBestFrom (best : Option (BrokerInfo K)) (bestScore : K) :
    List (BrokerInfo K) → Option (BrokerInfo K)
  | [] => best
  | b :: bs =>
    if b.isAvailable ∧ bestScore < b.score then findBestFrom (some b) b.score bs
    else findBestFrom best bestScore bs

/-- `find_best_broker`: the loop started from `nullptr` and the sentinel `-1.0`. -/
def findBestBroker (r : BrokerListManager K) : Option (BrokerInfo K) :=
  if r.brokers.isEmpty then none else findBestFrom none (-1) r.brokers

/-- `should_switch_broker`: a best broker other than the current one, ahead by more
than `SWITCH_THRESHOLD = 0.1`. -/
def shouldSwitchBroker (r : BrokerListManager K) : Bool :=
  match r.getCurrentBroker, r.findBestBroker with
  | some current, some best => current.uri ≠ best.uri ∧ 0.1 < best.score - current.score
  | _, _ => false

/-- `update_broker_metrics`: store the three metrics and the clock, then rescore under
the category's profile. -/
def updateBrokerMetrics (now : ℕ) (uri : String) (latency bandwidth : K) (connectionCount : ℤ)
    (r : BrokerListManager K) : BrokerListManager K :=
  { r with brokers := updateFirst uri (fun b =>
      BrokerInfo.updateScore (weightsFor r.category)
        { b with latency, bandwidth, connectionCount, lastCheck := now }) r.brokers }

/-- `mark_broker_unavailable`. -/
def markBrokerUnavailable (uri : String) (r : BrokerListManager K) : BrokerListManager K :=
  { r with brokers := updateFirst uri BrokerInfo.markUnavailable r.brokers }

/-- `mark_broker_available`: set the flag, then rescore. -/
def markBrokerAvailable (uri : String) (r : BrokerListManager K) : BrokerListManager K :=
  { r with brokers := updateFirst uri (fun b =>
      BrokerInfo.updateScore (weightsFor r.category) { b with isAvailable := true }) r.brokers }

/-! ## Runs of the registry -/

/-- The registry's mutating operations, each with the arguments the caller passes.
`now` is the `steady_clock` reading the operation takes. -/
inductive Op (K : Type)
  | addBroker (now : ℕ) (uri : String)
  | removeBroker (uri : String)
  | clearBrokers
  | setCurrentBroker (uri : String)
  | updateBrokerMetrics (now : ℕ) (uri : String) (latency bandwidth : K) (connectionCount : ℤ)
  | markBrokerUnavailable (uri : String)
  | markBrokerAvailable (uri : String)
  | setCategory (category : String)

/-- One operation on the registry. -/
def Op.apply : Op K → BrokerListManager K → BrokerListManager K
  | .addBroker now uri, r => r.addBroker now uri
  | .removeBroker uri, r => r.removeBroker uri
  | .clearBrokers, r => r.clearBrokers
  | .setCurrentBroker uri, r => (r.setCurrentBroker uri).2
  | .updateBrokerMetrics now uri l b c, r => r.updateBrokerMetrics now uri l b c
  | .markBrokerUnavailable uri, r => r.markBrokerUnavailable uri
  | .markBrokerAvailable uri, r => r.markBrokerAvailable uri
  | .setCategory c, r => r.setCategory c

/-- The registries a constructed `BrokerListManager` can reach. -/
inductive Reachable : BrokerListManager K → Prop
  | init (category : String) : Reachable (init category)
  | step {r : BrokerListManager K} (op : Op K) : Reachable r → Reachable (op.apply r)

/-! ## The fields each operation leaves alone -/

omit [LinearOrderedField K] in
@[simp] theorem brokers_setCurrentBroker (uri : String) (r : BrokerListManager K) :
    (r.setCurrentBroker uri).2.brokers = r.brokers := by
  unfold setCurrentBroker; split <;> rfl

@[simp] theorem category_addBroker (now : ℕ) (uri : String) (r : BrokerListManager K) :
    (r.addBroker now uri).category = r.category := by
  unfold addBroker; split <;> rfl

@[simp] theorem category_markBrokerUnavailable (uri : String) (r : BrokerListManager K) :
    (r.markBrokerUnavailable uri).category = r.category := rfl

@[simp] theorem currentBrokerIndex_markBrokerUnavailable (uri : String) (r : BrokerListManager K) :
    (r.markBrokerUnavailable uri).currentBrokerIndex = r.currentBrokerIndex := rfl

@[simp] theorem length_markBrokerUnavailable (uri : String) (r : BrokerListManager K) :
    (r.markBrokerUnavailable uri).brokers.length = r.brokers.length := by
  simp [markBrokerUnavailable]

@[simp] theorem map_uri_markBrokerUnavailable (uri : String) (r : BrokerListManager K) :
    (r.markBrokerUnavailable uri).brokers.map (·.uri) = r.brokers.map (·.uri) :=
  map_uri_updateFirst (f := BrokerInfo.markUnavailable) (fun _ => rfl) _

end BrokerListManager

end PahoMqtt
