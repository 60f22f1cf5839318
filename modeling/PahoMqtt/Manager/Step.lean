import PahoMqtt.Manager.Switch
/-!
# What a step does

Apart from the application's calls that edit the registry (`add_broker`, `remove_broker`,
`set_brokers`) and `publish`, everything the manager runs (`connect`, `disconnect`, the
swaps, the client callbacks, the monitor's updates) does two kinds of things to the parts
of the state that last. It calls three operations of its registry:
`mark_broker_unavailable` after a failed connect or a thrown probe, `set_current_broker`
after a successful connect, and `update_broker_metrics` after a probe that returns
(`Touched`). And it flushes the offline queue through a client: the queue loses a prefix,
which the clients accept, in order (`Drains`). `Internal s s'` says both.

One lemma per operation proves `Internal` (`internal_connect`,
`internal_switchToBestBroker`, `internal_afterMeasurement`, ...), and `step_cases` says in
one statement what any step can do. The invariants of runs (the registry is a registry run,
availability only shrinks, no message is lost or duplicated) are derived from it.
`is_connecting_`, set and cleared inside one locked operation, is clear between any two
steps (`isConnecting_of_reachable`).
-/

namespace PahoMqtt

namespace BrokerListManager

variable {K : Type} [LinearOrderedField K]

/-- `r'` is `r` after some `mark_broker_unavailable`, `set_current_broker` and
`update_broker_metrics` calls. -/
inductive Touched (r : BrokerListManager K) : BrokerListManager K → Prop
  | refl : Touched r r
  | mark {r' : BrokerListManager K} (uri : String) :
      Touched r r' → Touched r (r'.markBrokerUnavailable uri)
  | setCurrent {r' : BrokerListManager K} (uri : String) :
      Touched r r' → Touched r (r'.setCurrentBroker uri).2
  | update {r' : BrokerListManager K} (now : ℕ) (uri : String) (latency bandwidth : K)
      (connectionCount : ℤ) :
      Touched r r' → Touched r (r'.updateBrokerMetrics now uri latency bandwidth connectionCount)

theorem Touched.trans {r r' r'' : BrokerListManager K} (h : Touched r r') (h' : Touched r' r'') :
    Touched r r'' := by
  induction h' with
  | refl => exact h
  | mark uri _ ih => exact ih.mark uri
  | setCurrent uri _ ih => exact ih.setCurrent uri
  | update now uri l b c _ ih => exact ih.update now uri l b c

end BrokerListManager

namespace SelfAdaptiveMqttManager

open BrokerListManager

variable {K : Type} [LinearOrderedField K]

/-- The queue of `s'` is the queue of `s` less a prefix, and the clients accepted that
prefix, in order, after what they had accepted in `s`. -/
def Drains (s s' : SelfAdaptiveMqttManager K) : Prop :=
  ∃ pre, s.messageQueue = pre ++ s'.messageQueue ∧ s'.sent = s.sent ++ pre

/-- What the manager's own code does between two states: calls that touch the registry,
and flushes of the queue. -/
structure Internal (s s' : SelfAdaptiveMqttManager K) : Prop where
  touched : Touched s.brokerManager s'.brokerManager
  drains : Drains s s'

section internal

variable {s t u : SelfAdaptiveMqttManager K}

omit [LinearOrderedField K] in
theorem Drains.frame (hq : t.messageQueue = s.messageQueue) (hs : t.sent = s.sent) : Drains s t :=
  ⟨[], by rw [hq, List.nil_append], by rw [hs, List.append_nil]⟩

/-- A call on the registry that leaves the queue and the log as they were. -/
theorem Internal.of_touched (h : Touched s.brokerManager t.brokerManager)
    (hq : t.messageQueue = s.messageQueue) (hs : t.sent = s.sent) : Internal s t :=
  ⟨h, .frame hq hs⟩

/-- A state that differs from `s` only in fields that do not last: the client, the flags,
the cursor, the attempts. -/
theorem Internal.frame (hb : t.brokerManager = s.brokerManager)
    (hq : t.messageQueue = s.messageQueue) (hs : t.sent = s.sent) : Internal s t :=
  .of_touched (hb ▸ .refl) hq hs

theorem Internal.trans (h : Internal s t) (h' : Internal t u) : Internal s u :=
  let ⟨ht, p, hq, hs⟩ := h
  let ⟨ht', p', hq', hs'⟩ := h'
  ⟨ht.trans ht', p ++ p', by rw [hq, hq', List.append_assoc], by rw [hs', hs, List.append_assoc]⟩

/-- `Internal` from a state that agrees with `s` on the registry, the queue and the log. -/
theorem Internal.congr_left (h : Internal t u) (hb : t.brokerManager = s.brokerManager)
    (hq : t.messageQueue = s.messageQueue) (hs : t.sent = s.sent) : Internal s u :=
  (Internal.frame hb hq hs).trans h

/-- `Internal` to a state that agrees with `t` on the registry, the queue and the log. -/
theorem Internal.congr_right (h : Internal s t) (hb : u.brokerManager = t.brokerManager)
    (hq : u.messageQueue = t.messageQueue) (hs : u.sent = t.sent) : Internal s u :=
  h.trans (.frame hb hq hs)

end internal

/-! ## Each operation of the manager is internal -/

section operations

variable (o : Oracle)

/-- The success branch: `set_current_broker` and a flush. -/
theorem internal_completeConnection (uri : String) (i : ℕ) (s : SelfAdaptiveMqttManager K) :
    Internal s (s.completeConnection o uri i) := by
  obtain ⟨j, -, hr, -⟩ := resendFrom_spec o.deliver 0 s.messageQueue
  refine ⟨Touched.refl.setCurrent uri, s.messageQueue.take j, ?_, ?_⟩ <;>
    simp [completeConnection, resendQueuedMessages, PahoMqtt.resendQueuedMessages, hr]

/-- A connect attempt that succeeds, and the success branch after it. -/
theorem internal_tryConnectToBroker_completeConnection (uri : String) (i : ℕ)
    (s : SelfAdaptiveMqttManager K) :
    Internal s ((s.tryConnectToBroker o uri).2.completeConnection o uri i) :=
  (internal_completeConnection o _ _ _).congr_left rfl rfl rfl

theorem internal_connectFrom (us : List String) (i : ℕ) (s : SelfAdaptiveMqttManager K) :
    Internal s (connectFrom o us i s).2 := by
  induction us generalizing i s with
  | nil => exact .frame rfl rfl rfl
  | cons u us ih =>
    unfold connectFrom
    split
    · exact internal_tryConnectToBroker_completeConnection o _ _ _
    · refine .trans ?_ (ih _ _)
      exact .of_touched (Touched.refl.mark u) rfl rfl

theorem internal_connect (s : SelfAdaptiveMqttManager K) : Internal s (s.connect o).2 := by
  unfold connect
  split
  · exact .frame rfl rfl rfl
  · split
    · exact .frame rfl rfl rfl
    · exact (internal_connectFrom o _ _ _).congr_left rfl rfl rfl

theorem internal_handleConnectionFailure (fuel : ℕ) (uri : String) (s : SelfAdaptiveMqttManager K) :
    Internal s (handleConnectionFailure o fuel uri s) := by
  induction fuel generalizing uri s with
  | zero => exact .frame rfl rfl rfl
  | succ fuel ih =>
    have hm : Internal s { s with brokerManager := s.brokerManager.markBrokerUnavailable uri } :=
      .of_touched (Touched.refl.mark uri) rfl rfl
    unfold handleConnectionFailure
    dsimp only
    split
    · exact hm
    · split
      · split
        · exact hm.trans (internal_tryConnectToBroker_completeConnection o _ _ _)
        · exact hm.trans ((ih _ _).congr_left rfl rfl rfl)
      · exact hm.trans (.frame rfl rfl rfl)

theorem internal_switchToBestBroker (s : SelfAdaptiveMqttManager K) :
    Internal s (s.switchToBestBroker o) := by
  unfold switchToBestBroker
  split
  · exact .frame rfl rfl rfl
  · dsimp only
    split
    · exact .frame rfl rfl rfl
    · split
      · exact (internal_tryConnectToBroker_completeConnection o _ _ _).congr_left rfl rfl rfl
      · refine ((internal_handleConnectionFailure o _ _ _).congr_left ?_ ?_ ?_).congr_right
          rfl rfl rfl <;> rfl

theorem internal_onMetricsUpdated (s : SelfAdaptiveMqttManager K) :
    Internal s (s.onMetricsUpdated o) := by
  unfold onMetricsUpdated onBrokerSwitch
  split
  · split
    · exact internal_switchToBestBroker o s
    · exact .frame rfl rfl rfl
  · exact .frame rfl rfl rfl

theorem internal_afterMeasurement (s : SelfAdaptiveMqttManager K)
    {result : BrokerListManager K × Bool} (hr : Touched s.brokerManager result.1) :
    Internal s (s.afterMeasurement o result) := by
  have h : Internal s { s with brokerManager := result.1 } := .of_touched hr rfl rfl
  unfold afterMeasurement
  split
  · exact h.trans (internal_onMetricsUpdated o _)
  · exact h

theorem internal_connectionLost (s : SelfAdaptiveMqttManager K) :
    Internal s (s.connectionLost o) :=
  (internal_switchToBestBroker o _).congr_left rfl rfl rfl

end operations

theorem touched_updateFromSnapshot (now : ℕ) (uri : String) (merge : BrokerInfo K → K × K × ℤ)
    (r : BrokerListManager K) : Touched r (BrokerMonitorThread.updateFromSnapshot now uri merge r).1 := by
  unfold BrokerMonitorThread.updateFromSnapshot
  split
  · exact Touched.refl.update _ _ _ _ _
  · exact .refl

omit [LinearOrderedField K] in
@[simp] theorem publish_brokerManager (o : Oracle) (m : QueuedMessage) (s : SelfAdaptiveMqttManager K) :
    (s.publish o m).2.brokerManager = s.brokerManager := by
  unfold publish; split <;> (try split) <;> rfl

/-! ## Steps -/

/-- The message a step publishes: the application's `publish`, and nothing else. -/
def Event.published : Event K → List QueuedMessage
  | .publish _ m => [m]
  | _ => []

theorem run_cons_eq_some {e : Event K} {es : List (Event K)} {s t : SelfAdaptiveMqttManager K} :
    run (e :: es) s = some t ↔ ∃ u, step e s = some u ∧ run es u = some t :=
  Option.bind_eq_some

/-- **What a step can do.** A step is one of the application's edits of the registry or a
`publish`, or it publishes nothing and is internal: it touches the registry and flushes the
queue. -/
theorem step_cases {e : Event K} {s s' : SelfAdaptiveMqttManager K} (h : step e s = some s') :
    (∃ now uri, e = .addBroker now uri ∧
      s' = { s with brokerManager := s.brokerManager.addBroker now uri }) ∨
    (∃ uri, e = .removeBroker uri ∧ s' = { s with brokerManager := s.brokerManager.removeBroker uri }) ∨
    (∃ now uris, e = .setBrokers now uris ∧ s' = s.setBrokers now uris) ∨
    (∃ o m, e = .publish o m ∧ s' = (s.publish o m).2) ∨
    (e.published = [] ∧ Internal s s') := by
  cases e with
  | addBroker now uri => cases h; exact .inl ⟨now, uri, rfl, rfl⟩
  | removeBroker uri => cases h; exact .inr (.inl ⟨uri, rfl, rfl⟩)
  | setBrokers now uris => cases h; exact .inr (.inr (.inl ⟨now, uris, rfl, rfl⟩))
  | publish o m => cases h; exact .inr (.inr (.inr (.inl ⟨o, m, rfl, rfl⟩)))
  | connect o => cases h; exact .inr (.inr (.inr (.inr ⟨rfl, internal_connect o s⟩)))
  | disconnect => cases h; exact .inr (.inr (.inr (.inr ⟨rfl, .frame rfl rfl rfl⟩)))
  | connected =>
    simp only [step] at h
    split at h <;> cases h
    exact .inr (.inr (.inr (.inr ⟨rfl, .frame rfl rfl rfl⟩)))
  | connectionLost o =>
    simp only [step] at h
    split at h <;> cases h
    exact .inr (.inr (.inr (.inr ⟨rfl, internal_connectionLost o s⟩)))
  | measureLatency o now uri v | measureBandwidth o now uri v =>
    cases h
    refine .inr (.inr (.inr (.inr ⟨rfl, internal_afterMeasurement o s ?_⟩)))
    cases v with
    | none => exact Touched.refl.mark _
    | some x => exact touched_updateFromSnapshot _ _ _ _
  | checkConnectionCount o now uri v =>
    cases h
    refine .inr (.inr (.inr (.inr ⟨rfl, internal_afterMeasurement o s ?_⟩)))
    cases v with
    | none => exact .refl
    | some x => exact touched_updateFromSnapshot _ _ _ _

/-! ## The connecting flag

`connect`, `disconnect` and `switch_to_best_broker` run under `connection_mutex_`; each sets
`is_connecting_` only inside the lock and clears it before it returns, and
`handle_connection_failure` runs inside `switch_to_best_broker`. So between two steps the
flag is always clear (`isConnecting_of_reachable`), and the early returns of `connect` and
`switch_to_best_broker` on `is_connecting_` never fire. -/

section connecting

variable (o : Oracle)

theorem isConnecting_connectFrom (us : List String) (i : ℕ) (s : SelfAdaptiveMqttManager K) :
    (connectFrom o us i s).2.isConnecting = false := by
  induction us generalizing i s with
  | nil => rfl
  | cons u us ih =>
    unfold connectFrom
    split
    · rfl
    · exact ih _ _

variable {s : SelfAdaptiveMqttManager K} (hs : s.isConnecting = false)
include hs

theorem isConnecting_connect : (s.connect o).2.isConnecting = false := by
  unfold connect
  split
  · exact hs
  · split
    · rfl
    · exact isConnecting_connectFrom o _ _ _

theorem isConnecting_switchToBestBroker : (s.switchToBestBroker o).isConnecting = false := by
  unfold switchToBestBroker
  split
  · exact hs
  · dsimp only
    split
    · rfl
    · split <;> rfl

theorem isConnecting_onMetricsUpdated : (s.onMetricsUpdated o).isConnecting = false := by
  unfold onMetricsUpdated onBrokerSwitch
  split
  · split
    · exact isConnecting_switchToBestBroker o hs
    · exact hs
  · exact hs

theorem isConnecting_afterMeasurement (r : BrokerListManager K × Bool) :
    (s.afterMeasurement o r).isConnecting = false := by
  unfold afterMeasurement
  split
  · exact isConnecting_onMetricsUpdated o hs
  · exact hs

end connecting

/-- **Between two steps no connect is under way.** -/
theorem isConnecting_step {e : Event K} {s t : SelfAdaptiveMqttManager K} (h : step e s = some t)
    (hs : s.isConnecting = false) : t.isConnecting = false := by
  cases e with
  | connect o => cases h; exact isConnecting_connect o hs
  | disconnect => cases h; rfl
  | publish o m =>
    cases h
    unfold publish
    split <;> (try split) <;> exact hs
  | connected =>
    simp only [step] at h
    split at h <;> cases h
    exact hs
  | connectionLost o =>
    simp only [step] at h
    split at h <;> cases h
    exact isConnecting_switchToBestBroker o hs
  | measureLatency o | measureBandwidth o | checkConnectionCount o =>
    cases h; exact isConnecting_afterMeasurement o hs _
  | addBroker | removeBroker | setBrokers => cases h; exact hs

theorem isConnecting_run {es : List (Event K)} {s t : SelfAdaptiveMqttManager K}
    (h : run es s = some t) (hs : s.isConnecting = false) : t.isConnecting = false := by
  induction es generalizing s with
  | nil => cases h; exact hs
  | cons e es ih =>
    obtain ⟨u, hu, h⟩ := run_cons_eq_some.1 h
    exact ih h (isConnecting_step hu hs)

/-- **In every reachable manager `is_connecting_` is clear.** -/
theorem isConnecting_of_reachable {s : SelfAdaptiveMqttManager K} (h : Reachable s) :
    s.isConnecting = false :=
  let ⟨_, _, hr⟩ := h
  isConnecting_run hr rfl

/-- A manager whose only broker refused the connect. -/
theorem isConnecting_of_reachable_refused :
    Reachable (((init "sensor" : SelfAdaptiveMqttManager ℚ).setBrokers 0 ["tcp://a"]).connect
      allDown).2 ∧
    (((init "sensor" : SelfAdaptiveMqttManager ℚ).setBrokers 0 ["tcp://a"]).connect
      allDown).2.isConnecting = false :=
  have h : Reachable (((init "sensor" : SelfAdaptiveMqttManager ℚ).setBrokers 0 ["tcp://a"]).connect
      allDown).2 := ⟨"sensor", [.setBrokers 0 ["tcp://a"], .connect allDown], rfl⟩
  ⟨h, isConnecting_of_reachable h⟩

end SelfAdaptiveMqttManager

end PahoMqtt
