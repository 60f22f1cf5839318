import PahoMqtt.Manager.Delivery
import PahoMqtt.Manager.Registry
import PahoMqtt.ConnectionCount
/-!
# The publisher application

`main` of `self_adaptive_publisher.cpp` reads its category and its brokers from the command
line, builds a manager of that category and hands it the brokers (`set_brokers`), then
starts the monitor and connects. Its loop publishes, while the manager is connected and at
least `PUBLISH_INTERVAL_SECONDS` after its last publish, the message
`"Hello from self-adaptive publisher! Message #"` followed by `++message_count`. It also
reconnects whenever it finds the manager disconnected.

The first argument is always the category, and the brokers are the arguments after it, or
the three local defaults when there are none (`parseArgs`). So a broker URI given first is
taken for the category and is not registered. The registry after start-up holds one fresh
record per distinct URI, in order, with the first one current (`startup_brokerManager`).

The loop hands `publish` the messages numbered `1, 2, …`, in order, each at least five
seconds after the one before and the first five seconds after start-up (`run_published`).
Their payloads differ, since a number written in decimal reads back (`digitsValue`). The
manager's offline queue follows a run of the queue model, whose queue is the manager's and
which evicts only from a full queue (`refines_run`). Against that run every message of the
publisher is accepted by a client, evicted or still waiting, exactly once. So the clients
are never handed one of them twice (`publisher_messages`).
-/

namespace PahoMqtt

namespace Publisher

/-- The brokers `main` falls back to when the command line names none. -/
def defaultBrokerUris : List String :=
  ["mqtt://localhost:1883", "mqtt://localhost:1884", "mqtt://localhost:1885"]

/-- `main`'s reading of `argv[1]`, …, `argv[argc - 1]`: the category, `"sensor"` when there
is no argument, and the broker URIs, the arguments after the category or the defaults when
there are none. -/
def parseArgs (args : List String) : String × List String :=
  let (category, brokerUris) := match args with
    | [] => ("sensor", [])
    | category :: uris => (category, uris)
  (category, if brokerUris.isEmpty then defaultBrokerUris else brokerUris)

/-- The manager `main` builds at `now`: `SelfAdaptiveMqttManager(…, category)`, then
`set_brokers(broker_uris)`. -/
def startup {K : Type} [LinearOrderedField K] (now : ℕ) (args : List String) :
    SelfAdaptiveMqttManager K :=
  (SelfAdaptiveMqttManager.init (parseArgs args).1).setBrokers now (parseArgs args).2

theorem category_foldl_addBroker {K : Type} [LinearOrderedField K] (now : ℕ) (uris : List String)
    (r : BrokerListManager K) : (uris.foldl (fun r uri => r.addBroker now uri) r).category = r.category := by
  induction uris generalizing r with
  | nil => rfl
  | cons uri uris ih => rw [List.foldl_cons, ih, BrokerListManager.category_addBroker]

/-- **The first argument is always the category.** After start-up the registry has the first
argument for its category (`"sensor"` with no argument). It holds a fresh record for each
distinct URI among the arguments after the first, in order, or among the three defaults
when there are none, and the first record is current. -/
theorem startup_brokerManager {K : Type} [LinearOrderedField K] (now : ℕ) (args : List String) :
    (startup now args : SelfAdaptiveMqttManager K).brokerManager.category = args.headD "sensor" ∧
    (startup now args : SelfAdaptiveMqttManager K).brokerManager.brokers =
      (if args.drop 1 = [] then defaultBrokerUris else args.drop 1).eraseDups.map
        (BrokerInfo.init · now) ∧
    (startup now args : SelfAdaptiveMqttManager K).brokerManager.currentBrokerIndex = 0 := by
  obtain ⟨hb, hi⟩ := BrokerListManager.foldl_addBroker_clearBrokers (K := K) now (parseArgs args).2
    (BrokerListManager.init (parseArgs args).1)
  have huris : (parseArgs args).2 = if args.drop 1 = [] then defaultBrokerUris else args.drop 1 := by
    cases args <;> simp [parseArgs]
  refine ⟨?_, ?_, hi⟩
  · rw [startup, SelfAdaptiveMqttManager.setBrokers, category_foldl_addBroker]
    cases args <;> rfl
  · rw [← huris]
    exact hb

/-- A URI given alone is taken for the category, and the defaults are registered. -/
example : (startup 0 ["tcp://a"] : SelfAdaptiveMqttManager ℚ).brokerManager.category = "tcp://a" ∧
    (startup 0 ["tcp://a"] : SelfAdaptiveMqttManager ℚ).brokerManager.getBrokerUris =
      defaultBrokerUris :=
  ⟨rfl, rfl⟩

/-! ## The main loop -/

/-- `PUBLISH_INTERVAL_SECONDS`. -/
def publishIntervalSeconds : ℕ := 5

/-- The payload of the `k`-th message: `"Hello from self-adaptive publisher! Message #" +
to_string(k)`. -/
def helloPayload (k : ℕ) : String :=
  "Hello from self-adaptive publisher! Message #" ++ String.mk (decimal k)

/-- The `k`-th message `main` publishes: `publish("test/message", payload, 1, false)`. -/
def helloMessage (k : ℕ) : QueuedMessage :=
  ⟨"test/message", helloPayload k, 1, false⟩

theorem decimal_natCast (k : ℕ) : decimal k = decimalDigits k := by
  simp [decimal]

/-- Distinct numbers make distinct messages: a number written in decimal reads back. -/
theorem helloMessage_injective : Function.Injective helloMessage := by
  intro k k' h
  have hp : (decimal k : List Char) = decimal k' :=
    List.append_cancel_left (congrArg (fun m => m.payload.data) h)
  rw [decimal_natCast, decimal_natCast] at hp
  rw [← digitsValue_decimalDigits k, hp, digitsValue_decimalDigits]

/-- `message_count` and `last_publish_time`, in milliseconds of `steady_clock`. -/
structure MainLoop where
  messageCount : ℕ
  lastPublishTime : ℕ
  deriving DecidableEq, Repr

namespace MainLoop

/-- The publish of an iteration begun at `now` that finds the manager connected or not: when
`PUBLISH_INTERVAL_SECONDS` have gone by, `++message_count`, the message handed to
`publish`, and `last_publish_time = now`. -/
def publishStep (now : ℕ) (connected : Bool) (loop : MainLoop) : MainLoop × Option QueuedMessage :=
  if connected ∧ publishIntervalSeconds ≤ (now - loop.lastPublishTime) / 1000 then
    (⟨loop.messageCount + 1, now⟩, some (helloMessage (loop.messageCount + 1)))
  else (loop, none)

/-- The loop over its iterations, each with the reading it began at and what `is_connected()`
returned at its publish check: the state at the end, and the messages handed to `publish`
with their readings, in order. -/
def run : List (ℕ × Bool) → MainLoop → MainLoop × List (ℕ × QueuedMessage)
  | [], loop => (loop, [])
  | (now, connected) :: iters, loop =>
    let x := loop.publishStep now connected
    let rest := run iters x.1
    (rest.1, (x.2.map (now, ·)).toList ++ rest.2)

/-- An iteration either publishes the next message, at least five seconds after the last, or
changes nothing. -/
theorem publishStep_cases (now : ℕ) (connected : Bool) (loop : MainLoop) :
    (loop.publishStep now connected = (loop, none)) ∨
    (loop.lastPublishTime + 5000 ≤ now ∧
      loop.publishStep now connected =
        (⟨loop.messageCount + 1, now⟩, some (helloMessage (loop.messageCount + 1)))) := by
  unfold publishStep
  split_ifs with h
  · exact .inr ⟨by simp only [publishIntervalSeconds] at h; omega, rfl⟩
  · exact .inl rfl

/-- **The loop publishes the messages numbered in order, five seconds apart.** Over every run
the messages handed to `publish` are those numbered after `message_count`, in order, and each
is handed over at least five seconds after the one before it, the first at least five seconds
after `last_publish_time`. -/
theorem run_published : ∀ (iters : List (ℕ × Bool)) (loop : MainLoop),
    loop.messageCount ≤ (run iters loop).1.messageCount ∧
    (run iters loop).2.map (·.2) =
      (List.range ((run iters loop).1.messageCount - loop.messageCount)).map
        (fun i => helloMessage (loop.messageCount + i + 1)) ∧
    (loop.lastPublishTime :: (run iters loop).2.map (·.1)).Chain' (fun t t' => t + 5000 ≤ t')
  | [], loop => by simp [run]
  | (now, connected) :: iters, loop => by
    obtain ⟨hc, hm, ht⟩ := run_published iters (loop.publishStep now connected).1
    rcases publishStep_cases now connected loop with hs | ⟨hle, hs⟩
    · -- no publish in this iteration
      simp only [run, hs, Option.map_none', Option.toList_none, List.nil_append] at hc hm ht ⊢
      exact ⟨hc, hm, ht⟩
    · -- the next message, then the rest of the run
      simp only [run, hs, Option.map_some', Option.toList_some, List.singleton_append,
        List.map_cons] at hc hm ht ⊢
      refine ⟨by omega, ?_, List.Chain'.cons hle ht⟩
      rw [hm, show (run iters ⟨loop.messageCount + 1, now⟩).1.messageCount - loop.messageCount =
        (run iters ⟨loop.messageCount + 1, now⟩).1.messageCount - (loop.messageCount + 1) + 1 by omega,
        List.range_succ_eq_map, List.map_cons, List.map_map]
      congr 1
      exact List.map_congr_left fun i _ => by simp only [Function.comp_apply]; congr 1; omega

end MainLoop

/-! ## The publisher and the manager -/

open SelfAdaptiveMqttManager
open scoped List

/-- **The clients never receive one of the publisher's messages twice.** Take any run of a
new manager on which the application's `publish` calls are those of `main`'s loop. There is
a run of the queue model whose queue is the manager's, which enqueues only the loop's
messages, in order, and whose flushed messages the clients accepted. Every message the loop
hands over, numbered `1, …, n` in order, is accepted by a client, evicted by that run from a
full queue, or still waiting, exactly once. No message is accepted twice. -/
theorem publisher_messages {K : Type} [LinearOrderedField K] {category : String}
    {es : List (Event K)} {s : SelfAdaptiveMqttManager K}
    (hrun : SelfAdaptiveMqttManager.run es (init category) = some s) (iters : List (ℕ × Bool))
    (start : ℕ) (hpub : es.flatMap Event.published = (MainLoop.run iters ⟨0, start⟩).2.map (·.2)) :
    (∃ ops : List QueueOp, (runQueue ops []).1 = s.messageQueue ∧
      ops.flatMap QueueOp.added <+
        (List.range (MainLoop.run iters ⟨0, start⟩).1.messageCount).map (fun i => helloMessage (i + 1)) ∧
      (runQueue ops []).2.filterMap Exit.forwardedMessage <+ s.sent ∧
      s.sent ++ (runQueue ops []).2.filterMap Exit.evictedMessage ++ s.messageQueue ~
        (List.range (MainLoop.run iters ⟨0, start⟩).1.messageCount).map (fun i => helloMessage (i + 1))) ∧
    s.sent.Nodup := by
  obtain ⟨-, hm, -⟩ := MainLoop.run_published iters ⟨0, start⟩
  obtain ⟨ops, hq, ha, hf, hc⟩ := refines_run hrun
  rw [hpub, hm] at ha hc
  simp only [init, List.nil_append, List.append_nil, Nat.zero_add, Nat.sub_zero] at hq ha hf hc
  have hnd : ((List.range (MainLoop.run iters ⟨0, start⟩).1.messageCount).map
      (fun i => helloMessage (i + 1))).Nodup :=
    (List.nodup_range _).map fun i j h => Nat.succ_injective (helloMessage_injective h)
  refine ⟨⟨ops, hq, ha, hf, hc.symm⟩, (hc.nodup_iff.1 hnd).sublist ?_⟩
  exact (List.sublist_append_left _ _).trans (List.sublist_append_left _ _)

/-- One iteration five seconds after start-up that finds the manager connected; the manager
has lost its connection by the time the message reaches it, and queues it. -/
theorem publisher_messages_queued :
    SelfAdaptiveMqttManager.run [.publish allUp (helloMessage 1)] (init "sensor") =
      some ((init "sensor" : SelfAdaptiveMqttManager ℚ).publish allUp (helloMessage 1)).2 ∧
    [Event.publish allUp (helloMessage 1) (K := ℚ)].flatMap Event.published =
      (MainLoop.run [(5000, true)] ⟨0, 0⟩).2.map (·.2) ∧
    (∃ ops : List QueueOp, (runQueue ops []).1 =
        ((init "sensor" : SelfAdaptiveMqttManager ℚ).publish allUp (helloMessage 1)).2.messageQueue ∧
      ops.flatMap QueueOp.added <+
        (List.range (MainLoop.run [(5000, true)] ⟨0, 0⟩).1.messageCount).map
          (fun i => helloMessage (i + 1)) ∧
      (runQueue ops []).2.filterMap Exit.forwardedMessage <+
        ((init "sensor" : SelfAdaptiveMqttManager ℚ).publish allUp (helloMessage 1)).2.sent ∧
      ((init "sensor" : SelfAdaptiveMqttManager ℚ).publish allUp (helloMessage 1)).2.sent ++
          (runQueue ops []).2.filterMap Exit.evictedMessage ++
          ((init "sensor" : SelfAdaptiveMqttManager ℚ).publish allUp (helloMessage 1)).2.messageQueue ~
        (List.range (MainLoop.run [(5000, true)] ⟨0, 0⟩).1.messageCount).map
          (fun i => helloMessage (i + 1))) ∧
    ((init "sensor" : SelfAdaptiveMqttManager ℚ).publish allUp (helloMessage 1)).2.sent.Nodup :=
  have hrun : SelfAdaptiveMqttManager.run [.publish allUp (helloMessage 1)] (init "sensor") =
      some ((init "sensor" : SelfAdaptiveMqttManager ℚ).publish allUp (helloMessage 1)).2 := rfl
  have hpub : [Event.publish allUp (helloMessage 1) (K := ℚ)].flatMap Event.published =
      (MainLoop.run [(5000, true)] ⟨0, 0⟩).2.map (·.2) := rfl
  ⟨hrun, hpub, publisher_messages hrun [(5000, true)] 0 hpub⟩

end Publisher

end PahoMqtt
