import PahoMqtt.Monitor
import PahoMqtt.Queue
/-!
# The session manager

`SelfAdaptiveMqttManager` as explicit state passing: the active client slot, the registry,
the two flags, the try cursor and the offline queue. Each public operation, callback and
private helper of the class is one function of the state.

The network is an `Oracle` per operation: whether a connect to each URI succeeds (the
outcome of `try_connect_to_broker`), and whether the `k`-th client publish of the
operation returns rather than throws. The state also logs the URIs connect attempts went
to (`attempts`) and the messages a client accepted (`sent`): the class keeps neither, and
they are the observations the statements speak about.

`handle_connection_failure` recurses with no syntactic measure, since each call re-reads
the registry. Every call advances `current_broker_try_index_`, and a call gives up once
the index passes the available snapshot, which is never longer than the registry; so
`switchToBestBroker` starts it with the registry's size as fuel, enough for every call
the source makes.
-/

namespace PahoMqtt

/-- What became of the connect attempt of the client in `client_`. -/
inductive ClientState
  /-- The attempt succeeded and the connection is up. -/
  | connected
  /-- The attempt failed (an exception or a non-zero return code). -/
  | failed
  /-- The attempt succeeded and the connection was lost since (`connection_lost`). -/
  | lost
  deriving DecidableEq, Repr

/-- The client in `client_`: the URI it was created for and its connection. -/
structure Client where
  uri : String
  state : ClientState
  deriving DecidableEq, Repr

/-- What the network answers during one operation. -/
structure Oracle where
  /-- Whether `try_connect_to_broker` succeeds on this URI. -/
  reach : String → Bool
  /-- Whether the `k`-th client publish of the operation returns rather than throws. -/
  deliver : ℕ → Bool

/-- The state of `SelfAdaptiveMqttManager`. Its configuration (`client_id_`,
`persistence_dir_`, `connect_options_`) and user callbacks are forwarded untouched and are
left out. `attempts` logs the URIs `try_connect_to_broker` was called on and `sent` the
messages handed to broker clients. -/
structure SelfAdaptiveMqttManager (K : Type) where
  client : Option Client
  brokerManager : BrokerListManager K
  isConnected : Bool
  isConnecting : Bool
  currentBrokerTryIndex : ℕ
  messageQueue : List QueuedMessage
  attempts : List String
  sent : List QueuedMessage
  deriving DecidableEq, Repr

namespace SelfAdaptiveMqttManager

variable {K : Type} [LinearOrderedField K]

/-- The constructor: no client, an empty registry of this category, both flags clear. -/
def init (category : String) : SelfAdaptiveMqttManager K :=
  ⟨none, BrokerListManager.init category, false, false, 0, [], [], []⟩

/-- The snapshot loop of `connect`, `handle_connection_failure` and
`switch_to_best_broker`: the URIs of the available records, in registration order. -/
def availableBrokerUris (r : BrokerListManager K) : List String :=
  (r.brokers.filter (·.isAvailable)).map (·.uri)

/-- `try_connect_to_broker`: a fresh client bound to `uri` replaces the old one, and its
connect attempt succeeds as the oracle says. -/
def tryConnectToBroker (o : Oracle) (uri : String) (s : SelfAdaptiveMqttManager K) :
    Bool × SelfAdaptiveMqttManager K :=
  (o.reach uri, { s with client := some ⟨uri, if o.reach uri then .connected else .failed⟩,
                         attempts := s.attempts ++ [uri] })

section tryConnect

omit [LinearOrderedField K]

variable (o : Oracle) (uri : String) (s : SelfAdaptiveMqttManager K)

@[simp] theorem tryConnectToBroker_fst : (s.tryConnectToBroker o uri).1 = o.reach uri := rfl
@[simp] theorem tryConnectToBroker_client : (s.tryConnectToBroker o uri).2.client =
    some ⟨uri, if o.reach uri then .connected else .failed⟩ := rfl
@[simp] theorem tryConnectToBroker_attempts :
    (s.tryConnectToBroker o uri).2.attempts = s.attempts ++ [uri] := rfl
@[simp] theorem tryConnectToBroker_brokerManager :
    (s.tryConnectToBroker o uri).2.brokerManager = s.brokerManager := rfl
@[simp] theorem tryConnectToBroker_isConnected :
    (s.tryConnectToBroker o uri).2.isConnected = s.isConnected := rfl
@[simp] theorem tryConnectToBroker_isConnecting :
    (s.tryConnectToBroker o uri).2.isConnecting = s.isConnecting := rfl
@[simp] theorem tryConnectToBroker_currentBrokerTryIndex :
    (s.tryConnectToBroker o uri).2.currentBrokerTryIndex = s.currentBrokerTryIndex := rfl

end tryConnect

/-- `resend_queued_messages`, through the client just connected. -/
def resendQueuedMessages (o : Oracle) (s : SelfAdaptiveMqttManager K) :
    SelfAdaptiveMqttManager K :=
  { s with messageQueue := (PahoMqtt.resendQueuedMessages o.deliver s.messageQueue).2,
           sent := s.sent ++ (PahoMqtt.resendQueuedMessages o.deliver s.messageQueue).1 }

/-- `add_message_to_queue`. -/
def addMessageToQueue (m : QueuedMessage) (s : SelfAdaptiveMqttManager K) :
    SelfAdaptiveMqttManager K :=
  { s with messageQueue := PahoMqtt.addMessageToQueue m s.messageQueue }

/-- The success branch of `connect`, `handle_connection_failure` and
`switch_to_best_broker`: make `uri` current, set the flags, put the cursor at `index`
(`i` in `connect`, `0` in the other two), and flush the queue. -/
def completeConnection (o : Oracle) (uri : String) (index : ℕ) (s : SelfAdaptiveMqttManager K) :
    SelfAdaptiveMqttManager K :=
  resendQueuedMessages o
    { s with
      brokerManager := (s.brokerManager.setCurrentBroker uri).2
      isConnected := true
      isConnecting := false
      currentBrokerTryIndex := index }

/-- The loop of `connect` from its `i`-th candidate. -/
def connectFrom (o : Oracle) : List String → ℕ → SelfAdaptiveMqttManager K →
    Bool × SelfAdaptiveMqttManager K
  | [], _, s => (false, { s with isConnecting := false })
  | uri :: rest, i, s =>
    if (s.tryConnectToBroker o uri).1 then (true, (s.tryConnectToBroker o uri).2.completeConnection o uri i)
    else connectFrom o rest (i + 1) { (s.tryConnectToBroker o uri).2 with
      brokerManager := s.brokerManager.markBrokerUnavailable uri }

/-- `connect`: a no-op returning `is_connected_` while connected or connecting; otherwise
try the available brokers in registration order. -/
def connect (o : Oracle) (s : SelfAdaptiveMqttManager K) : Bool × SelfAdaptiveMqttManager K :=
  if s.isConnected ∨ s.isConnecting then (s.isConnected, s)
  else if (availableBrokerUris s.brokerManager).isEmpty then (false, { s with isConnecting := false })
  else connectFrom o (availableBrokerUris s.brokerManager) 0 { s with isConnecting := true }

/-- `disconnect`: clear both flags and destroy the client. -/
def disconnect (s : SelfAdaptiveMqttManager K) : SelfAdaptiveMqttManager K :=
  { s with isConnected := false, isConnecting := false, client := none }

/-- `publish`: forward while connected, and queue when disconnected or when the forward
throws. The flag is whether a delivery token is returned. -/
def publish (o : Oracle) (m : QueuedMessage) (s : SelfAdaptiveMqttManager K) :
    Bool × SelfAdaptiveMqttManager K :=
  if !s.isConnected then (false, s.addMessageToQueue m)
  else if o.deliver 0 then (true, { s with sent := s.sent ++ [m] })
  else (false, s.addMessageToQueue m)

/-- `subscribe` (and `unsubscribe`): fail fast while disconnected. -/
def subscribe (s : SelfAdaptiveMqttManager K) : Except String Unit :=
  if !s.isConnected then .error "接続されていません" else .ok ()

/-- `get_current_broker_uri`. -/
def getCurrentBrokerUri (s : SelfAdaptiveMqttManager K) : String :=
  s.brokerManager.getCurrentBrokerUri

/-- `current_broker_try_index_` put back in range: `0` once it has passed the snapshot. -/
def wrapTryIndex (index size : ℕ) : ℕ := if size ≤ index then 0 else index

theorem wrapTryIndex_lt {index size : ℕ} (h : 0 < size) : wrapTryIndex index size < size := by
  unfold wrapTryIndex; split <;> omega

/-- `handle_connection_failure(failed_uri)`, with `fuel` bounding the calls left. -/
def handleConnectionFailure (o : Oracle) : ℕ → String → SelfAdaptiveMqttManager K →
    SelfAdaptiveMqttManager K
  | 0, _, s => s
  | fuel + 1, failedUri, s =>
    let s := { s with brokerManager := s.brokerManager.markBrokerUnavailable failedUri }
    let uris := availableBrokerUris s.brokerManager
    if uris.isEmpty then s
    else if h : s.currentBrokerTryIndex < uris.length then
      let nextUri := uris[s.currentBrokerTryIndex]
      if (s.tryConnectToBroker o nextUri).1 then
        (s.tryConnectToBroker o nextUri).2.completeConnection o nextUri 0
      else handleConnectionFailure o fuel nextUri { (s.tryConnectToBroker o nextUri).2 with
        currentBrokerTryIndex := s.currentBrokerTryIndex + 1 }
    else { s with currentBrokerTryIndex := 0, isConnecting := false }

/-- `switch_to_best_broker`: a no-op while connecting; otherwise destroy the client and
try `broker_uris[current_broker_try_index_]` of the available snapshot, falling through
`handle_connection_failure` on failure. -/
def switchToBestBroker (o : Oracle) (s : SelfAdaptiveMqttManager K) : SelfAdaptiveMqttManager K :=
  if s.isConnecting then s
  else
    let s := { s with isConnecting := true, client := none }
    let uris := availableBrokerUris s.brokerManager
    if h : uris = [] then { s with isConnecting := false }
    else
      let index := wrapTryIndex s.currentBrokerTryIndex uris.length
      have : index < uris.length := wrapTryIndex_lt (List.length_pos.2 h)
      let targetUri := uris[index]
      let s := { s with currentBrokerTryIndex := index }
      if (s.tryConnectToBroker o targetUri).1 then
        (s.tryConnectToBroker o targetUri).2.completeConnection o targetUri 0
      else { handleConnectionFailure o s.brokerManager.brokers.length targetUri
          { (s.tryConnectToBroker o targetUri).2 with currentBrokerTryIndex := index + 1 } with
          isConnecting := false }

/-- `on_broker_switch`: switch when the registry advises it. The URI is only logged. -/
def onBrokerSwitch (o : Oracle) (s : SelfAdaptiveMqttManager K) : SelfAdaptiveMqttManager K :=
  if s.brokerManager.shouldSwitchBroker then s.switchToBestBroker o else s

/-- `on_metrics_updated`: pass the best broker to `on_broker_switch` when the registry
advises a switch. The reported metrics are only logged. -/
def onMetricsUpdated (o : Oracle) (s : SelfAdaptiveMqttManager K) : SelfAdaptiveMqttManager K :=
  if s.brokerManager.shouldSwitchBroker then
    match s.brokerManager.findBestBroker with
    | some _ => s.onBrokerSwitch o
    | none => s
  else s

/-- `connection_lost`: clear `is_connected_`, then reconnect through `switch_to_best_broker`. -/
def connectionLost (o : Oracle) (s : SelfAdaptiveMqttManager K) : SelfAdaptiveMqttManager K :=
  switchToBestBroker o
    { s with isConnected := false, client := s.client.map fun c => { c with state := .lost } }

/-- `connected`: set `is_connected_`. -/
def connected (s : SelfAdaptiveMqttManager K) : SelfAdaptiveMqttManager K :=
  { s with isConnected := true }

/-- A monitor measurement and, when it reported an update, the manager's callback. -/
def afterMeasurement (o : Oracle) (s : SelfAdaptiveMqttManager K)
    (result : BrokerListManager K × Bool) : SelfAdaptiveMqttManager K :=
  if result.2 then onMetricsUpdated o { s with brokerManager := result.1 }
  else { s with brokerManager := result.1 }

/-! ## Runs of the manager -/

/-- The steps of a manager: the application's calls, the active client's callbacks, and
the monitor's measurements with the callback they fire. `now` is a `steady_clock` reading. -/
inductive Event (K : Type)
  | addBroker (now : ℕ) (uri : String)
  | removeBroker (uri : String)
  | setBrokers (now : ℕ) (uris : List String)
  | connect (o : Oracle)
  | disconnect
  | publish (o : Oracle) (m : QueuedMessage)
  | connected
  | connectionLost (o : Oracle)
  | measureLatency (o : Oracle) (now : ℕ) (uri : String) (result : Option K)
  | measureBandwidth (o : Oracle) (now : ℕ) (uri : String) (result : Option K)
  | checkConnectionCount (o : Oracle) (now : ℕ) (uri : String) (result : Option ℤ)

/-- `set_brokers`: clear the registry, then add each URI in order. -/
def setBrokers (now : ℕ) (uris : List String) (s : SelfAdaptiveMqttManager K) :
    SelfAdaptiveMqttManager K :=
  { s with
    brokerManager := uris.foldl (fun r uri => r.addBroker now uri) s.brokerManager.clearBrokers }

/-- Whether the active client's connection is up: the callbacks come from it alone. -/
def clientUp (s : SelfAdaptiveMqttManager K) : Bool :=
  s.client.any (·.state = .connected)

/-- One step, or `none` when the event cannot happen: a client callback with no live
client. -/
def step : Event K → SelfAdaptiveMqttManager K → Option (SelfAdaptiveMqttManager K)
  | .addBroker now uri, s => some { s with brokerManager := s.brokerManager.addBroker now uri }
  | .removeBroker uri, s => some { s with brokerManager := s.brokerManager.removeBroker uri }
  | .setBrokers now uris, s => some (s.setBrokers now uris)
  | .connect o, s => some (s.connect o).2
  | .disconnect, s => some s.disconnect
  | .publish o m, s => some (s.publish o m).2
  | .connected, s => if s.clientUp then some s.connected else none
  | .connectionLost o, s => if s.clientUp then some (s.connectionLost o) else none
  | .measureLatency o now uri v, s =>
      some (s.afterMeasurement o (BrokerMonitorThread.measureLatency now uri v s.brokerManager))
  | .measureBandwidth o now uri v, s =>
      some (s.afterMeasurement o (BrokerMonitorThread.measureBandwidth now uri v s.brokerManager))
  | .checkConnectionCount o now uri v, s =>
      some (s.afterMeasurement o (BrokerMonitorThread.checkConnectionCount now uri v s.brokerManager))

/-- A run: the steps of a list in order. -/
def run : List (Event K) → SelfAdaptiveMqttManager K → Option (SelfAdaptiveMqttManager K)
  | [], s => some s
  | e :: es, s => (step e s).bind (run es)

/-- The states a constructed manager can reach. -/
def Reachable (s : SelfAdaptiveMqttManager K) : Prop :=
  ∃ category es, run es (init category) = some s

/-- A run of a new manager that ends where `p` holds exhibits a reachable state where it
holds. -/
theorem exists_reachable_of_run (category : String) (es : List (Event K))
    {p : SelfAdaptiveMqttManager K → Bool} (h : (run es (init category)).any p = true) :
    ∃ s, Reachable s ∧ p s = true := by
  cases hr : run es (init category) with
  | none => simp [hr] at h
  | some s => exact ⟨s, ⟨category, es, hr⟩, by simpa [hr] using h⟩

end SelfAdaptiveMqttManager

end PahoMqtt
