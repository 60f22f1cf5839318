import PahoMqtt.Score
import PahoMqtt.Registry.Basic
import PahoMqtt.Registry.Invariant
import PahoMqtt.Registry.Select
import PahoMqtt.Registry.Rescore
import PahoMqtt.Registry.Edit
import PahoMqtt.Queue
import PahoMqtt.Reconnection
import PahoMqtt.Monitor
import PahoMqtt.MonitorLoop
import PahoMqtt.Bandwidth
import PahoMqtt.Latency
import PahoMqtt.ConnectionCount
import PahoMqtt.Consumer
import PahoMqtt.Topic.Split
import PahoMqtt.Topic.Filter
import PahoMqtt.Topic.Match
import PahoMqtt.Manager.Basic
import PahoMqtt.Manager.Connect
import PahoMqtt.Manager.Switch
import PahoMqtt.Manager.Step
import PahoMqtt.Manager.Registry
import PahoMqtt.Manager.Termination
import PahoMqtt.Manager.Delivery
import PahoMqtt.Manager.Monitoring
import PahoMqtt.Publisher
import PahoMqtt.MonitorThread.Lifecycle
import PahoMqtt.MonitorThread.Passes
