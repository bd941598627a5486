import Bedjet.Api.Notifying
import Bedjet.Asyncio.Queue
import Bedjet.Integrations.Mqtt

/-!
The bridge between the service and a broker: `run`, one session after the other,
the task that publishes what the queue holds, and what the broker keeps. A
connection can be lost at any time; the broker then publishes the will when it
notices, or when the bridge connects again.
-/

namespace Bedjet.Integrations

open Python Protocol Device Service Asyncio Api

/-- A snapshot, and when it was taken from the session; the code keeps no such
time. -/
structure Capture where
  snapshot : DeviceSnapshot
  time : ℚ

/-- The snapshot of the moment. -/
def Capture.of (cfg : Config) (s : System) : Capture where
  snapshot := s.snapshot cfg
  time := s.now

/-- What `is_available` says of it. -/
def Capture.isAvailable (c : Capture) : Bool :=
  Integrations.isAvailable c.snapshot

/-- The two halves of `_publish_state`. -/
inductive Stage | availability | state
  deriving DecidableEq

/-- The task of `_publish_loop`. -/
inductive Publisher
  /-- created, and has not run -/
  | scheduled
  /-- in `_outgoing.get` -/
  | getting
  | publishing (stage : Stage) (capture : Capture)
  /-- ended by an `MqttError` -/
  | failed

/-- Why a session ends. -/
inductive Leaving | mqttError | cancelled | raised
  deriving DecidableEq

/-- Where `run` is. -/
inductive RunPc
  /-- it has not been called -/
  | uncalled
  /-- in `Client.__aenter__` -/
  | connecting
  /-- publishing discovery, so many topics to go -/
  | announcing (left : ℕ)
  | subscribing
  /-- publishing the snapshot taken when the session begins -/
  | greeting (stage : Stage) (capture : Capture)
  /-- in the message loop -/
  | serving (publisher : Publisher)
  /-- awaiting the publisher it has cancelled -/
  | awaitingPublisher (publisher : Publisher) (why : Leaving)
  /-- publishing that it goes offline -/
  | sayingGoodbye (why : Leaving)
  /-- in `Client.__aexit__` -/
  | disconnecting (why : Leaving)
  /-- sleeping before the next session -/
  | retrying (due : ℚ)
  | ended

/-- A publish that is not acknowledged yet, discovery apart. -/
inductive Flight
  | half (stage : Stage) (capture : Capture)
  /-- that the bridge goes offline -/
  | goodbye

def RunPc.flight : RunPc → Option Flight
  | .greeting stage capture | .serving (.publishing stage capture)
  | .awaitingPublisher (.publishing stage capture) _ => some (.half stage capture)
  | .sayingGoodbye _ => some .goodbye
  | _ => none

/-- What the broker keeps of the bridge. -/
structure Broker where
  /-- retained on the availability topic -/
  availability : Option String := none
  /-- published on the state topic, the newest first; that one is retained -/
  states : List Capture := []
  /-- whether it holds a session of the bridge, with its will -/
  session : Bool := false

structure Bridge where
  system : System := {}
  pc : RunPc := .uncalled
  /-- `_outgoing` -/
  queue : Queue Capture 16 := .empty
  /-- whether the connection to the broker is up -/
  connected : Bool := false
  broker : Broker := {}

inductive BridgeAction
  | service (action : Action)
  /-- `run` is called -/
  | run
  /-- `Client.__aenter__` returns or raises an `MqttError` -/
  | connected
  | connectFailed
  /-- the publish that `run` awaits returns or raises an `MqttError` -/
  | published
  | publishFailed (delivered : Bool)
  | subscribed
  | subscribeFailed
  /-- the publisher runs for the first time -/
  | begun
  /-- it is woken by an entry of the queue -/
  | took
  /-- the publish that it awaits returns or raises an `MqttError` -/
  | publisherPublished
  | publisherFailed (delivered : Bool)
  /-- the messages, or a result published, raise an `MqttError` -/
  | messagesFailed
  /-- `_handle` raises anything else -/
  | handlerRaised
  /-- the task of `run` is cancelled -/
  | cancel (delivered : Bool)
  /-- the cancelled publisher has ended -/
  | publisherEnded (delivered : Bool)
  /-- `Client.__aexit__` is over -/
  | disconnected
  /-- it finds the connection lost, and raises an `MqttError` -/
  | disconnectFailed
  /-- the sleep before the next session is over -/
  | retried
  /-- the connection to the broker is lost -/
  | lost (delivered : Bool)
  /-- the broker notices -/
  | willed

/-- `discovery_payloads` has a climate, a number and a sensor. -/
def discoveryTopics : ℕ := 3

namespace Broker

def goOffline (broker : Broker) : Broker :=
  { broker with availability := some offline }

/-- A publish arrives. -/
def receive (broker : Broker) : Flight → Broker
  | .half .availability capture =>
      { broker with availability := some (if capture.isAvailable then online else offline) }
  | .half .state capture => { broker with states := capture :: broker.states }
  | .goodbye => broker.goOffline

/-- The bridge connects; a session it has left is over, and its will is done. -/
def accept (broker : Broker) : Broker :=
  if broker.session then broker.goOffline else { broker with session := true }

/-- The session is over without its will. -/
def close (broker : Broker) : Broker :=
  { broker with session := false }

end Broker

namespace Bridge

section

variable (cfg : Config) (config : MqttConfig) (b : Bridge)

def goto (pc : RunPc) : Bridge :=
  { b with pc }

/-- Whether `_enqueue` is subscribed to the session. -/
def listening : Bool :=
  match b.pc with
  | .uncalled | .ended => false
  | _ => true

/-- `_enqueue` -/
def enqueue (capture : Capture) : Bridge :=
  { b with queue := b.queue.putNewest (by decide) capture }

/-- The service has taken a step; `_notify` hands on the snapshot of the moment. -/
def observe (s : System) : Bridge :=
  if b.listening && b.system.notified s then { b with system := s }.enqueue (.of cfg s)
  else { b with system := s }

/-! ### Publishing -/

/-- The publish in flight arrives. -/
def deliver : Bridge :=
  match b.pc.flight with
  | some flight => { b with broker := b.broker.receive flight }
  | none => b

/-- The publish in flight is given up. Over a connection that is up it may have
arrived all the same. -/
def giveUp (delivered : Bool) : Option Bridge :=
  if delivered then if b.connected then some b.deliver else none else some b

/-- `_publish_loop` takes the next entry, or waits for one. -/
def publishNext : Bridge :=
  match b.queue.get? with
  | some (capture, queue) => { b with queue, pc := .serving (.publishing .availability capture) }
  | none => b.goto (.serving .getting)

/-! ### `run` and `_session` -/

def beginSession : Bridge :=
  b.goto (if config.discovery then .announcing discoveryTopics else .subscribing)

/-- `_session` has raised: `run` catches an `MqttError` and sleeps. -/
def leave : Leaving → Bridge
  | .mqttError => b.goto (.retrying (b.system.now + config.reconnectSeconds))
  | .cancelled | .raised => b.goto .ended

/-- The publish that `run` awaits returns. -/
def onPublished : Option Bridge :=
  match b.pc with
  | .announcing left =>
      some (b.goto (if left ≤ 1 then .subscribing else .announcing (left - 1)))
  | .greeting .availability capture => some (b.deliver.goto (.greeting .state capture))
  | .greeting .state _ => some (b.deliver.goto (.serving .scheduled))
  | .sayingGoodbye why => some (b.deliver.goto (.disconnecting why))
  | _ => none

/-- It raises an `MqttError`, which only the goodbye suppresses. -/
def onPublishFailed (delivered : Bool) : Option Bridge :=
  match b.pc with
  | .announcing _ | .greeting _ _ =>
      (b.giveUp delivered).map (goto · (.disconnecting .mqttError))
  | .sayingGoodbye why => (b.giveUp delivered).map (goto · (.disconnecting why))
  | _ => none

/-- The publish that the publisher awaits returns. -/
def onPublisherPublished : Option Bridge :=
  match b.pc with
  | .serving (.publishing .availability capture) =>
      some (b.deliver.goto (.serving (.publishing .state capture)))
  | .serving (.publishing .state _) => some b.deliver.publishNext
  | _ => none

/-- The message loop is left: its `finally` cancels the publisher and awaits it.
Awaiting one that has failed raises its `MqttError`, past the goodbye. -/
def leaveMessages (why : Leaving) : Option Bridge :=
  match b.pc with
  | .serving .failed => some (b.goto (.disconnecting .mqttError))
  | .serving publisher => some (b.goto (.awaitingPublisher publisher why))
  | _ => none

/-- The task of `run` is cancelled where it is suspended. While it awaits the
publisher, the cancellation is suppressed with the publisher's own. -/
def onCancel (delivered : Bool) : Option Bridge :=
  match b.pc with
  | .connecting | .retrying _ => some (b.goto .ended)
  | .announcing _ | .subscribing | .greeting _ _ | .sayingGoodbye _ =>
      (b.giveUp delivered).map (goto · (.disconnecting .cancelled))
  | .serving _ => b.leaveMessages .cancelled
  | .awaitingPublisher _ _ => some b
  | .uncalled | .disconnecting _ | .ended => none

/-- The publisher that was cancelled has ended. -/
def onPublisherEnded (delivered : Bool) : Option Bridge :=
  match b.pc with
  | .awaitingPublisher _ why => (b.giveUp delivered).map (goto · (.sayingGoodbye why))
  | _ => none

/-- `Client.__aexit__` tells the broker, if it can. -/
def onDisconnected : Option Bridge :=
  match b.pc with
  | .disconnecting why =>
      if b.connected then
        some ({ b with connected := false, broker := b.broker.close }.leave config why)
      else some (b.leave config why)
  | _ => none

/-! ### Steps -/

def step : BridgeAction → Option Bridge
  | .service a => ((System.machine cfg).step b.system a).map (b.observe cfg)
  | .run =>
      match b.pc with
      | .uncalled => some (b.goto .connecting)
      | _ => none
  | .connected =>
      match b.pc with
      | .connecting =>
          some ({ b with connected := true, broker := b.broker.accept }.beginSession config)
      | _ => none
  | .connectFailed =>
      match b.pc with
      | .connecting => some (b.leave config .mqttError)
      | _ => none
  | .published => if b.connected then b.onPublished else none
  | .publishFailed delivered => b.onPublishFailed delivered
  | .subscribed =>
      match b.pc with
      | .subscribing =>
          if b.connected then some (b.goto (.greeting .availability (.of cfg b.system))) else none
      | _ => none
  | .subscribeFailed =>
      match b.pc with
      | .subscribing => some (b.goto (.disconnecting .mqttError))
      | _ => none
  | .begun =>
      match b.pc with
      | .serving .scheduled => some b.publishNext
      | _ => none
  | .took =>
      match b.pc with
      | .serving .getting => some b.publishNext
      | _ => none
  | .publisherPublished => if b.connected then b.onPublisherPublished else none
  | .publisherFailed delivered =>
      match b.pc with
      | .serving (.publishing _ _) => (b.giveUp delivered).map (goto · (.serving .failed))
      | _ => none
  | .messagesFailed => b.leaveMessages .mqttError
  | .handlerRaised => b.leaveMessages .raised
  | .cancel delivered => b.onCancel delivered
  | .publisherEnded delivered => b.onPublisherEnded delivered
  | .disconnected => b.onDisconnected config
  | .disconnectFailed =>
      match b.pc with
      | .disconnecting _ => if b.connected then none else some (b.leave config .mqttError)
      | _ => none
  | .retried =>
      match b.pc with
      | .retrying due => if due ≤ b.system.now then some (b.goto .connecting) else none
      | _ => none
  | .lost delivered =>
      if b.connected then some { (if delivered then b.deliver else b) with connected := false }
      else none
  | .willed =>
      if !b.connected && b.broker.session then
        some { b with broker := b.broker.goOffline.close }
      else none

end

/-- The bridge and the service as one machine. -/
def machine (cfg : Config) (config : MqttConfig) : Machine Bridge BridgeAction where
  step b a := b.step cfg config a

end Bridge

end Bedjet.Integrations
