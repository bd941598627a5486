import Bedjet.Integrations.BridgeSteps
import Bedjet.Integrations.Messages

/-!
The bridge and the message loop as one machine. A message is handled within a
session, one after the other; what its handling raises ends the session, and a
cancellation of `run` is raised wherever the handling awaits something.
-/

namespace Bedjet.Integrations

open Python Protocol Device Service Asyncio Api

/-- The bridge while it may be handling a message. -/
structure Serving where
  bridge : Bridge := {}
  handler : HandlerPc := .idle
  /-- the results in `_publish_result` -/
  reporting : List Publication := []
  /-- the commands that were cancelled with the handling of their message -/
  gone : List ℕ := []
  /-- how `run` ended -/
  ending : Option Leaving := none

inductive ServingAction
  | bridge (action : BridgeAction)
  | message (topic : String) (payload : Bytes) (span : ℚ)
  /-- the publish of a result returns -/
  | reported

/-- How `run` ends by a step from the one place to the other. -/
def RunPc.endsBy : RunPc → RunPc → Option Leaving
  | .disconnecting why, .ended => some why
  | .connecting, .ended | .retrying _, .ended => some .cancelled
  | _, _ => none

namespace Serving

section

variable (cfg : Config) (config : MqttConfig) (decimal : Char → Option ℕ) (s : Serving)

/-- The service and the message loop alone. -/
def messaging : Messaging where
  system := s.bridge.system
  handler := s.handler

/-- Whether the action would resume a command that was cancelled. -/
def resumesGone : Action → Bool
  | .wake j _ => s.gone.contains j
  | _ => false

/-- `run` has gone on. -/
def follow (bridge : Bridge) : Serving :=
  { s with bridge, ending := (s.bridge.pc.endsBy bridge.pc).or s.ending }

/-- The message loop is left, and with it the handling of a message. -/
def leaveMessages (why : Leaving) : Option Serving :=
  (s.bridge.leaveMessages why).map fun bridge =>
    { s with bridge, handler := .idle, reporting := [] }

/-- The service and the message loop have gone on. -/
def heard (m : Messaging) : Option Serving :=
  let s := { s with bridge := s.bridge.observe cfg m.system }
  match m.handler with
  | .raised _ => s.leaveMessages .raised
  | handler => some { s with handler, reporting := m.published ++ s.reporting }

/-- The task of `run` is cancelled while a message is handled by `yield_link`,
which takes the cancellation to its end or suppresses it. -/
def cancelYield (t : ℕ) : Option Serving := do
  let k ← s.bridge.system.lease.tasks[t]?
  let lease ← s.bridge.system.lease.cancelTask cfg t k.pc
  let s := { s with bridge := s.bridge.observe cfg (s.bridge.system.setLease lease) }
  if lease.tasks[t]?.any (·.pc = .raised) then s.leaveMessages .cancelled else some s

/-- The task of `run` is cancelled where it is suspended. -/
def onCancel (delivered : Bool) : Option Serving :=
  match s.bridge.pc, s.handler with
  | .serving _, .awaitsCall _ i =>
      let command := s.bridge.system.calls[i]?.bind (·.command)
      { s with gone := command.toList ++ s.gone }.leaveMessages .cancelled
  | .serving _, .awaitsYield _ t => s.cancelYield cfg t
  | .serving _, _ => s.leaveMessages .cancelled
  | _, _ => (s.bridge.onCancel delivered).map s.follow

def bridgeStep : BridgeAction → Option Serving
  | .service a =>
      if s.resumesGone a then none
      else (s.messaging.step cfg config decimal (.service a)).bind (s.heard cfg)
  | .cancel delivered => s.onCancel cfg delivered
  | .messagesFailed =>
      match s.handler with
      | .idle => s.leaveMessages .mqttError
      | _ => none
  -- what the handling of a message raises is what it raises itself
  | .handlerRaised => none
  | a => (s.bridge.step cfg config a).map s.follow

def step : ServingAction → Option Serving
  | .bridge a => s.bridgeStep cfg config decimal a
  | .message topic payload span =>
      match s.bridge.pc, s.handler, s.reporting with
      | .serving _, .idle, [] =>
          (s.messaging.step cfg config decimal (.message topic payload span)).bind (s.heard cfg)
      | _, _, _ => none
  | .reported =>
      if s.bridge.connected && !s.reporting.isEmpty then some { s with reporting := [] } else none

end

def machine (cfg : Config) (config : MqttConfig) (decimal : Char → Option ℕ) :
    Machine Serving ServingAction where
  step s a := s.step cfg config decimal a

end Serving

end Bedjet.Integrations
