import Bedjet.Api.Service
import Bedjet.Python.Parsing

/-!
The MQTT adapter: its topics, what it publishes of a snapshot, and what it makes
of a message on a command topic. What a broker sends is text without surrogates.
-/

namespace Bedjet.Integrations

open Python Protocol Device Service Api

def online : String := "online"
def offline : String := "offline"

/-- The arguments of `MqttConfig` that are more than passed on to the broker
client. -/
structure MqttConfig where
  baseTopic : String := "bedjet"
  deviceId : String := "bedjet"
  discovery : Bool := true
  reconnectSeconds : ℚ := 5

namespace MqttConfig

variable (config : MqttConfig)

/-- `prefix` -/
def topicPrefix : String := config.baseTopic ++ "/" ++ config.deviceId

def stateTopic : String := config.topicPrefix ++ "/state"

def availabilityTopic : String := config.topicPrefix ++ "/availability"

def resultTopic : String := config.topicPrefix ++ "/result"

end MqttConfig

/-! ### What is published of a snapshot -/

/-- `_HA_MODE_FOR` -/
def haModeFor : String → Option String
  | "standby" => some "off"
  | "cool" => some "cool"
  | "heat" => some "heat"
  | "dry" => some "dry"
  | "turbo" => some "heat"
  | _ => none

/-- `ha_mode` -/
def haMode (snapshot : DeviceSnapshot) : String :=
  match snapshot.mode with
  | some mode => if snapshot.power ≠ "on" then "off" else (haModeFor mode).getD "off"
  | none => "off"

/-- `is_available`: whether to tell subscribers this device is answering. -/
def isAvailable (snapshot : DeviceSnapshot) : Bool :=
  snapshot.available && !snapshot.stale

/-- `state_payload`, written out as JSON where it is published -/
structure StatePayload where
  snapshot : DeviceSnapshot
  haMode : String

def statePayload (snapshot : DeviceSnapshot) : StatePayload where
  snapshot
  haMode := haMode snapshot

/-! ### What is published of a command -/

/-- The body on the result topic, written out as JSON. -/
inductive ResultBody
  | outcome (command : String) (outcome : CommandOutcome)
  | snapshot (command : String) (snapshot : DeviceSnapshot)
  | error (command kind detail : String)

inductive MqttPayload
  | text (payload : String)
  | state (payload : StatePayload)
  | result (body : ResultBody)

structure Publication where
  topic : String
  payload : MqttPayload
  retain : Bool

/-- `_publish_result` -/
def resultPublication (config : MqttConfig) (body : ResultBody) : Publication where
  topic := config.resultTopic
  payload := .result body
  retain := false

/-- The exceptions `_dispatch` lets through that are no `ApiError`. -/
inductive MqttRaised
  | valueError (message : String)
  | overflowError
  | assertionError
  | cancelledError
  | other

/-- The `except ValueError` of `_handle`. -/
def reportRaised (name : String) : MqttRaised → Except MqttRaised ResultBody
  | .valueError message => .ok (.error name "invalid_request" message)
  | exception => .error exception

/-- A conversion that fails: `ValueError` and `OverflowError` are not related. -/
def ofConversionError : ConversionError → MqttRaised
  | .value => .valueError "cannot convert float NaN to integer"
  | .overflow => .overflowError

/-- What left the API although it translates everything else. -/
def ofEscaped : Raised → MqttRaised
  | .encode (.conversion e) => ofConversionError e
  | .assertion => .assertionError
  | _ => .other

/-- `_handle` after the call it awaited: the result it publishes, or the
exception that leaves it. -/
def report (name : String) : ApiAnswer → Except MqttRaised ResultBody
  | .returned outcome => .ok (.outcome name outcome)
  | .unverified detail => .ok (.error name "unverified" detail)
  -- any other `ApiError`
  | .unavailable detail | .refused detail => .ok (.error name "refused" detail)
  | .escaped exception => reportRaised name (ofEscaped exception)

/-! ### What a message asks for -/

/-- The last level of a topic: `topic.rsplit("/", 1)[-1]` -/
def commandName (topic : String) : String :=
  String.ofList (topic.toList.reverse.takeWhile (· ≠ '/')).reverse

/-- `_decode` of the bytes of a message -/
def decodePayload (payload : Bytes) : String :=
  String.ofList (strip (decodeUtf8 payload))

/-- What a message calls. -/
inductive Dispatched
  | call (request : ApiRequest)
  | yieldLink (seconds : Double)
  | resumeLink

section

variable (decimal : Char → Option ℕ)

/-- `_number` -/
def number (payload : String) : Except MqttRaised Double :=
  match parseFloat decimal payload with
  | some value => .ok value
  | none => .error (.valueError ("expected a number, got " ++ reprText payload))

/-- `_dispatch`, up to the call it makes. The lower case of a mode is exact up
to characters no mode's name contains. -/
def dispatch (name payload : String) : Except MqttRaised Dispatched :=
  match name with
  | "mode" => .ok (.call (.setMode (lower (String.ofList (strip payload)))))
  | "temperature" => do
      let celsius ← number decimal payload
      .ok (.call (.setTemperature celsius none))
  | "fan" => do
      match (← number decimal payload).toInt with
      | .ok percent => .ok (.call (.setFan percent))
      | .error e => .error (ofConversionError e)
  | "link_yield" => do
      let seconds ← number decimal payload
      .ok (.yieldLink seconds)
  | "link_resume" => .ok .resumeLink
  | _ => .error (.valueError ("unknown command topic " ++ reprText name ++ "; expected one of " ++
      "mode, temperature, fan, link_yield, link_resume"))

end

end Bedjet.Integrations
