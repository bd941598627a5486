import Bedjet.Api.Waiting
import Bedjet.Integrations.Kinds
import Bedjet.Integrations.Messages

/-!
The routes of the HTTP adapter that take parameters: what a handler makes of the
JSON object in the body of a request that the guard let in, up to the call of
the API, and the status of the response. The route for a mode is left out: a
JSON string can hold what no text of the API's can.
-/

namespace Bedjet.Integrations

open Python Protocol Device Service Asyncio Api

/-! ### Bodies -/

/-- A value in a JSON text, as Python's parser takes it: an integer is read
exactly, a number with a fraction or an exponent by `float`, and there are three
more names. -/
inductive Json
  | null
  | bool (value : Bool)
  | int (value : ℤ)
  | real (value : ℚ)
  | nan
  | infinity (negative : Bool)
  | str (value : Str)
  | list (items : List Json)
  | dict (members : List (Str × Json))

/-- The members of the object in the order of the text. -/
abbrev Body := List (Str × Json)

/-- `body.get(key)`: of members with one name the last counts -/
def Body.get (body : Body) (key : String) : Option Json :=
  (body.reverse.find? fun member => member.1 = Str.of key).map (·.2)

/-- The exceptions that leave a route handler before its call of the API. -/
inductive RouteRaised
  /-- `web.HTTPBadRequest`, which is a response -/
  | badRequest (detail : String)
  | overflowError
  | valueError
  deriving DecidableEq

def RouteRaised.ofConversionError : ConversionError → RouteRaised
  | .overflow => .overflowError
  | .value => .valueError

/-- `float(n)` of an integer -/
def floatOfInt (n : ℤ) : Except ConversionError Double :=
  match Double.nearest n with
  | .inf _ => .error .overflow
  | x => .ok x

/-- `_bool` -/
def bool (body : Body) (key : String) : Except RouteRaised Bool :=
  match body.get key with
  | none => .ok false
  | some (.bool value) => .ok value
  | some _ => .error (.badRequest (key ++ " must be true or false"))

/-- `_number` of the adapter -/
def jsonNumber (body : Body) (key : String) : Except RouteRaised (Option Double) :=
  match body.get key with
  | none | some .null => .ok none
  | some (.int n) =>
      match floatOfInt n with
      | .ok x => .ok (some x)
      | .error e => .error (.ofConversionError e)
  | some (.real q) => .ok (some (.nearest q))
  | some .nan => .ok (some .nan)
  | some (.infinity negative) => .ok (some (.inf negative))
  | some _ => .error (.badRequest (key ++ " must be a number"))

/-! ### Handlers, up to their call of the API -/

/-- What a request calls. -/
inductive Routed
  | call (request : ApiRequest) (dryRun : Bool)
  | yieldLink (seconds : Double)

def handleOff (body : Body) : Except RouteRaised Routed := do
  let dryRun ← bool body "dry_run"
  return .call .turnOff dryRun

def handleTemperature (body : Body) : Except RouteRaised Routed := do
  let celsius ← jsonNumber body "celsius"
  let fahrenheit ← jsonNumber body "fahrenheit"
  let dryRun ← bool body "dry_run"
  return .call (.setTemperature celsius fahrenheit) dryRun

def handleFan (body : Body) : Except RouteRaised Routed := do
  match ← jsonNumber body "percent" with
  | none => .error (.badRequest "percent is required")
  | some percent =>
      match percent.toInt with
      | .error e => .error (.ofConversionError e)
      | .ok percent => do
          let dryRun ← bool body "dry_run"
          return .call (.setFan percent) dryRun

def handleYield (body : Body) : Except RouteRaised Routed := do
  match ← jsonNumber body "seconds" with
  | none => .error (.badRequest "seconds is required")
  | some seconds => return .yieldLink seconds

inductive Route | off | temperature | fan | yield
  deriving DecidableEq

def Route.handle (body : Body) : Route → Except RouteRaised Routed
  | .off => handleOff body
  | .temperature => handleTemperature body
  | .fan => handleFan body
  | .yield => handleYield body

/-! ### Responses -/

/-- The status of what the guard makes of a handler's result; an exception that
passes it is a response of 500. -/
def guardedStatus {ρ : Type*} (result : Except HttpException ρ) : ℕ :=
  match translateErrors result with
  | .ok (.response _) => 200
  | .ok (.error _ _ status) => status
  | .error _ => 500

def RouteRaised.status : RouteRaised → ℕ
  | .badRequest _ => 400
  | .overflowError | .valueError => guardedStatus (ρ := Unit) (.error .other)

/-- The response to a request that has awaited its call of the API. -/
def outcomeStatus : Outcome → ℕ
  | .answered answer => guardedStatus (routeResult answer)
  | .yielded => guardedStatus (.ok ())
  | .cancelled => guardedStatus (ρ := Unit) (.error .other)

/-- `Refused` of `yield_link` -/
def yieldRefused : ApiAnswer :=
  .refused "a yield needs a positive duration; zero would release nothing"

/-! ### Exchanges

One client of the adapter and the service: it posts a request, waits for the
response, and may then post the next one. -/

inductive ExchangePc
  | idle
  | awaits (place : Place)
  | responded (status : ℕ)

structure Exchange where
  system : System := {}
  handler : ExchangePc := .idle

inductive ExchangeAction
  | service (action : Action)
  /-- a request is let in; a yield of no finite duration ends when the
  environment likes, after the span given -/
  | post (route : Route) (body : Body) (span : ℚ)

namespace Exchange

section

variable (cfg : Config) (x : Exchange)

/-- The handler goes on as soon as what it awaits has ended. -/
def settle : Exchange :=
  match x.handler with
  | .awaits place =>
      match place.outcome x.system with
      | some outcome => { x with handler := .responded (outcomeStatus outcome) }
      | none => x
  | .idle | .responded _ => x

/-- The service takes a step, with the handler at this place. -/
def serve (handler : ExchangePc) (a : Action) : Option Exchange :=
  ((System.machine cfg).step x.system a).map fun system => settle { system, handler }

/-- The handler of a route, up to its first suspension. -/
def handle (route : Route) (body : Body) (span : ℚ) : Option Exchange :=
  match route.handle body with
  | .error exception => some { x with handler := .responded exception.status }
  | .ok (.call request dryRun) =>
      x.serve cfg (.awaits (.call x.system.calls.length)) (.call request dryRun)
  | .ok (.yieldLink seconds) =>
      if seconds.isNonPositive then
        some { x with handler := .responded (outcomeStatus (.answered yieldRefused)) }
      else if span ≤ 0 then none
      else x.serve cfg (.awaits (.yield x.system.lease.tasks.length))
        (.yieldLink (finiteOr span seconds))

def step : ExchangeAction → Option Exchange
  | .service a => x.serve cfg x.handler a
  | .post route body span =>
      match x.handler with
      | .idle | .responded _ => x.handle cfg route body span
      | .awaits _ => none

end

/-- The exchanges as a machine. -/
def machine (cfg : Config) : Machine Exchange ExchangeAction where
  step x a := x.step cfg a

end Exchange

end Bedjet.Integrations
