import Bedjet.Api.Models
import Bedjet.Python.Parsing

/-!
The stable local interface: strings and numbers in, and every way a command can
end turned into an outcome or one of three errors.
-/

namespace Bedjet.Api

open Python Protocol Device Service
open Encode (EncodeError)

/-- How an API call ends: an outcome, one of the `ApiError`s, or an exception
the API does not translate. -/
inductive ApiAnswer
  | returned (outcome : CommandOutcome)
  | unavailable (message : String)
  | refused (message : String)
  | unverified (message : String)
  | escaped (exception : Raised)

/-- A call of `turn_off`, `set_mode`, `set_temperature` or `set_fan`. -/
inductive ApiRequest
  | turnOff
  | setMode (mode : String)
  | setTemperature (celsius fahrenheit : Option Double)
  | setFan (percent : ℤ)

/-- `available_modes()` -/
def availableModes : List String :=
  (unlockedModes.map fun m => lower m.name).mergeSort

/-- The command a call stands for, with the description its details use. -/
structure Resolved where
  request : Request
  description : String

/-- A `CommandError` of the encoder is a refusal; anything else it raises is not
caught. -/
def ofEncodeError : EncodeError → ApiAnswer
  | .command message => .refused message
  | .conversion e => .escaped (.encode (.conversion e))

def resolveTarget (target : Double) : Except ApiAnswer Resolved :=
  match Encode.snapTargetC target with
  | .error e => .error (ofEncodeError e)
  | .ok snapped =>
      .ok { request := .adjust (.temperature (.finite snapped))
            description := "target " ++ fixed 1 snapped ++ "C" }

/-- `(fahrenheit - 32.0) * 5.0 / 9.0` -/
def fahrenheitToC (fahrenheit : Double) : Double :=
  ((fahrenheit.rounded (· - 32)).rounded (· * 5)).rounded (· / 9)

/-- What each call does before `_command`: parse its arguments and settle the
granularity of the wire. -/
def ApiRequest.resolve : ApiRequest → Except ApiAnswer Resolved
  | .turnOff => .ok { request := .off, description := "off" }
  | .setMode mode =>
      match CommandMode.ofName (upper (strip mode)) with
      | none => .error (.refused ("unknown mode " ++ reprText mode ++ ". This build accepts: " ++
          ", ".intercalate availableModes ++ "."))
      | some commandMode =>
          if commandMode ∉ unlockedModes then
            .error (.refused (mode ++ " is locked in this build. Turbo is the device's most " ++
              "aggressive setting and nothing needs it; extended heat has never been observed in " ++
              "status, so its result could not be verified even if it worked. Unlocking " ++
              "is a deliberate edit to service/commander.py, not a request parameter."))
          else .ok { request := .mode commandMode, description := "mode " ++ lower mode }
  | .setTemperature celsius fahrenheit =>
      match celsius, fahrenheit with
      | some target, none => resolveTarget target
      | none, some target => resolveTarget (fahrenheitToC target)
      | _, _ => .error (.refused "give exactly one of celsius or fahrenheit")
  | .setFan percent =>
      match Encode.snapFanPercent percent with
      | .error e => .error (ofEncodeError e)
      | .ok snapped =>
          .ok { request := .adjust (.fan snapped)
                description := "fan " ++ toString snapped ++ "%" }

/-- The message of `Unavailable` while the link is not connected. -/
def unavailableMessage (link : LinkState) (yieldRemainingS : Option ℚ) : String :=
  "the BLE link is " ++ link.value ++ ", so nothing was sent. " ++
    match link, yieldRemainingS with
    | .yielded, some remaining =>
        "The link was deliberately yielded and returns in " ++ fixed 0 remaining ++ "s."
    | _, _ => "The service is reconnecting."

/-- `_command` after the command it awaited: what the caller is told. -/
def translate (description : String) (dryRun : Bool) (before after : DeviceSnapshot) :
    Ending → ApiAnswer
  | .returned result =>
      .returned
        { ok := true
          changed := !dryRun
          detail :=
            if dryRun then
              "would send " ++ hex result.payload ++ " for " ++ description ++
                "; nothing was sent"
            else description ++ ": verified against the device's own status"
          sent := if dryRun then none else some (hex result.payload)
          dryRun, before, after }
  | .raised (.alreadySatisfied message) =>
      .returned
        { ok := true
          changed := false
          detail := "already " ++ description ++ "; nothing was sent. (" ++ message ++ ")"
          sent := none
          dryRun, before, after }
  | .raised (.refused message) => .refused message
  | .raised (.encode e) => ofEncodeError e
  | .raised (.unverified message _) => .unverified message
  | .raised .assertion => .escaped .assertion

/-- An API call that has begun: the command it awaits, and what it was told in
the end. -/
structure ApiCall where
  dryRun : Bool
  command : Option ℕ := none
  description : String := ""
  before : Option DeviceSnapshot := none
  answer : Option ApiAnswer := none

/-- The call goes on when command `i` has ended, if that is the one it awaits. -/
def ApiCall.finish (c : ApiCall) (i : ℕ) (after : DeviceSnapshot) (ending : Ending) : ApiCall :=
  match c.command, c.before with
  | some j, some before =>
      if i = j then
        { c with answer := translate c.description c.dryRun before after ending }
      else c
  | _, _ => c

end Bedjet.Api
