import Bedjet.Asyncio.Wait
import Bedjet.Device.State
import Bedjet.Protocol.Encode

/-!
The write path. A commander keeps the last trustworthy reading and an event that
says a new one arrived; every command runs against that shared pair: read the
state, check the write would be observable, write, read the state back, and
assert that it changed as intended.

Commands are coroutines. Each is given by the place where it is suspended (`Pc`)
and a function for the code up to the next suspension (a `Segment`). Within a
segment nothing else runs and the clock of the loop stands still.
-/

namespace Bedjet.Service

open Python Protocol Device Asyncio
open Encode (EncodeError)

/-! ### The commander's vocabulary -/

/-- A published reading: the pair handed to `on_state`. The number of the chunk
of data that began the packet is kept with it, to tell readings apart; the code
has no such field. -/
structure Sample where
  state : BedJetState
  packet : StatusPacket
  chunk : ℕ

/-- `_latest` and `_updated`, shared by every command of one commander. -/
structure Shared where
  latest : Option Sample := none
  updated : Bool := false

/-- The `satisfied` predicate of a command, by the values it closes over. -/
inductive Goal
  | standby
  | mode (expected : StatusMode)
  | target (rounded : ℚ)
  | fan (snapped : ℤ)
  deriving DecidableEq

def Goal.satisfied : Goal → BedJetState → Bool
  | .standby, s => s.mode = some .standby ∨ s.power = .off
  | .mode expected, s => s.mode = some expected
  | .target rounded, s => s.targetTempC = some rounded
  | .fan snapped, s => s.fanPercent = some snapped

/-- The arguments of `_send_verified`. -/
structure Order where
  payload : Bytes
  description : String
  goal : Goal
  dryRun : Bool

/-- The commands that read the state once themselves, before `_send_verified`
does: they only make sense on a running unit. -/
inductive Adjustment
  | temperature (celsius : Double)
  | fan (percent : ℤ)

/-- A call of `send_off`, `set_mode`, `set_temperature` or `set_fan_percent`. -/
inductive Request
  | off
  | mode (operand : CommandMode)
  | adjust (adjustment : Adjustment)

/-- The exceptions that leave a command. `AlreadySatisfied` is a
`CommandRefused`; the cause of a `CommandUnverified` is the `TransportError` it
was raised from, if any. -/
inductive Raised
  | refused (message : String)
  | alreadySatisfied (message : String)
  | encode (error : EncodeError)
  | unverified (message : String) (cause : Option String)
  | assertion

/-- `CommandResult`, with each state and its packet together. -/
structure CommandResult where
  payload : Bytes
  before : Sample
  after : Sample

inductive Ending
  | returned (result : CommandResult)
  | raised (exception : Raised)

/-- Where a command is. -/
inductive Pc
  /-- called, nothing of it has run -/
  | fresh
  /-- in the `wait_for_state` of `set_temperature` or `set_fan_percent` -/
  | baseline (adjustment : Adjustment) (wait : Wait)
  /-- in the `wait_for_state` of `_send_verified` -/
  | before (order : Order) (wait : Wait)
  /-- in `transport.write`; `delivered` says whether the bytes reached the device -/
  | writing (order : Order) (before : Sample) (delivered : Bool)
  /-- in the half-second wait of the settle loop -/
  | settling (order : Order) (before : Sample) (deadline : ℚ) (wait : Wait)
  | ended (ending : Ending)

/-- What a command does that can be observed from outside. -/
inductive CommandEvent
  /-- it obtained the reading it bases its decisions on -/
  | based (sample : Sample)
  /-- it called `transport.write(COMMAND_UUID, payload)` -/
  | wrote (payload : Bytes)
  /-- the bytes of its write reached the device -/
  | delivered (payload : Bytes)
  /-- `transport.write` returned -/
  | completed
  | ended (ending : Ending)

/-- The effect of a command from one suspension to the next: the shared pair,
where it is suspended, what it did (newest first), and whether it poked the
reader. -/
structure Segment where
  shared : Shared
  pc : Pc
  events : List CommandEvent := []
  poked : Bool := false

namespace Segment

def raises (shared : Shared) (exception : Raised) : Segment :=
  { shared, pc := .ended (.raised exception), events := [.ended (.raised exception)] }

def returns (shared : Shared) (result : CommandResult) : Segment :=
  { shared, pc := .ended (.returned result), events := [.ended (.returned result)] }

/-- The segment, with something done before it. -/
def after (segment : Segment) (event : CommandEvent) : Segment :=
  { segment with events := segment.events ++ [event] }

def poke (segment : Segment) : Segment :=
  { segment with poked := true }

end Segment

/-! ### `wait_for_state` and `_send_verified` -/

/-- `UNLOCKED_MODES` -/
def unlockedModes : List CommandMode := [.off, .cool, .dry, .heat]

/-- `_EXPECTED_STATUS_FOR.get(mode)` -/
def expectedStatusFor : CommandMode → Option StatusMode
  | .off => some .standby
  | .cool => some .cool
  | .dry => some .dry
  | .heat => some .heat
  | _ => none

section

variable (settleTimeout now : ℚ)

/-- The suspension of `wait_for_state`, with the event cleared. -/
def awaitState (pc : Wait → Pc) (shared : Shared) : Segment :=
  { shared := { shared with updated := false }, pc := pc { due := now + settleTimeout } }

/-- What `wait_for_state` raises on silence. -/
def silence : Raised :=
  .refused ("no status packet in " ++ fixed 0 settleTimeout ++
    "s, so there is nothing to compare against. " ++
    "The BedJet is near-silent when off — set it running from the vendor app " ++
    "first, then close the app and retry.")

/-- `_send_verified` from the baseline to the write. -/
def proceed (order : Order) (shared : Shared) (before : Sample) : Segment :=
  if !before.packet.isTrustworthy then
    (Segment.raises shared (.refused
      ("the current state came from a packet that failed its checksum, so there is " ++
      "no trustworthy baseline to verify against. Retry — and if it persists, the " ++
      "link is too poor to command the device safely."))).after (.based before)
  else if order.goal.satisfied before.state then
    (Segment.raises shared (.alreadySatisfied
      ("the device already satisfies '" ++ order.description ++ "', so the write would be " ++
      "unobservable — and an unobservable command teaches us nothing while still " ++
      "being a write to a heater. Change the device first, then retry."))).after (.based before)
  else if order.dryRun then
    (Segment.returns shared { payload := order.payload, before, after := before }).after
      (.based before)
  else
    -- `_updated.clear()`, `_latest = None`, and the call of `transport.write`
    { shared := { latest := none, updated := false }
      pc := .writing order before false
      events := [.wrote order.payload, .based before] }

/-- `_send_verified` from its start. -/
def sendVerified (order : Order) (shared : Shared) : Segment :=
  match shared.latest with
  | some before => proceed order shared before
  | none => awaitState settleTimeout now (.before order) shared

/-- The end of `_send_verified` when the settle loop runs out. -/
def giveUp (order : Order) (shared : Shared) : Segment :=
  let observed := match shared.latest with
    | some sample => sample.state.describe
    | none => "no status at all"
  .raises shared (.unverified
    ("wrote " ++ hex order.payload ++ " but the device did not satisfy '" ++
      order.description ++ "' within " ++ fixed 0 settleTimeout ++ "s. Observed: " ++ observed ++
      ".\nThe bytes were accepted by the radio, which proves only that — there is no " ++
      "acknowledgement in this protocol.\n" ++
      "**If the unit is running and you want it off, use the vendor app or unplug it.**") none)

/-- The head of the settle loop. -/
def settleLoop (order : Order) (before : Sample) (deadline : ℚ) (shared : Shared) : Segment :=
  if now < deadline then
    { shared, pc := .settling order before deadline { due := now + 1 / 2 } }
  else giveUp settleTimeout order shared

/-- The body of the settle loop after the event: clear it and look at the
reading. -/
def examine (order : Order) (before : Sample) (deadline : ℚ) (shared : Shared) : Segment :=
  let shared := { shared with updated := false }
  match shared.latest with
  | none => .raises shared .assertion
  | some after =>
      if after.packet.isTrustworthy && order.goal.satisfied after.state then
        .returns shared { payload := order.payload, before, after }
      else settleLoop settleTimeout now order before deadline shared

/-! ### The commands -/

def sendOff (dryRun : Bool) : Shared → Segment :=
  sendVerified settleTimeout now
    { payload := Encode.turnOff, description := "mode -> off", goal := .standby, dryRun }

def setMode (mode : CommandMode) (dryRun : Bool) (shared : Shared) : Segment :=
  if mode ∉ unlockedModes then
    .raises shared (.refused (mode.name ++ " is not in UNLOCKED_MODES. Turbo is the device's " ++
      "most aggressive setting and nothing needs it; extended heat has never been " ++
      "observed in status, so its result could not be verified even if it worked. " ++
      "Unlock deliberately, in its own commit, with a reason."))
  else match expectedStatusFor mode with
    | none =>
        .raises shared (.refused ("no verified status mode corresponds to command " ++ mode.name ++
          ", so the result could not be verified even if it worked. Capture that mode from " ++
          "the vendor app first (RL-012)."))
    | some expected =>
        sendVerified settleTimeout now
          { payload := Encode.setMode mode, description := "mode -> " ++ lower mode.name
            goal := .mode expected, dryRun } shared

/-- `set_temperature` from its own baseline on. -/
def setTemperatureFrom (celsius : Double) (dryRun : Bool) (shared : Shared) (before : Sample) :
    Segment :=
  if before.state.power ≠ .on then
    .raises shared (.refused
      ("the unit is not running, so a target change may not be observable. Start it " ++
      "with `bedjet mode <address> cool` first."))
  else if before.packet.minTempC.isNone ∨ before.packet.maxTempC.isNone then
    .raises shared (.refused
      ("the device did not report its permitted range in the current status packet, " ++
      "so there is nothing to bound the request against. Retry."))
  else match Encode.snapTargetC celsius with
    | .error e => .raises shared (.encode e)
    | .ok rounded =>
        match Encode.setTemperature rounded before.packet.minTempC before.packet.maxTempC with
        | .error e => .raises shared (.encode e)
        | .ok payload =>
            sendVerified settleTimeout now
              { payload
                description := "target -> " ++ fixed 1 rounded ++ "C (" ++
                  fixed 1 (cToF rounded) ++ "F)"
                goal := .target rounded, dryRun } shared

/-- `set_fan_percent` from its own baseline on. -/
def setFanPercentFrom (percent : ℤ) (dryRun : Bool) (shared : Shared) (before : Sample) :
    Segment :=
  if before.state.power ≠ .on then
    .raises shared (.refused
      ("the unit is not running, so a fan change would not be observable — the fan " ++
      "byte holds its last-set value in standby (RL-013). Start it in Cool from " ++
      "the vendor app, close the app, and retry."))
  else match Encode.snapFanPercent percent with
    | .error e => .raises shared (.encode e)
    | .ok snapped =>
        match Encode.setFanPercent snapped with
        | .error e => .raises shared (.encode e)
        | .ok payload =>
            sendVerified settleTimeout now
              { payload, description := "fan -> " ++ toString snapped ++ "%"
                goal := .fan snapped, dryRun } shared

def Adjustment.from (dryRun : Bool) (shared : Shared) (before : Sample) : Adjustment → Segment
  | .temperature celsius =>
      (setTemperatureFrom settleTimeout now celsius dryRun shared before).after (.based before)
  | .fan percent =>
      (setFanPercentFrom settleTimeout now percent dryRun shared before).after (.based before)

/-- `set_temperature` and `set_fan_percent` from their start. -/
def beginAdjustment (adjustment : Adjustment) (dryRun : Bool) (shared : Shared) : Segment :=
  match shared.latest with
  | some before => adjustment.from settleTimeout now dryRun shared before
  | none => awaitState settleTimeout now (.baseline adjustment) shared

def Request.begin (dryRun : Bool) (shared : Shared) : Request → Segment
  | .off => sendOff settleTimeout now dryRun shared
  | .mode operand => setMode settleTimeout now operand dryRun shared
  | .adjust adjustment => beginAdjustment settleTimeout now adjustment dryRun shared

/-! ### Resuming a command -/

/-- Why a suspended command runs again. -/
inductive Wakeup
  /-- its wait looks at the event for the first time -/
  | looked
  /-- its wait has found the event set, or was woken by it -/
  | woken
  /-- its timer fired -/
  | timedOut
  /-- `transport.write` returned -/
  | writeReturned
  /-- `transport.write` raised a `TransportError` -/
  | writeFailed (message : String)

/-- The code after a wait for a reading: its assertion, then `next`. -/
def onWoken (shared : Shared) (next : Sample → Segment) : Segment :=
  match shared.latest with
  | none => .raises shared .assertion
  | some sample => next sample

/-- What the command reports when the link fails during its write. -/
def linkFailed (order : Order) (shared : Shared) (message : String) : Segment :=
  .raises shared (.unverified
    ("the link failed during the write of " ++ hex order.payload ++ " (" ++ order.description ++
      "): " ++ message ++ ".\n" ++
      "The request may or may not have reached the device — a write can be " ++
      "delivered even when the link dies before its confirmation. Read the " ++
      "state once the link returns before deciding anything, and do not " ++
      "blind-retry.") (some message))

/-- The place of a command with its wait, if it is in one, changed. -/
def Pc.mapWait (f : Wait → Wait) : Pc → Pc
  | .baseline adjustment wait => .baseline adjustment (f wait)
  | .before order wait => .before order (f wait)
  | .settling order base deadline wait => .settling order base deadline (f wait)
  | pc => pc

/-- Whether a command is in a wait that has not looked at the event yet. -/
def Pc.unlooked : Pc → Bool
  | .baseline _ wait | .before _ wait | .settling _ _ _ wait => !wait.looked
  | _ => false

/-- The next segment of a command, if `wakeup` can happen to it now. No timer
fires before the first look of its wait, which is scheduled at once. -/
def Pc.resume (dryRun : Bool) (shared : Shared) : Pc → Wakeup → Option Segment
  | pc, .looked =>
      if pc.unlooked then some { shared, pc := pc.mapWait (·.look shared.updated) } else none
  | .baseline adjustment wait, .woken =>
      if wait.woken then
        some (onWoken shared fun sample =>
          adjustment.from settleTimeout now dryRun shared sample)
      else none
  | .baseline _ wait, .timedOut =>
      if wait.looked ∧ wait.due ≤ now then some (.raises shared (silence settleTimeout)) else none
  | .before order wait, .woken =>
      if wait.woken then some (onWoken shared (proceed order shared)) else none
  | .before _ wait, .timedOut =>
      if wait.looked ∧ wait.due ≤ now then some (.raises shared (silence settleTimeout)) else none
  -- a write that returns proves only that the radio accepted the bytes
  | .writing order base _, .writeReturned =>
      some ((settleLoop settleTimeout now order base (now + settleTimeout) shared).poke.after
        .completed)
  | .writing order _ _, .writeFailed message => some (linkFailed order shared message)
  | .settling order base deadline wait, .woken =>
      if wait.woken then some (examine settleTimeout now order base deadline shared) else none
  | .settling order base deadline wait, .timedOut =>
      if wait.looked ∧ wait.due ≤ now then
        some (settleLoop settleTimeout now order base deadline shared).poke
      else none
  | _, _ => none

end

/-! ### The commander -/

structure Command where
  request : Request
  dryRun : Bool
  pc : Pc := .fresh

structure Commander where
  shared : Shared := {}
  commands : List Command := []

/-- `_updated.set()`, as the suspended command feels it. -/
def Pc.wake : Pc → Pc :=
  Pc.mapWait Wait.wake

def Command.wake (c : Command) : Command :=
  { c with pc := c.pc.wake }

/-- `_on_state` -/
def Commander.onState (commander : Commander) (sample : Sample) : Commander where
  shared := { latest := some sample, updated := true }
  commands := commander.commands.map Command.wake

/-- The commander after command `i` ran a segment. -/
def Commander.put (commander : Commander) (i : ℕ) (c : Command) (segment : Segment) :
    Commander where
  shared := segment.shared
  commands := commander.commands.set i { c with pc := segment.pc }

end Bedjet.Service
