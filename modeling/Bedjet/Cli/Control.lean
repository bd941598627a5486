import Bedjet.Api.Service
import Bedjet.Cli.Operations

/-!
The commands that write: `off`, `fan`, `mode` and `temp`. Each announces what it is
about to do, asks for a typed word, sends, and reports what the device has proved;
each rehearses with `--dry-run`, and gives the link back however it ends.
-/

namespace Bedjet.Cli

open Asyncio Python Device Device.Registry Service Protocol
open Protocol.Encode (EncodeError)

/-! ### What they share -/

/-- The arguments the four commands have in common. -/
structure ControlArgs where
  address : String
  timeout : ℚ := 20
  force : Bool := false
  dryRun : Bool := false
  yes : Bool := false
  settle : ℚ := 10

/-- What a command has of its own. -/
structure Control where
  request : Request
  /-- the word to type -/
  word : String
  /-- what it prints of the reading it starts from -/
  details : Sample → List (Except EncodeError String) := fun _ => []
  /-- what it prints before it asks for the word -/
  announcement : List (Except EncodeError String)
  rehearsed : CommandResult → String := fun result =>
    s!"\nDRY RUN — would write: {hex result.payload}. Nothing was sent."
  /-- whether it has an `except` clause for `encode.CommandError` -/
  catchesEncoding : Bool := false
  /-- what follows the bytes in its report of what was sent -/
  sentNote : String := ""
  epilogue : CommandResult → List String
  /-- `args.save` -/
  saveTo : Option String := none

/-- How the `try` block of a command is left: with an exit code, or with what the
device has proved. -/
abbrev Attempt := ℕ ⊕ CommandResult

section

variable (file : RegistryFile) (target : String) (args : ControlArgs) (c : Control)

/-- Whether the word was typed, where it is asked for. -/
def confirm : Command Bool :=
  if args.yes then .ret true
  else do
    Command.printAll c.announcement
    let text ← Command.ask
      (.input s!"\n    Type '{c.word}' to send, anything else to abort: ")
    if strip text ≠ c.word.toList then
      Command.print "aborted — nothing was sent."
      return false
    else return true

/-- The `try` block. -/
def attempt : Command Attempt := do
  Command.ask (.startReader none)
  let before ← Command.ask (.waitForState args.settle)
  Command.print s!"\ncurrent state: {before.state.describe}"
  Command.printAll (c.details before)
  if args.dryRun then
    let result ← Command.ask (.command c.request true)
    Command.print (c.rehearsed result)
    return .inl 0
  else
    let confirmed ← confirm args c
    if confirmed then
      let result ← Command.ask (.command c.request false)
      return .inr result
    else return .inl 1

/-- The `except` clauses. -/
def onError : CliError → Option (Command Attempt)
  | .command (.refused message) | .command (.alreadySatisfied message) =>
      some do
        Command.print s!"\n⛔ refused, nothing sent: {message}"
        return .inl 1
  | .command (.encode (.command message)) =>
      if c.catchesEncoding then
        some do
          Command.print s!"\n⛔ rejected before sending: {message}"
          return .inl 1
      else none
  | .command (.unverified message _) =>
      some do
        Command.print s!"\n❌ UNVERIFIED: {message}"
        return .inl 2
  | _ => none

/-- The `finally` clause. -/
def giveBack : Command Unit := do
  Command.ask .stopReader
  Command.ask .disconnect
  Command.print "\nLink released — the vendor app can connect again."

def report (result : CommandResult) : Command Unit := do
  Command.print "\n✅ verified: the device did what we asked."
  Command.print s!"    sent:   {hex result.payload}{c.sentNote}"
  Command.print s!"    before: {result.before.state.describe}"
  Command.print s!"    after:  {result.after.state.describe}"
  Command.printAll ((c.epilogue result).map .ok)
  match c.saveTo with
  | some path =>
      Command.ask (.save result.after.packet.raw)
      Command.print s!"Saved the post-command packet to {path}"
  | none => return ()

/-- `cmd_off`, `cmd_fan`, `cmd_mode` and `cmd_temp`, by what each has of its own. -/
def control : Command ℕ := do
  checkOwnership file target args.address args.force
  Command.ask (.connect args.address args.timeout)
  let outcome ← Coroutine.tryFinally (Coroutine.tryExcept (attempt args c) (onError c)) giveBack
  match outcome with
  | .inl code => return code
  | .inr result =>
      report c result
      return 0

end

/-! ### The four commands -/

def off (saveTo : Option String) : Control where
  request := .off
  word := "off"
  announcement := [
    .ok "\n⚠️  This writes to a mains-powered heater. Before confirming:",
    .ok "    · you are in the room and can see the unit",
    .ok "    · you know where its plug is — unplugging is the escape hatch",
    .ok "    · the vendor app is closed (it cannot connect while we hold the link)",
    .ok s!"\n    About to send: {hex Encode.turnOff}  (mode -> off)"]
  rehearsed := fun result =>
    s!"\nDRY RUN — would write: {hex result.payload} to the command " ++
    "characteristic.\nNothing was sent. Re-run without --dry-run to send it."
  epilogue := fun _ => [
    "\nThe OFF command was hardware-verified on this run. If its PROTOCOL.md row is",
    "not already ✅ VERIFIED, record a research-log entry and promote the row."]
  saveTo := saveTo

/-- What `fan` announces. -/
def fanAnnouncement (percent : ℤ) : Except EncodeError String := do
  let snapped ← Encode.snapFanPercent percent
  let payload ← Encode.setFanPercent snapped
  let asked :=
    if snapped ≠ percent then s!"fan {percent}% -> {snapped}% on the 5% grid"
    else s!"fan -> {snapped}%"
  return s!"\n⚠️  This writes to the device. About to send: {hex payload}  ({asked})"

def fan (percent : ℤ) : Control where
  request := .adjust (.fan percent)
  word := "fan"
  announcement := [
    fanAnnouncement percent,
    .ok "    The unit must be running, and you should be able to hear the change."]
  epilogue := fun _ => [
    "\nOpcode 0x07 was hardware-verified on this run. If docs/research/RESEARCH-LOG.md" ++
    "\ndoes not already record it, add an entry."]

def mode (operand : CommandMode) : Control where
  request := .mode operand
  word := "go"
  announcement := [
    .ok (s!"\n⚠️  This writes to the device. About to send: {hex (Encode.setMode operand)}  " ++
      s!"(mode -> {lower operand.name})")]
  sentNote := s!"  (command {operand.name})"
  epilogue := fun result => [
    s!"\nCommand mode {operand.name} (0x{hexByte operand.value}) was hardware-verified on this " ++
    "run — and note it produced\nstatus mode " ++
    (match result.after.state.mode with
      | some status => status.name
      | none => "?") ++
    ", a different value. If PROTOCOL.md's row is not\nalready ✅ VERIFIED, record it with a " ++
    "research-log entry."]

/-- The range that `temp` prints, where the packet reports one. -/
def rangeText (packet : StatusPacket) : List (Except EncodeError String) :=
  match packet.minTempC, packet.maxTempC with
  | some low, some high => [
      .ok (s!"device-reported range for this mode: {fixed 1 low}-{fixed 1 high}C " ++
        s!"({fixed 0 (cToF low)}-{fixed 0 (cToF high)}F)")]
  | _, _ => []

/-- The note that the wire is coarser than the request. -/
def roundingNote (celsius : Double) : List (Except EncodeError String) :=
  match Encode.snapTargetC celsius with
  | .error e => [.error e]
  | .ok rounded =>
      match celsius with
      | .finite exact =>
          if 1 / 100 < |rounded - exact| then [
            .ok (s!"\nnote: {fixed 2 exact}C rounds to {fixed 1 rounded}C " ++
              s!"({fixed 1 (cToF rounded)}F) — the wire has 0.5C granularity")]
          else []
      -- a value that is not finite cannot be snapped
      | _ => []

/-- `args.value` in Celsius -/
def tempCelsius (value : Double) (celsius : Bool) : Double :=
  if celsius then value else Api.fahrenheitToC value

def temp (celsius : Double) : Control where
  request := .adjust (.temperature celsius)
  word := "go"
  details := fun before => rangeText before.packet ++ roundingNote celsius
  announcement := [do
    let rounded ← Encode.snapTargetC celsius
    return s!"\n⚠️  This writes to the device. Target -> {fixed 1 rounded}C " ++
      s!"({fixed 1 (cToF rounded)}F)"]
  catchesEncoding := true
  epilogue := fun _ => [
    "\nOpcode 0x03 is now VERIFIED. Record it in docs/research/RESEARCH-LOG.md."]

section

variable (file : RegistryFile) (target : String) (args : ControlArgs)

def cmdOff (save : Option String) : Command ℕ :=
  control file target args (off save)

def cmdFan (percent : ℤ) : Command ℕ :=
  control file target args (fan percent)

def cmdMode (operand : CommandMode) : Command ℕ :=
  control file target args (mode operand)

def cmdTemp (value : Double) (celsius : Bool) : Command ℕ :=
  control file target args (temp (tempCelsius value celsius))

end

end Bedjet.Cli
