import Bedjet.Cli.Control
import Bedjet.Python.Parsing

/-!
The commands that only read: `identify` lists what the device offers, and `watch`
prints what it reports. Both borrow the link; `watch` is time-boxed, so that the link
is given back by a timer rather than by a clean exit.
-/

namespace Bedjet.Cli

open Asyncio Python Device Device.Registry Service Protocol

/-! ### The texts of the exceptions -/

def RegistryError.text : RegistryError → String
  | .unknownDevice message | .decodeError message => message
  | .keyError key => reprText key

/-- `str(exc)` -/
def CliError.text : CliError → String
  | .registry e => RegistryError.text e
  | .transport message | .importError message | .configurationRefused message
  | .other message => message
  | .command (.refused message) | .command (.alreadySatisfied message)
  | .command (.unverified message _) | .command (.encode (.command message)) => message
  | .command (.encode (.conversion .value)) => "cannot convert float NaN to integer"
  | .command (.encode (.conversion .overflow)) => "cannot convert float infinity to integer"
  | .command .assertion | .keyboardInterrupt | .cancelledError => ""

/-- What `except Exception` catches. -/
def CliError.isException : CliError → Bool
  | .keyboardInterrupt | .cancelledError => false
  | _ => true

/-- What `except (KeyboardInterrupt, asyncio.CancelledError)` passes over. -/
def untilInterrupted (c : Command Unit) : Command Unit :=
  c.tryExcept fun e => if e.isException then none else some (.ret ())

/-! ### identify -/

/-- `SERVICE_UUID`, `STATUS_UUID`, `COMMAND_UUID`, `NAME_UUID` and the others share
all but their first group. -/
def bedjetUuid (group : String) : String :=
  group ++ "-bed0-0080-aa55-4265644a6574"

def serviceUuid : String := bedjetUuid "00001000"

def nameUuid : String := bedjetUuid "00002001"

/-- `CHARACTERISTICS` -/
def characteristics : Dict String String := [
  (bedjetUuid "00002000", "status (write, read, notify)"),
  (nameUuid, "upstream \"device name\" — role unverified (RL-007)"),
  (bedjetUuid "00002002", "undocumented (write, read)"),
  (bedjetUuid "00002003", "undocumented (write only) — do not probe"),
  (bedjetUuid "00002004", "command (write only)"),
  (bedjetUuid "00002005", "biorhythm sequence fragments (write, read)"),
  (bedjetUuid "00002006", "undocumented (write, read)")]

/-- The labels by their lower-case UUIDs, with that of the service. -/
def knownLabels : Dict String String :=
  Dict.set (characteristics.map fun item => (lower item.1, item.2)) (lower serviceUuid)
    "BedJet service"

/-- A characteristic of the device's own service that has no label. -/
def unexpected (service : String) (char : String × List String) : Bool :=
  (knownLabels.get (lower char.1)).isNone && lower service == lower serviceUuid

def characteristicText (service : String) (char : String × List String) : String :=
  let label :=
    if unexpected service char then "⚠️ NOT SEEN BEFORE — a finding, log it"
    else (knownLabels.get (lower char.1)).getD ""
  let properties := ", ".intercalate char.2
  s!"    char {char.1}  [{properties}]  {label}"

def layoutTexts (layout : Transport.Layout) : List String :=
  layout.flatMap fun item =>
    let label := (knownLabels.get (lower item.1)).getD ""
    s!"service {item.1}  {label}" :: item.2.map (characteristicText item.1) ++ [""]

def unexpectedTexts (layout : Transport.Layout) : List String :=
  let count := (layout.map fun item => item.2.countP (unexpected item.1)).sum
  if count = 0 then []
  else [
    s!"{count} characteristic(s) not in PROTOCOL.md. Either the firmware changed\nor our " ++
    "table is incomplete — either way it belongs in the research log.\n"]

/-- `repr` of a `bytes` -/
def reprBytes (data : Bytes) : String :=
  let quote := if data.contains 39 && !data.contains 34 then '"' else '\''
  let escape (b : UInt8) : String :=
    let c := Char.ofNat b.toNat
    if c = quote || c = '\\' then String.ofList ['\\', c]
    else if c = '\t' then "\\t"
    else if c = '\n' then "\\n"
    else if c = '\r' then "\\r"
    else if b.toNat < 32 || 127 ≤ b.toNat then "\\x" ++ hexByte b.toNat
    else String.singleton c
  "b" ++ String.singleton quote ++ String.join (data.map escape) ++ String.singleton quote

structure IdentifyArgs where
  address : String
  timeout : ℚ := 20
  force : Bool := false

section

variable (file : RegistryFile) (target : String)

/-- The inner `try`, with its `except Exception`. -/
def readName : Command Unit :=
  Coroutine.tryExcept
    (do
      let name ← Command.ask (.read nameUuid)
      Command.print s!"device name characteristic: {reprBytes name}  (hex: {hex name})")
    fun e =>
      if e.isException then
        some (Command.print s!"device name characteristic unreadable: {e.text}")
      else none

/-- The `try` block of `cmd_identify`. -/
def inspect (address : String) : Command Unit := do
  Command.print s!"\nConnected to {address}\n"
  let layout ← Command.ask .services
  Command.printAll ((layoutTexts layout ++ unexpectedTexts layout).map .ok)
  readName
  Command.print ("\nCompare this against docs/protocol/PROTOCOL.md. Any characteristic not " ++
    "listed there is a finding — log it.")

def cmdIdentify (args : IdentifyArgs) : Command ℕ := do
  checkOwnership file target args.address args.force
  Command.ask (.connect args.address args.timeout)
  Coroutine.tryFinally (inspect args.address) (Command.ask .disconnect)
  return 0

end

/-! ### watch -/

/-- What `_poll_seconds` accepts. -/
abbrev PollSeconds := {seconds : ℚ // 0 < seconds}

/-- `_poll_seconds`: refused before anything is connected to. -/
def pollSeconds (decimal : Char → Option ℕ) (text : String) : Except String PollSeconds :=
  match parseFloat decimal text with
  | some (.finite seconds) =>
      if h : 0 < seconds then .ok ⟨seconds, h⟩
      else .error "must be a positive, finite number of seconds"
  | some _ => .error "must be a positive, finite number of seconds"
  | none => .error s!"could not convert string to float: {reprText text}"

structure WatchArgs where
  address : String
  timeout : ℚ := 20
  force : Bool := false
  raw : Bool := false
  seconds : Double := .finite 120
  packets : ℤ := 0
  save : Option String := none
  poll : Option PollSeconds := none

/-- `deadline`: no limit where `--seconds` is zero. -/
def WatchArgs.deadline (args : WatchArgs) : Option Double :=
  if args.seconds = .finite 0 then none else some args.seconds

/-- `deadline is None or elapsed < deadline` -/
def isDue (elapsed : ℕ) : Option Double → Bool
  | none => false
  | some .nan => true
  | some (.inf negative) => negative
  | some (.finite seconds) => decide (seconds ≤ elapsed)

/-- The loop of `cmd_watch`, for so many turns at most. -/
def watchLoop (deadline : Option Double) : ℕ → ℕ → Command Unit
  | 0, _ => .pending
  | turns + 1, elapsed =>
      if isDue elapsed deadline then .ret ()
      else do
        Command.ask (.sleep 1)
        watchLoop deadline turns (elapsed + 1)

section

variable (args : WatchArgs)

def watchTexts : List String :=
  (match args.poll with
    | some poll => [
        s!"\nWatching by whole-packet poll every {fixed 2 poll.val}s (#2 experiment) —",
        "a reading should arrive each interval regardless of device state; the",
        "summary on exit is the experiment's verdict."]
    | none => [
        "\nWatching. The BedJet notifies rapidly while ON and is mostly silent while OFF —",
        "silence here is not necessarily a fault."]) ++
  match args.deadline with
  | some seconds => [
      s!"Releasing the link automatically after {fixedDouble 0 seconds}s. Ctrl-C to stop early.\n"]
  | none => ["⚠️  No --seconds limit: the vendor app cannot connect until this exits.\n"]

def rttText : Option (ℚ × ℚ × ℚ) → String
  | none => "n/a"
  | some (least, mean, greatest) => s!"{fixed 0 least}/{fixed 0 mean}/{fixed 0 greatest} ms"

def summaryTexts (s : WatchSummary) : List String :=
  let distinct := s.captures.dedup.length
  match args.poll with
  | some _ => [
      s!"\n{s.polls} polls: {s.pollsWhole} whole, {s.pollsPartial} partial, {s.pollsAlien} " ++
      s!"alien, {s.rejectedChecksum} rejected, {s.pollFailures} failed reads; {distinct} " ++
      s!"distinct; read rtt min/mean/max {rttText s.pollRttMs}.",
      "Record this on issue #2. Whole ≈ 100% with an acceptable rtt is the go",
      "signal for making polling the default; anything else is the stop signal."]
  | none => [
      s!"\n{s.packetsSeen} packets seen, {distinct} distinct ({s.partialsSeen} needed a " ++
      "follow-up read)."]

/-- What `cmd_watch` does once the link is given back. -/
def summarize : Command Unit := do
  let s ← Command.ask .summary
  Command.printAll ((summaryTexts args s).map .ok)
  match args.save, s.captures.getLast? with
  | some path, some last =>
      Command.ask (.save last)
      Command.printAll [
        .ok s!"Saved last packet to {path}",
        .ok "Record its provenance in tests/fixtures/PROVENANCE.md — date, firmware,",
        .ok "and the device state it was captured in. An unlabelled fixture is worthless."]
  | _, _ => return ()

/-- `cmd_watch`, for so many turns of its loop at most. -/
def cmdWatch (file : RegistryFile) (target : String) (turns : ℕ) : Command ℕ := do
  checkOwnership file target args.address args.force
  Command.ask (.connect args.address args.timeout)
  Command.ask (.startReader (args.poll.map (·.val)))
  Command.printAll ((watchTexts args).map .ok)
  Coroutine.tryFinally (untilInterrupted (watchLoop args.deadline turns 0)) giveBack
  summarize args
  return 0

end

end Bedjet.Cli
