import Bedjet.Asyncio.Coroutine
import Bedjet.Device.Registry
import Bedjet.Integrations.HttpWs
import Bedjet.Service.Commander
import Bedjet.Transport.Ble

/-!
What the commands of the CLI ask of the world, what it answers, and what they share:
the check of ownership before anything is connected to, and the way an exception
becomes an exit code.
-/

namespace Bedjet.Cli

open Asyncio Python Device Device.Registry Service Integrations
open Protocol.Encode (EncodeError)

/-- A device seen in a scan. -/
structure DiscoveredDevice where
  address : String
  name : Option String
  rssi : Option ℤ
  serviceUuids : List String := []
  manufacturerData : List (ℕ × Bytes) := []

/-- What `watch` reads off its reader when it is over. -/
structure WatchSummary where
  /-- the packets that came, the first one first -/
  captures : List Bytes
  packetsSeen : ℕ
  partialsSeen : ℕ
  polls : ℕ
  pollsWhole : ℕ
  pollsPartial : ℕ
  pollsAlien : ℕ
  rejectedChecksum : ℕ
  pollFailures : ℕ
  /-- `poll_rtt_ms`: least, mean and greatest -/
  pollRttMs : Option (ℚ × ℚ × ℚ)

/-- What a daemon closes when it stops. -/
inductive Daemon | serve | mqtt
  deriving DecidableEq

inductive Op
  | print (text : String)
  | input (prompt : String)
  | sleep (seconds : ℚ)
  /-- `args.save.write_bytes` -/
  | save (data : Bytes)
  /-- `scan` of the transport -/
  | scan (timeout : ℚ) (allDevices : Bool)
  | connect (address : String) (timeout : ℚ)
  | disconnect
  | services
  | read (characteristic : String)
  /-- `start` of a reader that polls at this interval, if at all, and `stop`; the
  commander passes both on -/
  | startReader (poll : Option ℚ)
  | stopReader
  | waitForState (timeout : ℚ)
  /-- a call of the commander -/
  | command (request : Request) (dryRun : Bool)
  | summary
  /-- the imports of a daemon's adapter -/
  | importExtra (daemon : Daemon)
  /-- `start` of a `DeviceSession` -/
  | startSession (address : String) (connectTimeout settleTimeout : ℚ) (poll : Option ℚ)
  /-- `serve` of the HTTP adapter -/
  | serveApi (config : ServerConfig)
  /-- what a daemon waits for: a signal, or the end of its bridge -/
  | untilStopped (daemon : Daemon)
  /-- `_release` with the closers of the daemon -/
  | release (daemon : Daemon)

def Op.Answer : Op → Type
  | .input _ => String
  | .scan _ _ => List DiscoveredDevice
  | .services => Transport.Layout
  | .read _ => Bytes
  | .waitForState _ => Sample
  | .command _ _ => CommandResult
  | .summary => WatchSummary
  | _ => Unit

inductive CliError
  | registry (e : RegistryError)
  | transport (message : String)
  | command (e : Raised)
  | importError (message : String)
  | configurationRefused (message : String)
  | keyboardInterrupt
  | cancelledError
  /-- any other `Exception` -/
  | other (message : String)

abbrev Command (α : Type) := Coroutine Op Op.Answer CliError α

abbrev Step := Awaited Op Op.Answer CliError

namespace Command

def ask (op : Op) : Command op.Answer :=
  Coroutine.ask op

def print (text : String) : Command Unit :=
  ask (.print text)

/-- The texts, up to the first that cannot be made. -/
def printAll : List (Except EncodeError String) → Command Unit
  | [] => .ret ()
  | .ok text :: texts => do
      print text
      printAll texts
  | .error e :: _ => .raise (.command (.encode e))

end Command

/-! ### Ownership -/

section

variable (file : RegistryFile) (target : String)

/-- `_check_ownership` -/
def checkOwnership (address : String) (force : Bool) : Command Unit :=
  if force then
    .print (s!"⚠️  --force: connecting to {address} without checking the device " ++
      "registry.\n    Only do this if you have confirmed by physical test that this " ++
      "unit is yours.\n")
  else
    match requireKnown file target address with
    | .ok known => .print s!"device registry: {address} is ours ({known.label})"
    | .error e => .raise (.registry e)

/-- Whether a command may connect to the device. -/
def Owned (address : String) (force : Bool) : Prop :=
  force ∨ Registered file address

end

/-! ### Exit codes -/

/-- The `except` clauses of `main`: a cancellation alone passes them. -/
def exitCode : CliError → Option (Command ℕ)
  | .keyboardInterrupt => some (.ret 130)
  | .cancelledError => none
  | _ => some (.ret 1)

/-- `main`, for the command that was parsed. -/
def main (command : Command ℕ) : Command ℕ :=
  command.tryExcept exitCode

/-- An exception ends a command with one of two exit codes, and nothing else is done. -/
theorem exitCode_clause {e : CliError} {clause : Command ℕ} (h : exitCode e = some clause) :
    ∃ code, clause = .ret code ∧ (code = 1 ∨ code = 130) := by
  unfold exitCode at h
  split at h
  · exact ⟨130, (Option.some.inj h).symm, .inr rfl⟩
  · simp at h
  · exact ⟨1, (Option.some.inj h).symm, .inl rfl⟩

/-! ### What takes the device -/

/-- The device whose one BLE slot an operation takes. -/
def Op.takes : Op → Option String
  | .connect address _ | .startSession address _ _ _ => some address
  | _ => none

def Op.isPrint : Op → Bool
  | .print _ => true
  | _ => false

section

variable {α β : Type} {file : RegistryFile} {target address : String} {force : Bool}
  {S : Op → Prop}

theorem asks_print (hS : ∀ text, S (.print text)) (text : String) :
    (Command.print text).Asks S :=
  Coroutine.asks_ask (hS text)

theorem asks_printAll (hS : ∀ text, S (.print text)) (texts : List (Except EncodeError String)) :
    (Command.printAll texts).Asks S := by
  induction texts with
  | nil => exact Coroutine.asks_ret ()
  | cons text texts ih =>
      cases text with
      | ok text => exact (asks_print hS text).bind fun _ => ih
      | error e => exact Coroutine.asks_raise _

theorem asks_checkOwnership (hS : ∀ text, S (.print text)) :
    (checkOwnership file target address force).Asks S := by
  unfold checkOwnership
  split
  · exact asks_print hS _
  · split
    · exact asks_print hS _
    · exact Coroutine.asks_raise _

/-- What comes after the check of ownership comes only for a device that is owned. -/
theorem owned_of_checked {f : Unit → Command α} {h : List Step} {o : Progress CliError α}
    (hruns : ((checkOwnership file target address force).bind f).Runs h o)
    (hne : ∃ e ∈ h, e.operation.isPrint = false) : Owned file address force := by
  by_cases howned : Owned file address force
  · exact howned
  · obtain ⟨hforce, hunregistered⟩ : force = false ∧ ¬Registered file address := by
      simpa [Owned] using howned
    have hunknown := (requireKnown_ok_iff file target address).not.mpr hunregistered
    cases hknown : requireKnown file target address with
    | ok known => exact absurd ⟨known, hknown⟩ hunknown
    | error e =>
        simp only [checkOwnership, hforce, hknown, Bool.false_eq_true, if_false] at hruns
        obtain ⟨e', he', -⟩ := hne
        cases hruns <;> simp at he'

/-- What a command does after the check of ownership is for a device that is owned. -/
theorem asks_checked {f : Unit → Command α} (hprint : ∀ text, S (.print text))
    (hf : Owned file address force → (f ()).Asks S) :
    ((checkOwnership file target address force).bind f).Asks S := by
  by_cases howned : Owned file address force
  · exact (asks_checkOwnership hprint).bind fun _ => hf howned
  · intro h o hruns e he
    cases hop : e.operation with
    | print text => exact hprint text
    | _ => exact absurd (owned_of_checked hruns ⟨e, he, by rw [hop]; rfl⟩) howned

end

end Bedjet.Cli
