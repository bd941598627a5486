import Bedjet.Api.Service
import Bedjet.Asyncio.History
import Bedjet.Asyncio.Machine

/-!
The whole service: one session with its transport, reader, commander and link
coroutines, any number of commands and API calls on it, and the environment
(notifications, read and write results, drops, the passing of time). An action
names what happens next; a run of actions is one interleaving, and the trace
records what happened in it, the newest first.
-/

namespace Bedjet.Api

open Python Protocol Device Service Asyncio

inductive Event
  /-- `transport.connect` returned -/
  | connected
  | reader (event : ReaderEvent)
  /-- the reader handed a reading to `on_state` -/
  | published (sample : Sample)
  | command (i : ℕ) (event : CommandEvent)

structure System where
  now : ℚ := 0
  lease : Lease := {}
  commander : Commander := {}
  /-- the session's `_reading`, `_packet` and `_reading_at` -/
  reading : Option BedJetState := none
  packet : Option StatusPacket := none
  readingAt : Option ℚ := none
  calls : List ApiCall := []
  trace : List Event := []

/-- What can happen next. -/
inductive Action
  /-- time passes -/
  | pass (dt : ℚ)
  | drop
  | powerOn
  /-- the transport calls the reader back with a notification -/
  | notify (data : Bytes)
  | completion (i : ℕ) (step : Reader.CompletionStep)
  | poll (i : ℕ) (step : Reader.PollStep)
  | start
  | stop
  | yieldLink (seconds : ℚ)
  | resume
  /-- a link coroutine runs -/
  | link (t : ℕ) (step : Lease.LinkStep)
  /-- a command is called on the commander -/
  | command (request : Request) (dryRun : Bool)
  /-- a command is called on the API -/
  | call (request : ApiRequest) (dryRun : Bool)
  /-- the bytes of a pending write reach the device -/
  | deliver (i : ℕ)
  /-- a command runs -/
  | wake (i : ℕ) (wakeup : Wakeup)

namespace System

section

variable (cfg : Config)

def emit (s : System) (events : List Event) : System :=
  { s with trace := events ++ s.trace }

def setLease (s : System) (lease : Lease) : System :=
  { s with lease }

/-- `DeviceSession.snapshot()`, for an adapter. -/
def snapshot (s : System) : DeviceSnapshot :=
  let age := s.readingAt.map (s.now - ·)
  .fromSession
    { link := s.lease.link
      reading := s.reading
      readingAgeS := age
      stale := age.all (cfg.staleAfterS < ·) }

/-- `yield_remaining_s` -/
def yieldRemainingS (s : System) : Option ℚ :=
  s.lease.yieldUntil.map fun deadline => max 0 (deadline - s.now)

/-- The commander's `_on_state` with the session as its observer. -/
def onState (s : System) (sample : Sample) : System :=
  { s with
    commander := s.commander.onState sample
    reading := some sample.state
    packet := some sample.packet
    readingAt := some s.now
    trace := .published sample :: s.trace }

/-- The reader took in some data, and publishes it if it may be believed. -/
def takeIn (s : System) (intake : Intake) : System :=
  let s := (s.setLease { s.lease with reader := intake.reader }).emit
    (intake.events.map .reader)
  match intake.published with
  | some sample => s.onState sample
  | none => s

/-! ### Commands and API calls -/

/-- The API calls that await command `i` go on when it has ended. -/
def answer (s : System) (i : ℕ) : Pc → System
  | .ended ending => { s with calls := s.calls.map fun c => c.finish i (s.snapshot cfg) ending }
  | _ => s

/-- Command `i` runs a segment. -/
def runCommand (s : System) (i : ℕ) (c : Command) (segment : Segment) : System :=
  let reader := if segment.poked then s.lease.reader.pokeNow else s.lease.reader
  (({ s with
      lease := { s.lease with reader }
      commander := s.commander.put i c segment }.emit
        (segment.events.map (.command i))).answer cfg i segment.pc)

/-- A command is called: it runs up to its first suspension. -/
def beginCommand (s : System) (request : Request) (dryRun : Bool) : System :=
  let i := s.commander.commands.length
  let c : Command := { request, dryRun }
  let s := { s with commander :=
    { s.commander with commands := s.commander.commands ++ [c] } }
  s.runCommand cfg i c (request.begin cfg.settleTimeout s.now dryRun s.commander.shared)

/-- A command is called on the API: parse, check the link, and run it. -/
def beginCall (s : System) (request : ApiRequest) (dryRun : Bool) : System :=
  match request.resolve with
  | .error refusal => { s with calls := s.calls ++ [{ dryRun, answer := some refusal }] }
  | .ok resolved =>
      if s.lease.link ≠ .connected then
        let message := unavailableMessage s.lease.link s.yieldRemainingS
        { s with calls := s.calls ++ [{ dryRun, answer := some (.unavailable message) }] }
      else
        let call : ApiCall :=
          { dryRun
            command := some s.commander.commands.length
            description := resolved.description
            before := some (s.snapshot cfg) }
        { s with calls := s.calls ++ [call] }.beginCommand cfg resolved.request dryRun

/-- The bytes of the pending write of command `i` reach the device, over a link
that is up. -/
def deliver (s : System) (i : ℕ) : Option System := do
  let c ← s.commander.commands[i]?
  match c.pc with
  | .writing order before false =>
      if s.lease.transport.isConnected then
        some ({ s with commander := { s.commander with
          commands := s.commander.commands.set i { c with pc := .writing order before true } } }.emit
            [.command i (.delivered order.payload)])
      else none
  | _ => none

/-- Command `i` is resumed. -/
def wake (s : System) (i : ℕ) (wakeup : Wakeup) : Option System := do
  let c ← s.commander.commands[i]?
  let segment ← c.pc.resume cfg.settleTimeout s.now c.dryRun s.commander.shared wakeup
  return s.runCommand cfg i c segment

/-! ### Steps -/

/-- A link coroutine runs; a connection made is on the record. -/
def linkStep (s : System) (t : ℕ) (step : Lease.LinkStep) : Option System := do
  let lease ← s.lease.taskStep cfg s.now t step
  match step with
  | .connected => some ((s.setLease lease).emit [.connected])
  | _ => some (s.setLease lease)

def step (s : System) : Action → Option System
  | .pass dt => if 0 ≤ dt then some { s with now := s.now + dt } else none
  | .drop => some (s.setLease s.lease.drop)
  | .powerOn => some (s.setLease s.lease.powerOn)
  | .notify data =>
      match cfg.pollInterval with
      | some _ => none
      | none => some (s.takeIn (s.lease.reader.onNotify data s.lease.transport.isConnected))
  | .completion i step =>
      (s.lease.reader.completionStep i step s.lease.transport.isConnected).map s.takeIn
  | .poll i step =>
      match cfg.pollInterval with
      | some interval =>
          (s.lease.reader.pollStep i step s.now interval.1 s.lease.transport.isConnected).map
            s.takeIn
      | none => none
  | .start => (s.lease.start cfg s.now).map s.setLease
  | .stop => (s.lease.stop cfg).map s.setLease
  | .yieldLink seconds => some (s.setLease (s.lease.yieldLink cfg s.now seconds))
  | .resume => some (s.setLease s.lease.resume)
  | .link t step => s.linkStep cfg t step
  | .command request dryRun => some (s.beginCommand cfg request dryRun)
  | .call request dryRun => some (s.beginCall cfg request dryRun)
  | .deliver i => s.deliver i
  | .wake i wakeup => s.wake cfg i wakeup

/-- The service as a machine. -/
def machine : Machine System Action where
  step := step cfg

/-- The states a run from a fresh session can reach. -/
def Reachable (s : System) : Prop :=
  ∃ actions, (machine cfg).run {} actions = some s

end

end System

end Bedjet.Api
