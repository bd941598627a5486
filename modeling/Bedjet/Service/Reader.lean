import Bedjet.Service.Commander

/-!
Status reading. In notify mode the reader subscribes and completes each
truncated notification with one follow-up read; in poll mode it reads the
characteristic on an interval and accepts only whole packets. Either way a
packet that fails its checksum is counted and dropped, never published.

The follow-up reads and the poll loop are tasks of their own. Tasks are named by
their position in the order of creation; the reader's `_completion` and
`_poll_task` are such names. A task whose cancellation was requested ends at its
next step, whatever it was waiting for.
-/

namespace Bedjet.Service

open Python Protocol Device Asyncio

inductive CompletionPhase | scheduled | reading | done
  deriving DecidableEq

/-- A `_complete_partial` task. -/
structure Completion where
  /-- the fragment to complete -/
  first : Bytes
  /-- the number of the notification that delivered it -/
  chunk : ℕ
  phase : CompletionPhase := .scheduled
  cancelled : Bool := false

inductive PollPhase
  | scheduled
  | reading
  /-- between two reads, waiting for a poke or the interval -/
  | pausing (wait : Wait)
  | done
  deriving DecidableEq

/-- A `_poll_loop` task. -/
structure PollTask where
  phase : PollPhase := .scheduled
  cancelled : Bool := false

structure Reader where
  /-- whether `_loop` is set -/
  loopSet : Bool := false
  completion : Option ℕ := none
  pollTask : Option ℕ := none
  running : Bool := false
  poke : Bool := false
  packetsSeen : ℕ := 0
  partialsSeen : ℕ := 0
  rejectedChecksum : ℕ := 0
  rejectedNotAPacket : ℕ := 0
  droppedWhileBusy : ℕ := 0
  polls : ℕ := 0
  pollsWhole : ℕ := 0
  pollsPartial : ℕ := 0
  pollsAlien : ℕ := 0
  pollFailures : ℕ := 0
  completions : List Completion := []
  pollTasks : List PollTask := []

/-- The data a reader is handed. -/
inductive ReaderEvent
  /-- a notification, or a poll read that returned -/
  | heard (chunk : ℕ) (data : Bytes)
  /-- a follow-up read that returned, for the notification of that number -/
  | readBack (chunk : ℕ) (data : Bytes)

/-- The effect of the reader on one delivery: its new state, what was delivered
(newest first), and the reading published, if any. -/
structure Intake where
  reader : Reader
  events : List ReaderEvent := []
  published : Option Sample := none

namespace Reader

/-- `_publish`; `available` is `transport.is_connected`. -/
def publish (r : Reader) (packet : StatusPacket) (chunk : ℕ) (available : Bool) : Intake :=
  if packet.isTrustworthy then
    { reader := r
      published := some { state := .fromStatus packet available, packet, chunk } }
  else { reader := { r with rejectedChecksum := r.rejectedChecksum + 1 } }

/-- `_completion is not None and not _completion.done()` -/
def busy (r : Reader) : Bool :=
  (r.completion.bind (r.completions[·]?)).any (·.phase ≠ .done)

def newCompletion (r : Reader) (first : Bytes) : Reader :=
  { r with
    completion := some r.completions.length
    completions := r.completions ++ [{ first, chunk := r.packetsSeen }] }

/-! ### Notify mode -/

/-- `_on_notify` -/
def onNotify (r : Reader) (data : Bytes) (available : Bool) : Intake :=
  let r := { r with packetsSeen := r.packetsSeen + 1 }
  let intake : Intake :=
    if !looksLikePacketStart data then
      { reader := { r with rejectedNotAPacket := r.rejectedNotAPacket + 1 } }
    else
      let packet := decodeStatus data
      if !packet.isComplete then
        if r.busy then { reader := { r with droppedWhileBusy := r.droppedWhileBusy + 1 } }
        else
          let r := { r with partialsSeen := r.partialsSeen + 1 }
          { reader := if r.loopSet then r.newCompletion data else r }
      else r.publish packet r.packetsSeen available
  { intake with events := [.heard r.packetsSeen data] }

/-- What happens to a follow-up task. -/
inductive CompletionStep
  /-- it runs up to its read, or ends if it was cancelled before -/
  | begin
  /-- its read returns -/
  | data (remainder : Bytes)
  /-- its read raises or times out -/
  | failed
  /-- the requested cancellation is raised at its read -/
  | cancelled

def putCompletion (r : Reader) (i : ℕ) (c : Completion) : Reader :=
  { r with completions := r.completions.set i c }

/-- `_complete_partial` -/
def completionStep (r : Reader) (i : ℕ) (step : CompletionStep) (available : Bool) :
    Option Intake := do
  let c ← r.completions[i]?
  match step, c.phase, c.cancelled with
  | .begin, .scheduled, false => some { reader := r.putCompletion i { c with phase := .reading } }
  | .begin, .scheduled, true => some { reader := r.putCompletion i { c with phase := .done } }
  | .data remainder, .reading, false =>
      let intake := (r.putCompletion i { c with phase := .done }).publish
        (decodeStatus (reassemble c.first remainder)) c.chunk available
      some { intake with events := [.readBack c.chunk remainder] }
  | .failed, .reading, false => some { reader := r.putCompletion i { c with phase := .done } }
  | .cancelled, .reading, true => some { reader := r.putCompletion i { c with phase := .done } }
  | _, _, _ => none

/-! ### Poll mode -/

/-- `poke()` -/
def pokeNow (r : Reader) : Reader :=
  { r with
    poke := true
    pollTasks := r.pollTasks.map fun t =>
      match t.phase with
      | .pausing wait => { t with phase := .pausing wait.notify }
      | _ => t }

/-- `_classify_poll` -/
def classifyPoll (r : Reader) (data : Bytes) (available : Bool) : Intake :=
  if looksLikePacketStart data then
    let packet := decodeStatus data
    if packet.isComplete then
      { r with pollsWhole := r.pollsWhole + 1 }.publish packet r.packetsSeen available
    else { reader := { r with pollsPartial := r.pollsPartial + 1 } }
  else { reader := { r with pollsAlien := r.pollsAlien + 1 } }

def putPollTask (r : Reader) (i : ℕ) (t : PollTask) : Reader :=
  { r with pollTasks := r.pollTasks.set i t }

/-- The end of an iteration of `_poll_loop`: read again at once if poked, else
wait out the interval. -/
def afterPoll (r : Reader) (i : ℕ) (t : PollTask) (now interval : ℚ) : Reader :=
  if r.poke then { r with poke := false }.putPollTask i { t with phase := .reading }
  else r.putPollTask i { t with phase := .pausing { due := now + interval } }

/-- What happens to a poll task. -/
inductive PollStep
  /-- it runs up to its first read, or ends if it was cancelled before -/
  | begin
  /-- its read returns -/
  | data (data : Bytes)
  /-- its read raises -/
  | failed
  /-- its wait ends by a poke -/
  | poked
  /-- its wait ends by the interval -/
  | elapsed
  /-- the requested cancellation is raised where it is suspended -/
  | cancelled

/-- `_poll_loop` -/
def pollStep (r : Reader) (i : ℕ) (step : PollStep) (now interval : ℚ) (available : Bool) :
    Option Intake := do
  let t ← r.pollTasks[i]?
  match step, t.phase, t.cancelled with
  | .begin, .scheduled, false => some { reader := r.putPollTask i { t with phase := .reading } }
  | .begin, .scheduled, true => some { reader := r.putPollTask i { t with phase := .done } }
  | .data data, .reading, false =>
      let r := { r with polls := r.polls + 1, packetsSeen := r.packetsSeen + 1 }
      let intake := r.classifyPoll data available
      some { intake with
        reader := intake.reader.afterPoll i t now interval
        events := [.heard r.packetsSeen data] }
  | .failed, .reading, false =>
      some { reader :=
        { r with pollFailures := r.pollFailures + 1 }.afterPoll i t now interval }
  | .poked, .pausing wait, false =>
      if wait.woken then
        some { reader := { r with poke := false }.putPollTask i { t with phase := .reading } }
      else none
  | .elapsed, .pausing wait, false =>
      if wait.due ≤ now then
        some { reader := { r with poke := false }.putPollTask i { t with phase := .reading } }
      else none
  | .cancelled, .reading, true => some { reader := r.putPollTask i { t with phase := .done } }
  | .cancelled, .pausing _, true => some { reader := r.putPollTask i { t with phase := .done } }
  | _, _, _ => none

/-! ### Starting and stopping -/

/-- `start()` in poll mode. -/
def startPolling (r : Reader) : Reader :=
  { r with
    loopSet := true
    poke := false
    pollTask := some r.pollTasks.length
    pollTasks := r.pollTasks ++ [{}]
    running := true }

/-- Request the cancellation of a follow-up task. -/
def cancelCompletion (r : Reader) (i : ℕ) : Reader :=
  { r with completions := r.completions.modify i fun c => { c with cancelled := true } }

/-- Request the cancellation of a poll task. -/
def cancelPollTask (r : Reader) (i : ℕ) : Reader :=
  { r with pollTasks := r.pollTasks.modify i fun t => { t with cancelled := true } }

def completionDone (r : Reader) (i : ℕ) : Bool :=
  r.completions[i]?.all (·.phase = .done)

def pollTaskDone (r : Reader) (i : ℕ) : Bool :=
  r.pollTasks[i]?.all (·.phase = .done)

end Reader

end Bedjet.Service
