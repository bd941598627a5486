import Bedjet.Asyncio.Machine
import Bedjet.Service.LinkReader

/-!
A status reader by itself: any number of calls of its `start` and `stop`, which
may overlap, its follow-up and poll tasks, and a transport that calls
`_on_notify` back from the moment it is asked to subscribe until it is no longer
subscribed. The trace records what happened, the newest first.

`_publish` invokes `on_state` as the last thing it does. If that raises, the
poll loop catches it and goes on, and a notification callback or a follow-up
task has nothing left to do; either way the reader is as it would have been, and
only the record of the invocation tells.
-/

namespace Bedjet.Service

open Python Protocol Device Asyncio

/-- The reader's `poll_interval`, which it refuses unless positive. -/
abbrev PollInterval := Option { q : ℚ // 0 < q }

/-- Where a call of `start` or `stop` is suspended. -/
inductive ReaderPc
  /-- in `transport.subscribe` -/
  | subscribing
  /-- in `stop`, awaiting the task it cancelled -/
  | awaiting (child : ℕ)
  /-- in `transport.unsubscribe` -/
  | unsubscribing
  | returned
  | raised
  deriving DecidableEq

/-- Whether a call of `stop` is in progress there. -/
def ReaderPc.stopping : ReaderPc → Bool
  | .awaiting _ | .unsubscribing => true
  | _ => false

namespace Reader

/-- `stop()`, up to its first suspension. -/
def beginStop (r : Reader) (pollInterval : PollInterval) : Reader × ReaderPc :=
  if !r.running then (r, .returned)
  else
    let r := { r with running := false }
    match pollInterval with
    | some _ =>
        match r.pollTask with
        | some i => ({ r with pollTask := none }.cancelPollTask i, .awaiting i)
        | none => (r, .returned)
    | none =>
        match r.completion with
        | some i =>
            if r.completionDone i then ({ r with completion := none }, .unsubscribing)
            else (r.cancelCompletion i, .awaiting i)
        | none => (r, .unsubscribing)

/-- Whether the task that `stop` awaits has ended. -/
def childDone (r : Reader) (pollInterval : PollInterval) (child : ℕ) : Bool :=
  match pollInterval with
  | some _ => r.pollTaskDone child
  | none => r.completionDone child

/-- `stop()` after the task it awaited, whose `CancelledError` it suppresses. -/
def childStopped (r : Reader) (pollInterval : PollInterval) : Reader × ReaderPc :=
  match pollInterval with
  | some _ => (r, .returned)
  | none => ({ r with completion := none }, .unsubscribing)

end Reader

/-! ### The same in the lease -/

/-- Where a link coroutine is suspended that has called the reader's `stop`. -/
def ReaderPc.link : ReaderPc → LinkPc
  | .subscribing => .subscribing
  | .awaiting child => .stoppingReader child
  | .unsubscribing => .unsubscribing
  | .returned => .disconnecting
  | .raised => .raised

namespace Lease

variable (cfg : Config) (l : Lease) (t : ℕ)

theorem teardownLocked_eq_beginStop :
    l.teardownLocked cfg t = { l with reader := (l.reader.beginStop cfg.pollInterval).1 }.setPc t
      (l.reader.beginStop cfg.pollInterval).2.link := by
  unfold teardownLocked Reader.beginStop
  split
  · rfl
  · dsimp only
    cases cfg.pollInterval with
    | some _ =>
        dsimp only
        cases l.reader.pollTask <;> rfl
    | none =>
        dsimp only
        cases l.reader.completion with
        | none => rfl
        | some i =>
            dsimp only
            split
            · rfl
            · rfl

theorem childDone_eq (child : ℕ) :
    l.childDone cfg child = l.reader.childDone cfg.pollInterval child := rfl

theorem onReaderStopped_eq_childStopped :
    l.onReaderStopped cfg t = { l with reader := (l.reader.childStopped cfg.pollInterval).1 }.setPc
      t (l.reader.childStopped cfg.pollInterval).2.link := by
  unfold onReaderStopped Reader.childStopped
  cases cfg.pollInterval <;> rfl

end Lease

/-! ### The record of a run -/

/-- What happened in a run. -/
inductive Mark
  /-- `start` was called -/
  | starting
  /-- `stop` returned -/
  | stopped
  /-- a notification, or a poll read that returned -/
  | heard (chunk : ℕ) (data : Bytes)
  /-- the follow-up read returned for the fragment of that notification -/
  | readBack (chunk : ℕ) (first remainder : Bytes)
  /-- the follow-up task of that notification failed or was cancelled -/
  | gaveUp (chunk : ℕ)
  /-- `on_state` was invoked, and perhaps raised -/
  | published (sample : Sample) (raised : Bool)

/-- What a step of a follow-up task leaves on the record. -/
def Completion.marks (c : Completion) : Reader.CompletionStep → List Mark
  | .begin => if c.cancelled then [.gaveUp c.chunk] else []
  | .data remainder => [.readBack c.chunk c.first remainder]
  | .failed | .cancelled => [.gaveUp c.chunk]

/-- What a step of the poll loop leaves on the record, `chunk` reads on. -/
def Reader.PollStep.marks (chunk : ℕ) : Reader.PollStep → List Mark
  | .data bytes => [.heard chunk bytes]
  | .begin | .failed | .poked | .elapsed | .cancelled => []

/-- Whether `data` begins a packet and holds all of it. -/
def isWhole (data : Bytes) : Bool :=
  looksLikePacketStart data && (decodeStatus data).isComplete

/-- Whether `data` begins a packet that it holds only a part of. -/
def isFragment (data : Bytes) : Bool :=
  looksLikePacketStart data && !(decodeStatus data).isComplete

namespace Reader

/-! ### What becomes of a delivery -/

/-- What `_on_notify` makes of a notification: the reader's new state and what
it publishes. -/
inductive Notified (r : Reader) (data : Bytes) (available : Bool) : Reader → Option Sample → Prop
  /-- it does not begin a packet -/
  | tail (hwhole : isWhole data = false) (hfragment : isFragment data = false) :
      Notified r data available
        { r with
          packetsSeen := r.packetsSeen + 1
          rejectedNotAPacket := r.rejectedNotAPacket + 1 } none
  /-- a fragment, with a follow-up in flight -/
  | dropped (hwhole : isWhole data = false) (hbusy : r.busy) :
      Notified r data available
        { r with
          packetsSeen := r.packetsSeen + 1
          droppedWhileBusy := r.droppedWhileBusy + 1 } none
  /-- a fragment to follow up -/
  | begun (hwhole : isWhole data = false) (hfragment : isFragment data) (hidle : r.busy = false) :
      Notified r data available
        ({ r with
          packetsSeen := r.packetsSeen + 1
          partialsSeen := r.partialsSeen + 1 }.newCompletion data) none
  | whole (hwhole : isWhole data) :
      Notified r data available
        ({ r with packetsSeen := r.packetsSeen + 1 }.publish (decodeStatus data)
          (r.packetsSeen + 1) available).reader
        ({ r with packetsSeen := r.packetsSeen + 1 }.publish (decodeStatus data)
          (r.packetsSeen + 1) available).published

theorem notified_onNotify {r : Reader} (hloop : r.loopSet) (data : Bytes) (available : Bool) :
    r.Notified data available (r.onNotify data available).reader
      (r.onNotify data available).published := by
  rw [onNotify]
  dsimp only
  split
  · rename_i hstart
    have hno : looksLikePacketStart data = false := by simpa using hstart
    exact .tail (by simp [isWhole, hno]) (by simp [isFragment, hno])
  · rename_i hstart
    have hyes : looksLikePacketStart data := by simpa using hstart
    split
    · rename_i hpart
      have hpart' : (decodeStatus data).isComplete = false := by simpa using hpart
      have hwhole : isWhole data = false := by simp [isWhole, hpart']
      split
      · rename_i hbusy
        exact .dropped hwhole hbusy
      · rename_i hidle
        have hfragment : isFragment data := by simp [isFragment, hyes, hpart']
        exact .begun hwhole hfragment (Bool.eq_false_of_not_eq_true hidle)
    · rename_i hcomplete
      have hcomplete' : (decodeStatus data).isComplete := by simpa using hcomplete
      exact .whole (by simp [isWhole, hyes, hcomplete'])

/-- What a step of a follow-up task does: the reader's new state, what it
publishes, and what is left on the record. -/
inductive Followed (r : Reader) (i : ℕ) (c : Completion) (available : Bool) :
    Reader → Option Sample → List Mark → Prop
  | reading (hphase : c.phase = .scheduled) (hcancelled : c.cancelled = false) :
      Followed r i c available (r.putCompletion i { c with phase := .reading }) none []
  | gaveUp (hphase : c.phase ≠ .done) :
      Followed r i c available (r.putCompletion i { c with phase := .done }) none
        [.gaveUp c.chunk]
  | readBack (hphase : c.phase ≠ .done) (hcancelled : c.cancelled = false) (remainder : Bytes) :
      Followed r i c available
        ((r.putCompletion i { c with phase := .done }).publish
          (decodeStatus (reassemble c.first remainder)) c.chunk available).reader
        ((r.putCompletion i { c with phase := .done }).publish
          (decodeStatus (reassemble c.first remainder)) c.chunk available).published
        [.readBack c.chunk c.first remainder]

theorem followed_completionStep {r : Reader} {i : ℕ} {c : Completion} {step : CompletionStep}
    {available : Bool} {intake : Intake} (hc : r.completions[i]? = some c)
    (h : r.completionStep i step available = some intake) :
    r.Followed i c available intake.reader intake.published (c.marks step) := by
  cases completes_of_step h with
  | begins hc' hphase hcancelled =>
      obtain rfl : c = _ := Option.some.inj (hc.symm.trans hc')
      simpa [Completion.marks, hcancelled] using Followed.reading hphase hcancelled
  | ends hc' hphase hstep =>
      obtain rfl : c = _ := Option.some.inj (hc.symm.trans hc')
      have hmarks : c.marks step = [.gaveUp c.chunk] := by
        rcases hstep with ⟨rfl, hcancelled⟩ | rfl | rfl
        · simp [Completion.marks, hcancelled]
        · rfl
        · rfl
      rw [hmarks]
      exact .gaveUp hphase
  | readsBack hc' hphase hcancelled remainder =>
      obtain rfl : c = _ := Option.some.inj (hc.symm.trans hc')
      exact .readBack (by simp [hphase]) hcancelled remainder

end Reader

/-! ### The machine -/

structure ReaderRun where
  now : ℚ := 0
  reader : Reader := {}
  /-- whether the transport calls `_on_notify` back; the code has no such field -/
  live : Bool := false
  calls : List ReaderPc := []
  trace : List Mark := []

/-- Why a suspended call of `start` or `stop` runs again; `kept` is whether the
transport goes on calling back. -/
inductive CallStep
  | subscribed
  /-- `transport.subscribe` raised, or its caller was cancelled -/
  | subscribeFailed (kept : Bool)
  /-- the awaited task ended; so it looks to a caller that was cancelled, too -/
  | childStopped
  /-- `transport.unsubscribe` returned or raised -/
  | unsubscribed (kept : Bool)
  /-- the caller was cancelled in `transport.unsubscribe` -/
  | unsubscribeCancelled

/-- What can happen next. `available` is the transport's `is_connected`, and
`raises` whether `on_state` raises if it is invoked. -/
inductive ReaderAction
  | pass (dt : ℚ)
  | start
  | stop
  | call (j : ℕ) (step : CallStep)
  | notify (data : Bytes) (available raises : Bool)
  | completion (i : ℕ) (step : Reader.CompletionStep) (available raises : Bool)
  | poll (i : ℕ) (step : Reader.PollStep) (available raises : Bool)
  | poke

namespace ReaderRun

variable (pollInterval : PollInterval)

def emit (s : ReaderRun) (marks : List Mark) : ReaderRun :=
  { s with trace := marks ++ s.trace }

def setReader (s : ReaderRun) (reader : Reader) : ReaderRun :=
  { s with reader }

def setCall (s : ReaderRun) (j : ℕ) (pc : ReaderPc) : ReaderRun :=
  { s with calls := s.calls.set j pc }

/-- The reader took in some data. -/
def takeIn (s : ReaderRun) (intake : Intake) (marks : List Mark) (raises : Bool) : ReaderRun :=
  (s.setReader intake.reader).emit (intake.published.toList.map (.published · raises) ++ marks)

/-- A call of `stop` reaches its next suspension, or returns. -/
def stopAt (s : ReaderRun) (j : ℕ) (reader : Reader) (pc : ReaderPc) : ReaderRun :=
  ((s.setReader reader).setCall j pc).emit (if pc = .returned then [.stopped] else [])

/-- `start()` is called. -/
def start (s : ReaderRun) : ReaderRun :=
  let s := s.emit [.starting]
  match pollInterval with
  | some _ => { s with reader := s.reader.startPolling, calls := s.calls ++ [.returned] }
  | none =>
      { s with
        reader := { s.reader with loopSet := true }
        live := true
        calls := s.calls ++ [.subscribing] }

/-- `stop()` is called. -/
def stop (s : ReaderRun) : ReaderRun :=
  let (reader, pc) := s.reader.beginStop pollInterval
  { s with calls := s.calls ++ [pc] }.stopAt s.calls.length reader pc

/-- The call of that number runs up to its next suspension. -/
def callStep (s : ReaderRun) (j : ℕ) (step : CallStep) : Option ReaderRun := do
  let pc ← s.calls[j]?
  match pc, step with
  | .subscribing, .subscribed =>
      some ((s.setReader { s.reader with running := true }).setCall j .returned)
  | .subscribing, .subscribeFailed kept =>
      some ({ s with live := s.live && kept }.setCall j .raised)
  | .awaiting child, .childStopped =>
      if s.reader.childDone pollInterval child then
        let (reader, pc) := s.reader.childStopped pollInterval
        some (s.stopAt j reader pc)
      else none
  | .unsubscribing, .unsubscribed kept =>
      some ({ s with live := s.live && kept }.stopAt j s.reader .returned)
  | .unsubscribing, .unsubscribeCancelled => some (s.setCall j .raised)
  | _, _ => none

def step (s : ReaderRun) : ReaderAction → Option ReaderRun
  | .pass dt => if 0 ≤ dt then some { s with now := s.now + dt } else none
  | .start => some (s.start pollInterval)
  | .stop => some (s.stop pollInterval)
  | .call j step => s.callStep pollInterval j step
  | .notify data available raises =>
      if s.live then
        some (s.takeIn (s.reader.onNotify data available)
          [.heard (s.reader.packetsSeen + 1) data] raises)
      else none
  | .completion i step available raises => do
      let c ← s.reader.completions[i]?
      let intake ← s.reader.completionStep i step available
      return s.takeIn intake (c.marks step) raises
  | .poll i step available raises => do
      let interval ← pollInterval
      let intake ← s.reader.pollStep i step s.now interval.1 available
      return s.takeIn intake (step.marks intake.reader.packetsSeen) raises
  | .poke => some (s.setReader s.reader.pokeNow)

/-- The reader as a machine. -/
def machine : Machine ReaderRun ReaderAction where
  step := step pollInterval

/-! ### What a step is -/

/-- What a call in progress does. -/
inductive Called (s : ReaderRun) (j : ℕ) : CallStep → ReaderRun → Prop
  | subscribed (hpc : s.calls[j]? = some .subscribing) :
      Called s j .subscribed
        ((s.setReader { s.reader with running := true }).setCall j .returned)
  | subscribeFailed (hpc : s.calls[j]? = some .subscribing) (kept : Bool) :
      Called s j (.subscribeFailed kept) ({ s with live := s.live && kept }.setCall j .raised)
  | childStopped {child : ℕ} (hpc : s.calls[j]? = some (.awaiting child))
      (hdone : s.reader.childDone pollInterval child) :
      Called s j .childStopped
        (s.stopAt j (s.reader.childStopped pollInterval).1
          (s.reader.childStopped pollInterval).2)
  | unsubscribed (hpc : s.calls[j]? = some .unsubscribing) (kept : Bool) :
      Called s j (.unsubscribed kept)
        ({ s with live := s.live && kept }.stopAt j s.reader .returned)
  | unsubscribeCancelled (hpc : s.calls[j]? = some .unsubscribing) :
      Called s j .unsubscribeCancelled (s.setCall j .raised)

/-- What the reader does on an action. -/
inductive Stepped : PollInterval → ReaderRun → ReaderAction → ReaderRun → Prop
  | pass {pollInterval : PollInterval} {s : ReaderRun} {dt : ℚ} (hdt : 0 ≤ dt) :
      Stepped pollInterval s (.pass dt) { s with now := s.now + dt }
  | start {pollInterval : PollInterval} {s : ReaderRun} :
      Stepped pollInterval s .start (s.start pollInterval)
  | stop {pollInterval : PollInterval} {s : ReaderRun} :
      Stepped pollInterval s .stop (s.stop pollInterval)
  | call {pollInterval : PollInterval} {s s' : ReaderRun} {j : ℕ} {step : CallStep}
      (hcalled : Called pollInterval s j step s') : Stepped pollInterval s (.call j step) s'
  | notify {pollInterval : PollInterval} {s : ReaderRun} {data : Bytes} {available raises : Bool}
      (hlive : s.live) :
      Stepped pollInterval s (.notify data available raises)
        (s.takeIn (s.reader.onNotify data available)
          [.heard (s.reader.packetsSeen + 1) data] raises)
  | completion {pollInterval : PollInterval} {s : ReaderRun} {i : ℕ}
      {step : Reader.CompletionStep} {available raises : Bool} {c : Completion} {intake : Intake}
      (hc : s.reader.completions[i]? = some c)
      (hintake : s.reader.completionStep i step available = some intake) :
      Stepped pollInterval s (.completion i step available raises)
        (s.takeIn intake (c.marks step) raises)
  | poll {interval : { q : ℚ // 0 < q }} {s : ReaderRun} {i : ℕ} {step : Reader.PollStep}
      {available raises : Bool} {intake : Intake}
      (hintake : s.reader.pollStep i step s.now interval.1 available = some intake) :
      Stepped (some interval) s (.poll i step available raises)
        (s.takeIn intake (step.marks intake.reader.packetsSeen) raises)
  | poke {pollInterval : PollInterval} {s : ReaderRun} :
      Stepped pollInterval s .poke (s.setReader s.reader.pokeNow)

variable {pollInterval : PollInterval} {s s' : ReaderRun}

theorem called_callStep {j : ℕ} {step : CallStep}
    (hstep : s.callStep pollInterval j step = some s') : Called pollInterval s j step s' := by
  obtain ⟨pc, hpc, hstep⟩ := Option.bind_eq_some_iff.mp hstep
  split at hstep
  · obtain rfl := Option.some.inj hstep
    exact .subscribed hpc
  · obtain rfl := Option.some.inj hstep
    exact .subscribeFailed hpc _
  · split at hstep
    · rename_i hdone
      obtain rfl := Option.some.inj hstep
      exact .childStopped hpc hdone
    · simp at hstep
  · obtain rfl := Option.some.inj hstep
    exact .unsubscribed hpc _
  · obtain rfl := Option.some.inj hstep
    exact .unsubscribeCancelled hpc
  · simp at hstep

theorem stepped_of_step {a : ReaderAction} (hstep : (machine pollInterval).step s a = some s') :
    Stepped pollInterval s a s' := by
  cases a with
  | pass dt =>
      obtain ⟨hdt, rfl⟩ : 0 ≤ dt ∧ _ = s' := by simpa [machine, step] using hstep
      exact .pass hdt
  | start =>
      obtain rfl := Option.some.inj hstep
      exact .start
  | stop =>
      obtain rfl := Option.some.inj hstep
      exact .stop
  | call j step => exact .call (called_callStep hstep)
  | notify data available raises =>
      obtain ⟨hlive, rfl⟩ : s.live ∧ _ = s' := by simpa [machine, step] using hstep
      exact .notify hlive
  | completion i step available raises =>
      obtain ⟨c, hc, hstep⟩ := Option.bind_eq_some_iff.mp hstep
      obtain ⟨intake, hintake, hstep⟩ := Option.bind_eq_some_iff.mp hstep
      obtain rfl := Option.some.inj hstep
      exact .completion hc hintake
  | poll i step available raises =>
      obtain ⟨interval, rfl, hstep⟩ := Option.bind_eq_some_iff.mp hstep
      obtain ⟨intake, hintake, hstep⟩ := Option.bind_eq_some_iff.mp hstep
      obtain rfl := Option.some.inj hstep
      exact .poll hintake
  | poke =>
      obtain rfl := Option.some.inj hstep
      exact .poke

end ReaderRun

end Bedjet.Service
