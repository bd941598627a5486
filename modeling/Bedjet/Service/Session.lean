import Bedjet.Asyncio.Lock
import Bedjet.Service.Reader

/-!
The connection lease: who holds the BedJet's one BLE slot, and when they give it
back. `start`, the supervisor, `yield_link` and `stop` are coroutines over one
transport, one reader and one link lock; each is given by the place where it is
suspended and what it does up to the next suspension.

What is kept of the transport is what the layers above see of it: whether it is
connected, and the event of the adapter powering on. Its operations succeed or
raise as the environment likes, except that `disconnect` leaves it disconnected
even when it raises, which the transport promises.
-/

namespace Bedjet.Service

open Asyncio Device

inductive LinkState | stopped | connecting | connected | yielded | lost
  deriving DecidableEq

def LinkState.value : LinkState → String
  | .stopped => "stopped"
  | .connecting => "connecting"
  | .connected => "connected"
  | .yielded => "yielded"
  | .lost => "lost"

/-- `SessionSnapshot`: what the session believes now, link and device apart. -/
structure SessionSnapshot where
  link : LinkState
  reading : Option BedJetState
  readingAgeS : Option ℚ
  stale : Bool

/-- Whether the BLE link is up. Says nothing about whether the unit is running. -/
def SessionSnapshot.available (s : SessionSnapshot) : Bool :=
  s.link = .connected

/-- The arguments of `DeviceSession` that its behaviour depends on. The reader
refuses a poll interval that is not positive. -/
structure Config where
  settleTimeout : ℚ := 10
  backoffInitial : ℚ := 2
  backoffMax : ℚ := 60
  superviseInterval : ℚ := 1
  staleAfterS : ℚ := 60
  pollInterval : Option { q : ℚ // 0 < q } := none

structure Transport where
  isConnected : Bool := false
  /-- how many connections were made; the code has no such counter -/
  connection : ℕ := 0
  /-- the flag of `adapter_power_on_event()` -/
  adapterPowerOn : Bool := false

/-- The coroutine a task runs. -/
inductive Role | start | supervise | yieldLink | stop
  deriving DecidableEq

/-- Where it is suspended. -/
inductive LinkPc
  /-- a created supervisor that has not run -/
  | scheduled
  /-- in `_connect`, waiting for the link lock -/
  | connectLock
  /-- in `transport.connect` -/
  | connecting
  /-- in `transport.subscribe`, called by the reader's `start` -/
  | subscribing
  /-- in `_teardown`, waiting for the link lock -/
  | teardownLock
  /-- in the reader's `stop`, awaiting the task it cancelled -/
  | stoppingReader (child : ℕ)
  /-- in `transport.unsubscribe`, called by the reader's `stop` -/
  | unsubscribing
  /-- in `transport.disconnect` -/
  | disconnecting
  /-- the supervisor between two ticks -/
  | sleeping (due : ℚ)
  /-- the supervisor after a failed attempt -/
  | backingOff (wait : Wait)
  /-- `stop`, awaiting the supervisor it cancelled -/
  | joining (supervisor : ℕ)
  | returned
  | raised
  deriving DecidableEq

structure LinkTask where
  role : Role
  pc : LinkPc
  /-- whether its cancellation was requested and not raised yet -/
  cancelled : Bool := false
  /-- the local variable of `_supervise` -/
  backoff : ℚ := 0

def LinkPc.finished : LinkPc → Bool
  | .returned | .raised => true
  | _ => false

/-- The part of a session its link coroutines act on. -/
structure Lease where
  transport : Transport := {}
  reader : Reader := {}
  /-- the connection the reader was last started on; the code has no such field -/
  startedOn : Option ℕ := none
  link : LinkState := .stopped
  yieldUntil : Option ℚ := none
  /-- the `yield_link` call that set the deadline; the code has no such field -/
  yieldedBy : Option ℕ := none
  supervisor : Option ℕ := none
  lock : Lock := {}
  tasks : List LinkTask := []

namespace Lease

/-- A coroutine is called; it runs in a task of its own. -/
def spawn (l : Lease) (role : Role) (pc : LinkPc) : Lease :=
  { l with tasks := l.tasks ++ [{ role, pc }] }

def setTask (l : Lease) (t : ℕ) (f : LinkTask → LinkTask) : Lease :=
  { l with tasks := l.tasks.modify t f }

def setPc (l : Lease) (t : ℕ) (pc : LinkPc) : Lease :=
  l.setTask t fun k => { k with pc }

def setLink (l : Lease) (link : LinkState) : Lease :=
  { l with link }

def release (l : Lease) : Lease :=
  { l with lock := l.lock.release }

section

variable (cfg : Config) (now : ℚ)

/-- The supervisor goes back to sleep. -/
def sleep (l : Lease) (t : ℕ) : Lease :=
  l.setPc t (.sleeping (now + cfg.superviseInterval))

/-! ### `_connect` -/

/-- What follows when `_connect` returns. -/
def connectReturned (l : Lease) (t : ℕ) : Role → Lease
  | .start =>
      let l := l.setPc t .returned
      { l with
        supervisor := some l.tasks.length
        tasks := l.tasks ++
          [{ role := .supervise, pc := .scheduled, backoff := cfg.backoffInitial }] }
  | .supervise =>
      (l.setTask t fun k => { k with backoff := cfg.backoffInitial }).sleep cfg now t
  -- the other coroutines never connect
  | .yieldLink | .stop => l

/-- The supervisor after its backoff: the interval doubles up to its bound. -/
def backedOff (l : Lease) (t : ℕ) : Lease :=
  (l.setTask t fun k => { k with backoff := min (k.backoff * 2) cfg.backoffMax }).sleep cfg now t

/-- What follows when `_connect` raises, on a task whose backoff is given. -/
def connectRaised (l : Lease) (t : ℕ) (backoff : ℚ) : Role → Lease
  | .start => (l.setLink .stopped).setPc t .raised
  | .supervise =>
      l.setPc t (.backingOff { woken := l.transport.adapterPowerOn, due := now + backoff })
  | .yieldLink | .stop => l

/-- `_connect` with the lock just taken: unless the link has been given away in
the meantime, it calls `transport.connect`. -/
def connectLocked (l : Lease) (t : ℕ) (role : Role) : Lease :=
  match l.yieldUntil with
  | some _ => l.release.connectReturned cfg now t role
  | none => l.setPc t .connecting

def beginConnect (l : Lease) (t : ℕ) (role : Role) : Lease :=
  if l.lock.isFree then { l with lock := l.lock.take t }.connectLocked cfg now t role
  else { l with lock := l.lock.enqueue t }.setPc t .connectLock

/-- The reader runs: the end of `_connect`. -/
def linkUp (l : Lease) (t : ℕ) (role : Role) : Lease :=
  ((l.setLink .connected).release).connectReturned cfg now t role

/-- `transport.connect` returned; the reader starts. -/
def onConnected (l : Lease) (t : ℕ) (role : Role) : Lease :=
  let l := { l with transport :=
    { l.transport with isConnected := true, connection := l.transport.connection + 1 } }
  match cfg.pollInterval with
  | some _ =>
      { l with
        reader := l.reader.startPolling
        startedOn := some l.transport.connection }.linkUp cfg now t role
  | none => { l with reader := { l.reader with loopSet := true } }.setPc t .subscribing

/-- `transport.subscribe` returned. -/
def onSubscribed (l : Lease) (t : ℕ) (role : Role) : Lease :=
  { l with
    reader := { l.reader with running := true }
    startedOn := some l.transport.connection }.linkUp cfg now t role

/-! ### `_teardown` -/

/-- What follows when `_teardown` returns. -/
def teardownReturned (l : Lease) (t : ℕ) : Role → Lease
  | .supervise =>
      { l with transport := { l.transport with adapterPowerOn := false } }.beginConnect cfg now t
        .supervise
  | .yieldLink => (l.setLink .yielded).setPc t .returned
  | .stop => (l.setLink .stopped).setPc t .returned
  -- the first connection is never torn down by its own call
  | .start => l

/-- `_teardown_locked`, up to its first suspension: the reader's `stop` cancels
the task it owns and awaits it, or has nothing to await. -/
def teardownLocked (l : Lease) (t : ℕ) : Lease :=
  if !l.reader.running then l.setPc t .disconnecting
  else
    let l := { l with reader := { l.reader with running := false } }
    match cfg.pollInterval with
    | some _ =>
        match l.reader.pollTask with
        | some i =>
            { l with reader := { l.reader with pollTask := none }.cancelPollTask i }.setPc t
              (.stoppingReader i)
        | none => l.setPc t .disconnecting
    | none =>
        match l.reader.completion with
        | some i =>
            if l.reader.completionDone i then
              { l with reader := { l.reader with completion := none } }.setPc t .unsubscribing
            else { l with reader := l.reader.cancelCompletion i }.setPc t (.stoppingReader i)
        | none => l.setPc t .unsubscribing

def beginTeardown (l : Lease) (t : ℕ) : Lease :=
  if l.lock.isFree then { l with lock := l.lock.take t }.teardownLocked cfg t
  else { l with lock := l.lock.enqueue t }.setPc t .teardownLock

/-- Whether the task the reader's `stop` awaits has ended. -/
def childDone (l : Lease) (child : ℕ) : Bool :=
  match cfg.pollInterval with
  | some _ => l.reader.pollTaskDone child
  | none => l.reader.completionDone child

/-- The reader's `stop` after the task it awaited, whose `CancelledError` it
suppresses. -/
def onReaderStopped (l : Lease) (t : ℕ) : Lease :=
  match cfg.pollInterval with
  | some _ => l.setPc t .disconnecting
  | none => { l with reader := { l.reader with completion := none } }.setPc t .unsubscribing

/-- `transport.disconnect` ended; the lock is released. -/
def onDisconnected (l : Lease) (t : ℕ) (role : Role) : Lease :=
  ({ l with transport := { l.transport with isConnected := false } }.release).teardownReturned
    cfg now t role

/-! ### The supervisor -/

/-- One tick of `_supervise`, after its sleep. -/
def tick (l : Lease) (t : ℕ) : Lease :=
  if l.yieldUntil.any (now < ·) then l.sleep cfg now t
  else
    let l := { l with yieldUntil := none }
    if l.transport.isConnected then
      ((l.setLink .connected).setTask t fun k => { k with backoff := cfg.backoffInitial }).sleep
        cfg now t
    else (l.setLink .lost).beginTeardown cfg t

/-! ### Resuming a task -/

/-- Why a suspended task runs again. -/
inductive LinkStep
  | granted
  | connected
  /-- `transport.connect` raised, leaving the transport connected or not -/
  | connectFailed (connected : Bool)
  | subscribed
  | subscribeFailed
  | readerStopped
  /-- `transport.unsubscribe` returned or raised -/
  | unsubscribed
  /-- `transport.disconnect` returned or raised -/
  | disconnected
  | begun
  | slept
  | backoffElapsed
  | backoffWoken
  | joined
  /-- a requested cancellation is raised where the task is suspended -/
  | cancelled

/-- The requested cancellation of task `t` is raised. Only the reader's `stop`
suppresses it: awaiting the task it has cancelled itself, it cannot tell whose
cancellation it sees. -/
def cancelTask (l : Lease) (t : ℕ) : LinkPc → Option Lease
  | .scheduled | .sleeping _ | .backingOff _ => some (l.setPc t .raised)
  | .connectLock | .teardownLock =>
      some ({ l with lock := l.lock.leave t }.setPc t .raised)
  | .connecting | .subscribing | .unsubscribing => some (l.release.setPc t .raised)
  | .disconnecting =>
      some ({ l with transport := { l.transport with isConnected := false } }.release.setPc t
        .raised)
  | .stoppingReader child => if l.childDone cfg child then some (l.onReaderStopped cfg t) else none
  | .joining _ | .returned | .raised => none

/-- Task `t` runs up to its next suspension. -/
def taskStep (l : Lease) (t : ℕ) (step : LinkStep) : Option Lease := do
  let k ← l.tasks[t]?
  if k.cancelled then
    match step with
    | .cancelled => (l.setTask t fun k => { k with cancelled := false }).cancelTask cfg t k.pc
    | _ => none
  else match k.pc, step with
  | .scheduled, .begun => some (l.sleep cfg now t)
  | .connectLock, .granted =>
      if l.lock.grants t then
        some ({ l with lock := l.lock.grant t }.connectLocked cfg now t k.role)
      else none
  | .connecting, .connected => some (l.onConnected cfg now t k.role)
  | .connecting, .connectFailed connected =>
      some ({ l with
        transport := { l.transport with isConnected := connected } }.release.connectRaised now t
          k.backoff k.role)
  | .subscribing, .subscribed => some (l.onSubscribed cfg now t k.role)
  | .subscribing, .subscribeFailed => some (l.release.connectRaised now t k.backoff k.role)
  | .teardownLock, .granted =>
      if l.lock.grants t then some ({ l with lock := l.lock.grant t }.teardownLocked cfg t)
      else none
  | .stoppingReader child, .readerStopped =>
      if l.childDone cfg child then some (l.onReaderStopped cfg t) else none
  | .unsubscribing, .unsubscribed => some (l.setPc t .disconnecting)
  | .disconnecting, .disconnected => some (l.onDisconnected cfg now t k.role)
  | .sleeping due, .slept => if due ≤ now then some (l.tick cfg now t) else none
  | .backingOff wait, .backoffElapsed =>
      if wait.due ≤ now then some (l.backedOff cfg now t) else none
  | .backingOff wait, .backoffWoken => if wait.woken then some (l.backedOff cfg now t) else none
  | .joining supervisor, .joined =>
      if (l.tasks[supervisor]?).all (·.pc.finished) then
        some ({ l with supervisor := none }.beginTeardown cfg t)
      else none
  | _, _ => none

/-! ### The calls on a session -/

/-- Whether a `start` or a `stop` is in progress. -/
def lifecycleBusy (l : Lease) : Bool :=
  l.tasks.any fun k => (k.role = .start ∨ k.role = .stop) ∧ !k.pc.finished

/-- `start()`, called while no `start` or `stop` is in progress. -/
def start (l : Lease) : Option Lease :=
  if l.lifecycleBusy then none
  -- `RuntimeError("session already started")`
  else if l.supervisor.isSome then some l
  else
    some (((l.setLink .connecting).spawn .start .connectLock).beginConnect cfg now l.tasks.length
      .start)

/-- `stop()`, called while no `start` or `stop` is in progress. -/
def stop (l : Lease) : Option Lease :=
  if l.lifecycleBusy then none
  else
    match l.supervisor with
    | some s =>
        some ((l.setTask s fun k => { k with cancelled := !k.pc.finished }).spawn .stop
          (.joining s))
    | none => some ((l.spawn .stop .teardownLock).beginTeardown cfg l.tasks.length)

/-- `yield_link(seconds)` -/
def yieldLink (l : Lease) (seconds : ℚ) : Lease :=
  -- `ValueError`
  if seconds ≤ 0 then l
  else
    let t := l.tasks.length
    let l := { l with yieldUntil := some (now + seconds), yieldedBy := some t }
    (l.spawn .yieldLink .teardownLock).beginTeardown cfg t

/-- `resume()` -/
def resume (l : Lease) : Lease :=
  { l with yieldUntil := none }

/-- The adapter powers on: the event is set, and wakes a supervisor that backs
off. -/
def powerOn (l : Lease) : Lease :=
  { l with
    transport := { l.transport with adapterPowerOn := true }
    tasks := l.tasks.map fun k =>
      match k.pc with
      | .backingOff wait => { k with pc := .backingOff wait.notify }
      | _ => k }

/-- The link drops. -/
def drop (l : Lease) : Lease :=
  { l with transport := { l.transport with isConnected := false } }

end

end Lease

end Bedjet.Service
