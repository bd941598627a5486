import Bedjet.Asyncio.Pool
import Bedjet.Service.Session

/-!
The one BLE slot of the unit, as its users see it: parties that connect, tear
down or wait, the lock that is with one of them at a time, and what each may do
in its phase. This is what the lease of `Session` is for; its fair queue, its
timers and the order of the calls inside a teardown are left open here.
-/

namespace Bedjet.Service

open Asyncio

/-- What a party is about. -/
inductive Phase
  /-- it leaves the link as it is -/
  | idle
  /-- its `_connect` has returned -/
  | returning
  /-- it waits for the lock, to connect -/
  | seeking
  | connecting
  | subscribing
  /-- it waits for the lock, to tear down -/
  | dropping
  | tearing
  /-- it waits for the supervisor to end -/
  | joining (supervisor : ℕ)
  | finished
  deriving DecidableEq

/-- Whether the role is one that connects. -/
def Role.connects (role : Role) : Bool :=
  role = .start ∨ role = .supervise

/-- Where `_connect` returns to. -/
def Role.back (role : Role) : Phase :=
  if role = .start then .returning else .idle

/-- Whether a party in this phase has the lock. -/
def Phase.holds (phase : Phase) : Bool :=
  phase = .connecting ∨ phase = .subscribing ∨ phase = .tearing

/-- Whether a party in this phase relies on the reader to be stopped. -/
def Phase.quiet (phase : Phase) : Bool :=
  phase = .seeking ∨ phase.holds

/-- Whether a party in this phase is at work on the link. -/
def Phase.busy (phase : Phase) : Bool :=
  phase ≠ .idle ∧ phase ≠ .returning ∧ phase ≠ .finished

/-- The roles that come to this phase. -/
def Phase.fits : Phase → Role → Bool
  | .idle, role => role = .supervise
  | .returning, role => role = .start
  | .seeking, role | .connecting, role | .subscribing, role => role.connects
  | .dropping, role | .tearing, role => role ≠ .start
  | .joining _, role => role = .stop
  | .finished, _ => true

structure Party where
  role : Role
  phase : Phase
  /-- whether it is to be cancelled -/
  cancelled : Bool := false

/-- Whether it is a `start` or a `stop` in progress, of which there is one at a
time. -/
def Party.acts (p : Party) : Bool :=
  (p.role = .start ∨ p.role = .stop) ∧ p.phase ≠ .finished

/-- What the parties share. -/
structure Core where
  isConnected : Bool := false
  connection : ℕ := 0
  /-- whether the reader runs, and the connection it was started on -/
  running : Bool := false
  startedOn : Option ℕ := none
  link : LinkState := .stopped
  yieldUntil : Option ℚ := none
  yieldedBy : Option ℕ := none
  supervisor : Option ℕ := none
  holder : Option ℕ := none

abbrev Slot := Pool Core Party

namespace Slot

/-- Before anyone has come. -/
def unused : Slot where
  core := {}
  parties _ := none

abbrev setPhase (a : Slot) (t : ℕ) (phase : Phase) : Slot :=
  a.modify t fun p => { p with phase }

theorem setPhase_setPhase (a : Slot) (t : ℕ) (phase phase' : Phase) :
    setPhase (setPhase a t phase) t phase' = setPhase a t phase' :=
  Pool.modify_modify a t _ _

theorem setPhase_self {a : Slot} {t : ℕ} {p : Party} {phase : Phase} (hp : a.parties t = some p)
    (hphase : p.phase = phase) : setPhase a t phase = a :=
  Pool.modify_self hp (by rw [← hphase])

theorem parties_setPhase_self {a : Slot} {t : ℕ} {p : Party} (hp : a.parties t = some p)
    (phase : Phase) : (setPhase a t phase).parties t = some { p with phase } := by
  rw [setPhase, Pool.parties_modify_self, hp]
  rfl

/-- What is left open: when the supervisor may take a connected transport for a
link that is up, whether anyone may connect, when `start` may be called, and
whether `stop` may. -/
structure Rules where
  trusts : Core → Prop := fun _ => True
  connects : Prop := True
  starts : Core → Prop := fun _ => True
  stops : Prop := True

inductive Outside : Core → Core → Prop
  /-- a yield ends, by its deadline or by `resume` -/
  | frees {c : Core} : Outside c { c with yieldUntil := none }
  | drops {c : Core} : Outside c { c with isConnected := false }

/-- What the party `t`, which is `p`, can do. -/
inductive Does (rules : Rules) (a : Slot) (t : ℕ) (p : Party) : Core → Party → Prop
  /-- the supervisor finds the transport connected -/
  | trusts (hrole : p.role = .supervise) (hphase : p.phase = .idle)
      (hfree : a.core.yieldUntil = none) (hconnected : a.core.isConnected)
      (htrusts : rules.trusts a.core) : Does rules a t p { a.core with link := .connected } p
  /-- the supervisor finds it not connected -/
  | loses (hrole : p.role = .supervise) (hphase : p.phase = .idle)
      (hfree : a.core.yieldUntil = none) :
      Does rules a t p { a.core with link := .lost } { p with phase := .dropping }
  | tears (hphase : p.phase = .dropping) (hholder : a.core.holder = none) :
      Does rules a t p { a.core with holder := some t, running := false }
        { p with phase := .tearing }
  | reclaims (hrole : p.role = .supervise) (hphase : p.phase = .tearing)
      (hdown : a.core.isConnected = false) :
      Does rules a t p { a.core with holder := none } { p with phase := .seeking }
  | yielded (hrole : p.role = .yieldLink) (hphase : p.phase = .tearing)
      (hdown : a.core.isConnected = false) :
      Does rules a t p { a.core with holder := none, link := .yielded }
        { p with phase := .finished }
  | stopped (hrole : p.role = .stop) (hphase : p.phase = .tearing)
      (hdown : a.core.isConnected = false) :
      Does rules a t p { a.core with holder := none, link := .stopped }
        { p with phase := .finished }
  | connects (hphase : p.phase = .seeking) (hholder : a.core.holder = none)
      (hfree : a.core.yieldUntil = none) (hconnects : rules.connects) :
      Does rules a t p { a.core with holder := some t } { p with phase := .connecting }
  | abandons (hphase : p.phase = .seeking) (hholder : a.core.holder = none) :
      Does rules a t p a.core { p with phase := p.role.back }
  | connected (hphase : p.phase = .connecting) :
      Does rules a t p { a.core with isConnected := true, connection := a.core.connection + 1 }
        { p with phase := .subscribing }
  /-- `transport.connect` raises, leaving the transport connected or not -/
  | unsettles (hphase : p.phase = .connecting) (isConnected : Bool) :
      Does rules a t p { a.core with isConnected } p
  | fails (hrole : p.role = .supervise) (hphase : p.phase = .connecting ∨ p.phase = .subscribing) :
      Does rules a t p { a.core with holder := none } { p with phase := .idle }
  | givesUp (hrole : p.role = .start) (hphase : p.phase = .connecting ∨ p.phase = .subscribing) :
      Does rules a t p { a.core with holder := none, link := .stopped }
        { p with phase := .finished }
  | listens (hphase : p.phase = .subscribing) :
      Does rules a t p
        { a.core with
          holder := none
          running := true
          startedOn := some a.core.connection
          link := .connected }
        { p with phase := p.role.back }
  /-- `start` returns, and the supervisor is there -/
  | returned (hrole : p.role = .start) (hphase : p.phase = .returning)
      (hsupervisor : a.core.supervisor ≠ none) :
      Does rules a t p a.core { p with phase := .finished }
  /-- `stop` asks for the supervisor to be cancelled -/
  | cancels (hstops : rules.stops) (hrole : p.role = .supervise) :
      Does rules a t p a.core { p with cancelled := p.phase ≠ .finished }
  /-- the reader's `stop` suppresses the cancellation -/
  | survives (hphase : p.phase = .tearing) : Does rules a t p a.core { p with cancelled := false }
  | dies (hcancelled : p.cancelled) :
      Does rules a t p
        { a.core with holder := if p.phase.holds then none else a.core.holder }
        { p with phase := .finished, cancelled := false }
  | joins {s : ℕ} (hphase : p.phase = .joining s)
      (hended : ∀ q, a.parties s = some q → q.phase = .finished) :
      Does rules a t p { a.core with supervisor := none } { p with phase := .dropping }

/-- Nobody is starting or stopping. -/
def Calm (a : Slot) : Prop :=
  ∀ t p, a.parties t = some p → ¬p.acts

/-- Who can come. -/
inductive Comes (rules : Rules) (a : Slot) (n : ℕ) : Core → Party → Prop
  /-- a `start` that has connected brings the supervisor -/
  | supervises {t : ℕ} {p : Party} (hp : a.parties t = some p) (hrole : p.role = .start)
      (hphase : p.phase = .returning) (hsupervisor : a.core.supervisor = none) :
      Comes rules a n { a.core with supervisor := some n } ⟨.supervise, .idle, false⟩
  | starts (hstarts : rules.starts a.core) (hcalm : Calm a)
      (hsupervisor : a.core.supervisor = none) :
      Comes rules a n { a.core with link := .connecting } ⟨.start, .seeking, false⟩
  | stops (hstops : rules.stops) (hcalm : Calm a) (hsupervisor : a.core.supervisor = none) :
      Comes rules a n a.core ⟨.stop, .dropping, false⟩
  | stopsSupervisor {s : ℕ} (hstops : rules.stops) (hcalm : Calm a)
      (hsupervisor : a.core.supervisor = some s) :
      Comes rules a n a.core ⟨.stop, .joining s, false⟩
  | yields (deadline : ℚ) :
      Comes rules a n { a.core with yieldUntil := some deadline, yieldedBy := some n }
        ⟨.yieldLink, .dropping, false⟩

def behaviour (rules : Rules) : Pool.Behaviour Core Party where
  outside := Outside
  does := Does rules
  comes := Comes rules

abbrev Moves (rules : Rules) : Slot → Slot → Prop :=
  Pool.Moves (behaviour rules)

end Slot

end Bedjet.Service
