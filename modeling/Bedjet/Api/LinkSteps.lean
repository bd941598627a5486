import Bedjet.Api.LinkRuns
import Bedjet.Service.LinkTasks

/-!
What one step of the service does to the lease: a lease call or one of its
coroutines moves it, and everything else leaves it as it is, the reader's
counters and tasks apart.
-/

namespace Bedjet.Api

open Python Protocol Device Service Asyncio

/-- Whether the action is a call on the session's lease. -/
def Action.isLeaseCall : Action → Bool
  | .start | .stop | .yieldLink _ | .resume => true
  | _ => false

namespace System

variable {cfg : Config} {s s' : System} {a : Action}

/-- What a step makes of the lease. -/
inductive LeaseEffect (cfg : Config) (s : System) : Action → Lease → Prop
  | start {lease : Lease} (h : s.lease.start cfg s.now = some lease) :
      LeaseEffect cfg s .start lease
  | stop {lease : Lease} (h : s.lease.stop cfg = some lease) : LeaseEffect cfg s .stop lease
  | yieldLink (seconds : ℚ) :
      LeaseEffect cfg s (.yieldLink seconds) (s.lease.yieldLink cfg s.now seconds)
  | resume : LeaseEffect cfg s .resume s.lease.resume
  | drop : LeaseEffect cfg s .drop s.lease.drop
  | powerOn : LeaseEffect cfg s .powerOn s.lease.powerOn
  | link {t : ℕ} {step : Lease.LinkStep} {lease : Lease}
      (h : s.lease.taskStep cfg s.now t step = some lease) : LeaseEffect cfg s (.link t step) lease
  | elsewhere {a : Action} {reader : Reader} (hrunning : reader.running = s.lease.reader.running)
      (hcall : a.isLeaseCall = false) (hlink : ∀ t step, a ≠ .link t step) :
      LeaseEffect cfg s a { s.lease with reader }

theorem lease_takeIn (s : System) (intake : Intake) :
    (s.takeIn intake).lease = { s.lease with reader := intake.reader } := by
  rw [takeIn]
  cases intake.published <;> rfl

theorem lease_runCommand (s : System) (i : ℕ) (c : Command) (segment : Segment) :
    (s.runCommand cfg i c segment).lease = { s.lease with
      reader := if segment.poked then s.lease.reader.pokeNow else s.lease.reader } := by
  rw [runCommand]
  simp only [lease_answer, lease_emit]

theorem running_poked (r : Reader) (poked : Bool) :
    (if poked then r.pokeNow else r).running = r.running := by
  split <;> rfl

theorem LeaseEffect.of_runCommand {s₁ : System} (hlease : s₁.lease = s.lease)
    (hcall : a.isLeaseCall = false) (hlink : ∀ t step, a ≠ .link t step) (i : ℕ) (c : Command)
    (segment : Segment) : LeaseEffect cfg s a (s₁.runCommand cfg i c segment).lease := by
  rw [lease_runCommand, hlease]
  exact .elsewhere (running_poked _ _) hcall hlink

theorem LeaseEffect.of_takeIn {intake : Intake}
    (hrunning : intake.reader.running = s.lease.reader.running) (hcall : a.isLeaseCall = false)
    (hlink : ∀ t step, a ≠ .link t step) : LeaseEffect cfg s a (s.takeIn intake).lease := by
  rw [lease_takeIn]
  exact .elsewhere hrunning hcall hlink

theorem step_leaseEffect (h : (machine cfg).step s a = some s') :
    LeaseEffect cfg s a s'.lease := by
  have hsame (hcall : a.isLeaseCall = false) (hlink : ∀ t step, a ≠ .link t step) :
      LeaseEffect cfg s a s.lease := by
    have heffect : LeaseEffect cfg s a { s.lease with reader := s.lease.reader } :=
      .elsewhere rfl hcall hlink
    exact heffect
  cases acts_of_step h with
  | passes | refuses | misses | delivers => exact hsame rfl (by simp)
  | drops => exact .drop
  | powersOn => exact .powerOn
  | notifies => exact .of_takeIn (Reader.running_onNotify _ _ _) rfl (by simp)
  | completes hintake => exact .of_takeIn (Reader.running_completionStep hintake) rfl (by simp)
  | polls hinterval hintake => exact .of_takeIn (Reader.running_pollStep hintake) rfl (by simp)
  | starts hlease => exact .start hlease
  | stops hlease => exact .stop hlease
  | yields seconds => exact .yieldLink seconds
  | resumes => exact .resume
  | connects hlease | links _ hlease => exact .link hlease
  | commands | calls | wakes =>
      apply LeaseEffect.of_runCommand
      · rfl
      · rfl
      · simp

/-- The queue of the link lock is in order. -/
theorem Reachable.inOrder (h : Reachable cfg s) : s.lease.InOrder := by
  obtain ⟨actions, hrun⟩ := h
  refine Machine.run_invariant' (I := fun s => s.lease.InOrder) ?_ (Lease.queued_nil _) hrun
  intro s a s' hI hstep
  have heffect := step_leaseEffect hstep
  generalize s'.lease = lease at heffect
  cases heffect with
  | start h => exact Lease.inOrder_start hI h
  | stop h => exact Lease.inOrder_stop hI h
  | yieldLink seconds => exact Lease.inOrder_yieldLink hI seconds
  | resume | drop | elsewhere => exact hI
  | powerOn => exact Lease.inOrder_powerOn hI
  | link h => exact Lease.inOrder_taskStep hI h

end System

end Bedjet.Api
