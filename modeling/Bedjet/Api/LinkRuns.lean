import Bedjet.Api.Steps
import Bedjet.Service.LeaseSlot

/-!
The service refines the slot: its link coroutines move it, and nothing else the
service does touches it.
-/

namespace Bedjet.Api

open Python Protocol Device Service Asyncio Relation

namespace System

variable {cfg : Config} {rules : Slot.Rules} {s s' : System}

/-- The slot of a service. -/
def slot (s : System) : Slot :=
  s.lease.slot

theorem slot_initial : slot {} = Slot.unused :=
  rfl

theorem slot_takeIn {intake : Intake} (hrunning : intake.reader.running = s.lease.reader.running) :
    (s.takeIn intake).slot = s.slot := by
  have hreader : { s.lease with reader := intake.reader }.slot = s.slot := by
    unfold slot Lease.slot
    rw [hrunning]
  rw [takeIn]
  dsimp only
  split <;> exact hreader

theorem slot_runCommand (s : System) (i : ℕ) (c : Command) (segment : Segment) :
    (s.runCommand cfg i c segment).slot = s.slot := by
  unfold slot runCommand
  rw [lease_answer, lease_emit]
  dsimp only
  split <;> rfl

/-- The action is one the rules let happen. -/
structure Obeys (rules : Slot.Rules) (s : System) (a : Action) : Prop where
  connects : s.lease.yieldUntil = none → rules.connects
  starts : a = .start → rules.starts s.slot.core
  stops : a = .stop → rules.stops
  trusts : ∀ t step, a = .link t step → s.lease.trusts s.now t step →
    rules.trusts { s.slot.core with yieldUntil := none }

theorem step_refines {a : Action} (hsound : s.slot.Sound)
    (hobeys : Obeys rules s a) (h : (machine cfg).step s a = some s') :
    ReflTransGen (Slot.Moves rules) s.slot s'.slot := by
  have hstays (hsame : s'.slot = s.slot) : ReflTransGen (Slot.Moves rules) s.slot s'.slot := by
    rw [hsame]
  cases acts_of_step h with
  | passes => exact hstays rfl
  | drops => exact .single (.outside .drops)
  | powersOn => exact hstays s.lease.slot_powerOn
  | notifies => exact hstays (slot_takeIn (Reader.running_onNotify _ _ _))
  | completes hintake => exact hstays (slot_takeIn (Reader.running_completionStep hintake))
  | polls hinterval hintake => exact hstays (slot_takeIn (Reader.running_pollStep hintake))
  | starts hlease => exact Lease.start_steps (hobeys.starts rfl) hobeys.connects hlease
  | stops hlease => exact Lease.stop_steps (hobeys.stops rfl) hsound.lifecycle hlease
  | yields seconds => exact s.lease.yieldLink_steps seconds
  | resumes => exact .single (.outside .frees)
  | connects hlease | links _ hlease =>
      exact Lease.taskStep_steps hsound.fit hsound.lifecycle hobeys.connects
        (hobeys.trusts _ _ rfl) hlease
  | commands | calls | wakes => exact hstays (slot_runCommand _ _ _ _)
  | refuses | misses | delivers => exact hstays rfl

/-- The service, taken by what it does to its slot. -/
theorem machine_refines {ok : System → Action → Prop} (hok : ∀ s a, ok s a → Obeys rules s a) :
    (machine cfg).Refines slot (Slot.Moves rules) Slot.Sound ok :=
  fun s a _ hsound hallowed hstep => step_refines hsound (hok s a hallowed) hstep

theorem Reachable.slot_sound (h : Reachable cfg s) : s.slot.Sound := by
  obtain ⟨actions, hrun⟩ := h
  have hrefines : (machine cfg).Refines slot (Slot.Moves {}) Slot.Sound fun _ _ => True :=
    machine_refines fun s a _ => ⟨by simp, by simp, by simp, by simp⟩
  exact hrefines.run_keeps (fun _ _ hsound hmove => hsound.moves hmove)
    (slot_initial ▸ Slot.sound_unused) Machine.meets_true hrun

end System

end Bedjet.Api
