import Bedjet.Api.LinkSteps

/-!
When the listeners of a session are called: when its link changes, and when a
reading is published. In between, nothing but the passing of time changes what
an adapter may say about the device.
-/

namespace Bedjet.Api

open Python Protocol Device Service Asyncio

def Event.isReading : Event → Bool
  | .published _ => true
  | _ => false

namespace System

variable {cfg : Config} {s s' : System} {a : Action}

/-- How many readings were published. -/
def readings (s : System) : ℕ :=
  s.trace.countP Event.isReading

/-- `_notify` was called between the two states. -/
def notified (s s' : System) : Bool :=
  s'.lease.link ≠ s.lease.link || s'.readings ≠ s.readings

theorem readings_emit (s : System) {events : List Event}
    (h : ∀ e ∈ events, Event.isReading e = false) : (s.emit events).readings = s.readings := by
  have hnone : events.countP Event.isReading = 0 := by
    rw [List.countP_eq_zero]
    intro e he
    simp [h e he]
  simp [readings, emit, List.countP_append, hnone]

theorem readings_onState (s : System) (sample : Sample) :
    (s.onState sample).readings = s.readings + 1 := by
  show (Event.published sample :: s.trace).countP Event.isReading = s.readings + 1
  rw [List.countP_cons_of_pos rfl]
  rfl

/-- Nothing that the listeners would be told of has happened. -/
structure Quiet (s' s : System) : Prop where
  readings : s'.readings = s.readings
  reading : s'.reading = s.reading
  readingAt : s'.readingAt = s.readingAt

theorem quiet_emit (s : System) {events : List Event}
    (h : ∀ e ∈ events, Event.isReading e = false) : (s.emit events).Quiet s :=
  ⟨readings_emit s h, rfl, rfl⟩

theorem quiet_answer (s : System) (i : ℕ) (pc : Pc) : (s.answer cfg i pc).Quiet s := by
  cases pc <;> exact ⟨rfl, rfl, rfl⟩

theorem Quiet.trans {s'' : System} (h' : s''.Quiet s') (h : s'.Quiet s) : s''.Quiet s :=
  ⟨h'.readings.trans h.readings, h'.reading.trans h.reading, h'.readingAt.trans h.readingAt⟩

theorem quiet_runCommand (s : System) (i : ℕ) (c : Command) (segment : Segment) :
    (s.runCommand cfg i c segment).Quiet s := by
  have hevents : ∀ e ∈ segment.events.map (Event.command i), Event.isReading e = false := by
    intro e he
    obtain ⟨event, -, rfl⟩ := List.mem_map.mp he
    rfl
  apply (quiet_answer _ i segment.pc).trans
  apply (quiet_emit _ hevents).trans
  exact ⟨rfl, rfl, rfl⟩

theorem quiet_intake (s : System) (lease : Lease) (events : List ReaderEvent) :
    ((s.setLease lease).emit (events.map .reader)).Quiet s := by
  have hevents : ∀ e ∈ events.map Event.reader, Event.isReading e = false := by
    intro e he
    obtain ⟨event, -, rfl⟩ := List.mem_map.mp he
    rfl
  apply (quiet_emit _ hevents).trans
  exact ⟨rfl, rfl, rfl⟩

/-- A step publishes one reading, or nothing of the last one changes. -/
theorem quiet_or_reads (heffect : Effect cfg s a s') :
    s'.Quiet s ∨ s'.readings = s.readings + 1 := by
  cases heffect with
  | passes | links | rejects | connects => exact .inl ⟨rfl, rfl, rfl⟩
  | takesIn =>
      have hquiet := s.quiet_intake
      rw [takeIn]
      dsimp only
      split
      · refine .inr ?_
        rw [readings_onState, (hquiet _ _).readings]
      · exact .inl (hquiet _ _)
  | begins =>
      refine .inl ((quiet_runCommand _ _ _ _).trans ?_)
      exact ⟨rfl, rfl, rfl⟩
  | wakes => exact .inl (quiet_runCommand _ _ _ _)
  | delivers => exact .inl ⟨rfl, rfl, rfl⟩

/-- Where no listener was called, only time has passed for them. -/
theorem quiet_of_not_notified (heffect : Effect cfg s a s') (hnotified : s.notified s' = false) :
    s'.lease.link = s.lease.link ∧ s'.Quiet s := by
  simp only [notified, Bool.or_eq_false_iff, decide_eq_false_iff_not, not_not] at hnotified
  obtain ⟨hlink, hreadings⟩ := hnotified
  rcases quiet_or_reads heffect with hquiet | hreads
  · exact ⟨hlink, hquiet⟩
  · omega

theorem now_takeIn (s : System) (intake : Intake) : (s.takeIn intake).now = s.now := by
  rw [takeIn]
  cases intake.published <;> rfl

/-- Time passes in no other step. -/
theorem now_step (h : (machine cfg).step s a = some s') (hpass : ∀ dt, a ≠ .pass dt) :
    s'.now = s.now := by
  cases acts_of_step h with
  | passes => exact absurd rfl (hpass _)
  | notifies | completes | polls => exact now_takeIn s _
  | commands | calls | wakes => exact now_runCommand _ _ _ _ _
  | _ => rfl

end System

end Bedjet.Api
