import Bedjet.Api.Evidence
import Bedjet.Api.LinkSteps

/-!
What becomes of a supervisor whose cancellation `stop` has requested. The
request is raised where it is suspended, and ends it, except inside the reader's
`stop`: there it awaits a task it has cancelled itself, takes the exception for
that task's, and goes on to reconnect.
-/

namespace Bedjet.Api

open Python Protocol Device Service Asyncio

namespace System

/-- Task `t` runs and begins a `transport.connect`, or sets the link to CONNECTED
(which it is asked here as if the link were not). -/
def reconnects (cfg : Config) (t : ℕ) (s : System) : Action → Bool
  | .link t' step =>
      t' = t && ((s.lease.setLink .stopped).taskStep cfg s.now t step).any fun lease =>
        lease.link = .connected || (lease.tasks[t]?).any (·.pc = .connecting)
  | _ => false

variable {cfg : Config} {s s' : System} {a : Action} {t : ℕ}

theorem reconnects_of_doomed (h : Lease.Doomed t s.lease.tasks) :
    s.reconnects cfg t a = false := by
  cases a with
  | link t' step =>
      obtain ⟨k, hk, hdoomed⟩ := h
      cases hstep : (s.lease.setLink .stopped).taskStep cfg s.now t step with
      | none => simp [reconnects, hstep]
      | some lease =>
          have hk : (s.lease.setLink .stopped).tasks[t]? = some k := hk
          obtain ⟨hlink, k', hk', hpc⟩ := Lease.taskStep_doomed hk hdoomed hstep
          have hstopped : lease.link = .stopped := hlink
          simp [reconnects, hstep, hstopped, hk', hpc]
  | _ => rfl

/-- A doomed task stays doomed. -/
theorem doomed_step (h : Lease.Doomed t s.lease.tasks)
    (hstep : (machine cfg).step s a = some s') : Lease.Doomed t s'.lease.tasks := by
  have heffect := step_leaseEffect hstep
  generalize s'.lease = lease at heffect
  cases heffect with
  | start hstart => exact h.ran h.ne_length (Lease.ran_start hstart)
  | stop hstop => exact h.stop hstop
  | yieldLink seconds => exact h.ran h.ne_length (Lease.ran_yieldLink _ seconds)
  | resume | drop | elsewhere => exact h
  | powerOn => exact h.powerOn
  | @link t' step lease hlink =>
      by_cases hne : t = t'
      · subst hne
        obtain ⟨k, hk, hdoomed⟩ := h
        obtain ⟨-, k', hk', hpc⟩ := Lease.taskStep_doomed hk hdoomed hlink
        exact ⟨k', hk', by simp [LinkTask.doomed, hpc, LinkPc.finished]⟩
      · exact h.ran hne (Lease.ran_taskStep hlink)

theorem meets_of_doomed (h : Lease.Doomed t s.lease.tasks) (actions : List Action) :
    (machine cfg).Meets (fun s a => s.reconnects cfg t a = false) s actions := by
  induction actions generalizing s with
  | nil => trivial
  | cons a actions ih =>
      refine ⟨reconnects_of_doomed h, ?_⟩
      intro s' hstep
      exact ih (doomed_step h hstep)

/-- A supervisor that `stop` cancels anywhere but in the reader's `stop` neither
begins a connection nor sets the link to CONNECTED in anything that follows. -/
theorem cancelled_supervisor_ends {k : LinkTask} (hsupervisor : s.lease.supervisor = some t)
    (hk : s.lease.tasks[t]? = some k) (hpc : k.pc.swallows = false)
    (hstop : (machine cfg).step s .stop = some s') (actions : List Action) :
    (machine cfg).Meets (fun s a => s.reconnects cfg t a = false) s' actions := by
  obtain ⟨lease, hlease, rfl⟩ := Option.map_eq_some_iff.mp hstop
  exact meets_of_doomed (Lease.doomed_of_stop hsupervisor hk hpc hlease) actions

/-- The link drops while a fragment is completed, and the supervisor tears down:
it awaits the follow-up it has cancelled. -/
def dropWhileReading : List Action :=
  [.start, .link 0 .connected, .link 0 .subscribed, .link 1 .begun,
    .notify (standbyPacket.take 20), .completion 0 .begin, .drop, .pass 1, .link 1 .slept]

/-- The follow-up ends, and so, it seems, does the wait for it. -/
def reconnectOn : List Action :=
  [.completion 0 .cancelled, .link 1 .cancelled, .link 1 .unsubscribed, .link 1 .disconnected]

theorem cancelled_supervisor_can_reconnect :
    ¬∀ (cfg : Config) (s s' : System) (t : ℕ) (actions : List Action), Reachable cfg s →
      s.lease.supervisor = some t → (machine cfg).step s .stop = some s' →
      (machine cfg).Meets (fun s a => s.reconnects cfg t a = false) s' actions := by
  intro hall
  have hany : ((machine {}).run {} dropWhileReading).any fun s =>
      s.lease.supervisor = some 1 && ((machine {}).step s .stop).any fun s' =>
        !decide ((machine {}).Meets (fun s a => s.reconnects {} 1 a = false) s' reconnectOn) := by
    decide +kernel
  obtain ⟨s, hrun, hcheck⟩ := Machine.exists_of_run_any hany
  obtain ⟨hsupervisor, hstop⟩ := Bool.and_eq_true_iff.mp hcheck
  obtain ⟨s', hs', hnot⟩ := (Option.any_eq_true _ _).mp hstop
  have hmeets := hall {} s s' 1 reconnectOn ⟨_, hrun⟩ (of_decide_eq_true hsupervisor) hs'
  simp [hmeets] at hnot

/-- The link drops, and the supervisor is about to have another. -/
def reconnecting : List Action :=
  [.start, .link 0 .connected, .link 0 .subscribed, .link 1 .begun, .drop, .pass 1,
    .link 1 .slept, .link 1 .unsubscribed, .link 1 .disconnected]

/-- It is cancelled inside `transport.connect`. -/
theorem cancelled_supervisor_ends_reconnecting :
    ∃ s s' k, (machine {}).run {} reconnecting = some s ∧
      s.lease.tasks[1]? = some k ∧ k.pc = .connecting ∧ (machine {}).step s .stop = some s' ∧
      ∀ actions, (machine {}).Meets (fun s a => s.reconnects {} 1 a = false) s' actions := by
  have hany : ((machine {}).run {} reconnecting).any fun s =>
      s.lease.supervisor = some 1 && (s.lease.tasks[1]?).any (·.pc = .connecting) &&
        ((machine {}).step s .stop).isSome := by
    decide +kernel
  obtain ⟨s, hrun, hcheck⟩ := Machine.exists_of_run_any hany
  simp only [Bool.and_eq_true, decide_eq_true_eq] at hcheck
  obtain ⟨⟨hsupervisor, hpc⟩, hstop⟩ := hcheck
  obtain ⟨k, hk, hpc⟩ := (Option.any_eq_true _ _).mp hpc
  obtain ⟨s', hs'⟩ := Option.isSome_iff_exists.mp hstop
  have hconnecting : k.pc = .connecting := of_decide_eq_true hpc
  exact ⟨s, s', k, hrun, hk, hconnecting, hs',
    cancelled_supervisor_ends hsupervisor hk (by rw [hconnecting]; rfl) hs'⟩

end System

end Bedjet.Api
