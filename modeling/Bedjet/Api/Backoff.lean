import Bedjet.Api.LinkSteps
import Bedjet.Api.Notifying
import Bedjet.Asyncio.Recording
import Bedjet.Service.Retrying

/-!
The backoff of a supervisor over whole runs of the service, whatever else goes
on in them: drops, connections that fail or succeed, yields, and power-ons of
the adapter at any time.
-/

namespace Bedjet.Api

open Service Asyncio Backoff

namespace System

/-- What a step is to supervisor `t`. -/
def deeds (t : ℕ) (s : System) (a : Action) (s' : System) : List (Deed ℚ) :=
  match a with
  | .powerOn => [.signalled]
  | .link n step => if n = t then Lease.deeds s.now t s.lease step s'.lease else []
  | _ => []

variable {cfg : Config} {s s' : System} {a : Action} {t : ℕ}

/-- What a step is to the loop of task `t`. -/
theorem runs_step (h : (machine cfg).step s a = some s') (t : ℕ) :
    Runs cfg.backoffInitial cfg.backoffMax (s.lease.loop cfg s.now t) (deeds t s a s')
      (s'.lease.loop cfg s'.now t) := by
  by_cases hpass : ∃ dt, a = .pass dt
  · obtain ⟨dt, rfl⟩ := hpass
    obtain ⟨hdt, rfl⟩ : 0 ≤ dt ∧ _ = s' := by simpa [machine, step] using h
    have hloop : s.lease.loop cfg (s.now + dt) t =
        { s.lease.loop cfg s.now t with now := (s.lease.loop cfg s.now t).now + dt } := by
      rw [Lease.loop, Lease.loop]
      cases s.lease.tasks[t]? with
      | none => rfl
      | some k =>
          simp only [LinkTask.loop]
          split <;> rfl
    show Runs _ _ _ [] (s.lease.loop cfg (s.now + dt) t)
    rw [hloop]
    exact (Moves.passes dt hdt).runs
  · by_cases hpower : a = .powerOn
    · subst hpower
      obtain rfl : _ = s' := by simpa [machine, step] using h
      show Runs _ _ _ [.signalled] (s.lease.powerOn.loop cfg s.now t)
      rw [Lease.loop_powerOn]
      exact Moves.signals.runs
    · have hnow : s'.now = s.now := now_step h fun dt hdt => hpass ⟨dt, hdt⟩
      have heffect := step_leaseEffect h
      rw [hnow]
      unfold deeds
      generalize s'.lease = lease at heffect ⊢
      cases heffect with
      | start h => exact Lease.runs_start h t
      | stop h => exact Lease.runs_stop h t
      | yieldLink seconds => exact Lease.runs_yieldLink _ seconds t
      | resume | drop => exact .refl
      | powerOn => exact (hpower rfl).elim
      | link h => exact Lease.runs_taskStep h t
      | elsewhere _ _ hlink =>
          cases a with
          | link n step => exact (hlink n step rfl).elim
          | powerOn => exact (hpower rfl).elim
          | _ => exact .refl

theorem paying_initial (hle : cfg.backoffInitial ≤ cfg.backoffMax) (t : ℕ) :
    Paying cfg.backoffInitial cfg.backoffMax (({} : System).lease.loop cfg 0 t) [] :=
  paying_init hle rfl rfl

/-- A supervisor's backoff holds except once for each time the adapter powers on:
no more attempts come early than the adapter powered on, a wait is cut short only
by a power-on since the attempt before it was armed, and the interval doubles from
failure to failure up to its bound, however many waits were cut short. -/
theorem backoff_holds (hle : cfg.backoffInitial ≤ cfg.backoffMax) {actions : List Action}
    {history : List (Deed ℚ)}
    (hrun : ((machine cfg).recording (deeds t)).run ({}, []) actions = some (s, history)) :
    Kept cfg.backoffInitial cfg.backoffMax history := by
  have hkeep (s : System) (a : Action) (s' : System) (history : List (Deed ℚ))
      (h : Paying cfg.backoffInitial cfg.backoffMax (s.lease.loop cfg s.now t) history)
      (_ : True) (hstep : (machine cfg).step s a = some s') :
      Paying cfg.backoffInitial cfg.backoffMax (s'.lease.loop cfg s'.now t)
        (deeds t s a s' ++ history) := (runs_step hstep t).paying hle h
  have hpaying : Paying cfg.backoffInitial cfg.backoffMax (s.lease.loop cfg s.now t) history :=
    Machine.recording_invariant hkeep (paying_initial hle t) Machine.meets_true hrun
  exact hpaying.kept

/-- Two attempts that fail, with a power-on in the first wait, and the reconnection. -/
def outage : List Action :=
  [.start, .link 0 .connected, .link 0 .subscribed, .link 1 .begun, .powerOn, .drop, .pass 1,
    .link 1 .slept, .link 1 .unsubscribed, .link 1 .disconnected, .link 1 (.connectFailed false),
    .powerOn, .link 1 .backoffWoken, .pass 1, .link 1 .slept, .link 1 .disconnected,
    .link 1 (.connectFailed false), .pass 4, .link 1 .backoffElapsed, .pass 1, .link 1 .slept,
    .link 1 .disconnected, .link 1 .connected, .link 1 .subscribed]

theorem backoff_holds_outage :
    ∃ s history, ((machine {}).recording (deeds 1)).run ({}, []) outage = some (s, history) ∧
      history = [.succeeded, .armed 7, .resumed 6, .failed 2 4, .armed 2, .resumed 1, .signalled,
        .failed 1 2, .armed 1, .signalled] ∧
      earlyAttempts history = 1 ∧ Kept 2 60 history := by
  have hany : (((machine {}).recording (deeds 1)).run ({}, []) outage).any
      (·.2 = [.succeeded, .armed 7, .resumed 6, .failed 2 4, .armed 2, .resumed 1, .signalled,
        .failed 1 2, .armed 1, .signalled]) := by
    decide +kernel
  obtain ⟨⟨s, history⟩, hrun, hhistory⟩ := Machine.exists_of_run_any hany
  obtain rfl : history = _ := of_decide_eq_true hhistory
  have hle : ({} : Config).backoffInitial ≤ ({} : Config).backoffMax := by decide +kernel
  exact ⟨s, _, hrun, rfl, by decide +kernel, backoff_holds hle hrun⟩

end System

end Bedjet.Api
