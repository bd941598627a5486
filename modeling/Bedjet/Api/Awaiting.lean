import Bedjet.Api.CallRuns
import Bedjet.Api.LinkSteps
import Bedjet.Service.LinkYield

/-!
What a caller awaits: a command or a `yield_link`, beside anything else that
happens to the service. The command ends in the taxonomy unless another one
discards the reading it was told of; the `yield_link` does not raise.
-/

namespace Bedjet.Api

open Python Protocol Device Service Asyncio

namespace System

variable {cfg : Config} {s s' : System} {a : Action} {j t : ℕ}

/-- The step does not discard the reading held while command `j` has been told
of it and has not run since. -/
def Spares (cfg : Config) (s : System) (j : ℕ) (a : Action) : Prop :=
  ∀ s', (machine cfg).step s a = some s' → s.commander.shared.latest ≠ none →
    s'.commander.shared.latest = none →
    ∀ c, s'.commander.commands[j]? = some c → c.pc.woken = false

/-- A command that has just begun has not been told of anything. -/
theorem not_woken_of_new (hnew : s.commander.commands[j]? = none) (heffect : Effect cfg s a s')
    {c : Command} (hc : s'.commander.commands[j]? = some c) : c.pc.woken = false := by
  cases heffect with
  | passes | links | connects | rejects => exact absurd (hc.symm.trans hnew) (by simp)
  | takesIn =>
      rw [takeIn] at hc
      dsimp only at hc
      split at hc
      · obtain ⟨d, hd, -⟩ := commands_onState hc
        exact absurd (hd.symm.trans hnew) (by simp)
      · exact absurd (hc.symm.trans hnew) (by simp)
  | begins hcalls hruns =>
      rcases commands_runCommand hc with ⟨hne, hc⟩ | ⟨-, rfl⟩
      · rcases commands_enroll hc with hc | ⟨rfl, -⟩
        · exact absurd (hc.symm.trans hnew) (by simp)
        · exact absurd rfl hne
      · exact eq_false_of_ne_true fun hwoken => by simpa using (hruns.updated_of_woken hwoken).1
  | wakes hcommand hruns =>
      rcases commands_runCommand hc with ⟨-, hc⟩ | ⟨rfl, -⟩
      · exact absurd (hc.symm.trans hnew) (by simp)
      · exact absurd (hcommand.symm.trans hnew) (by simp)
  | delivers hcommand hpc =>
      rcases commands_reach hc with ⟨-, hc⟩ | ⟨-, rfl⟩
      · exact absurd (hc.symm.trans hnew) (by simp)
      · rfl

/-- A command spares the reading it was told of itself: it has looked at it, or
it has only found the event set. -/
theorem spares_wake (hsound : s.Sound) (why : Wakeup) : s.Spares cfg j (.wake j why) := by
  intro s' hstep hsome hnone c hc
  obtain ⟨d, hd, hs'⟩ := Option.bind_eq_some_iff.mp hstep
  obtain ⟨segment, hsegment, heq⟩ := Option.bind_eq_some_iff.mp hs'
  obtain rfl : _ = s' := by simpa using heq
  rw [commands_runCommand_self hd] at hc
  obtain rfl := Option.some.inj hc
  have hruns := resume_runs _ _ (hsound d (List.mem_of_getElem? hd)) hsegment
  refine eq_false_of_ne_true fun hwoken => hsome ?_
  obtain ⟨-, hshared, -⟩ := hruns.updated_of_woken hwoken
  rw [commander_runCommand] at hnone
  rw [← hshared]
  exact hnone

/-- A `yield_link` goes on yielding whatever happens to the service. -/
theorem yields_step (h : Yields t s.lease.tasks) (hreach : Reachable cfg s)
    (hstep : (machine cfg).step s a = some s') : Yields t s'.lease.tasks := by
  have heffect := step_leaseEffect hstep
  generalize s'.lease = lease at heffect
  cases heffect with
  | start hstart => exact h.ran h.ne_length (Lease.ran_start hstart)
  | stop hstop =>
      apply Lease.yields_stop h ?_ hstop
      -- the supervisor has another role
      intro hsupervisor
      obtain ⟨k, hk, hyields⟩ := h
      have hp : s.slot.parties t = some k.party := by simp [slot, Lease.slot, hk]
      have hrole : k.role = .supervise :=
        (hreach.slot_sound.lifecycle.placed t k.party hp).supervisor hsupervisor
      simp [LinkTask.yields, hrole] at hyields
  | yieldLink seconds => exact h.ran h.ne_length (Lease.ran_yieldLink _ seconds)
  | resume | drop | elsewhere => exact h
  | powerOn => exact Lease.yields_powerOn h
  | @link t' step lease hlink =>
      by_cases hne : t = t'
      · subst hne
        obtain ⟨k, hk, hyields⟩ := h
        exact Lease.yields_taskStep hk hyields hlink
      · exact h.ran hne (Lease.ran_taskStep hlink)

/-- Command `j` works with its arguments, finds a reading where it was told of
one, and has not ended outside the taxonomy. -/
structure Sure (s : System) (j : ℕ) : Prop where
  request : ∃ request, s.requestOf j = some request ∧ Fits request
  finds : s.Finds j
  endsWell : s.EndsWell j

theorem Sure.step (h : s.Sure j) (hreach : Reachable cfg s) (hfilled : s.Filled)
    (hspares : s.Spares cfg j a) (hstep : (machine cfg).step s a = some s') : s'.Sure j := by
  have heffect := step_effect hreach.sound hstep
  obtain ⟨request, hrequest, hfits⟩ := h.request
  constructor
  · exact ⟨request, requestOf_effect hrequest heffect, hfits⟩
  · exact h.finds.effect hfilled (fun hsome hnone c hc _ => hspares s' hstep hsome hnone c hc)
      heffect
  · exact h.endsWell.effect h.finds heffect

/-- A command that begins. -/
theorem Sure.begins (hnew : s.commander.commands[j]? = none) (hreach : Reachable cfg s)
    (hfilled : s.Filled) (hstep : (machine cfg).step s a = some s') {request : Request}
    (hrequest : s'.requestOf j = some request) (hfits : Fits request) : s'.Sure j := by
  have heffect := step_effect hreach.sound hstep
  have hfinds : s.Finds j := fun c hc => by simp [hnew] at hc
  have hends : s.EndsWell j := fun c ending hc => by simp [hnew] at hc
  constructor
  · exact ⟨request, hrequest, hfits⟩
  · exact hfinds.effect hfilled (fun _ _ c hc _ => not_woken_of_new hnew heffect hc) heffect
  · exact hends.effect hfinds heffect

theorem filled_step (h : s.Filled) (hreach : Reachable cfg s)
    (hstep : (machine cfg).step s a = some s') : s'.Filled :=
  h.effect (step_effect hreach.sound hstep)

/-- The answer of a call that awaited such a command. -/
theorem Sure.answered (h : s.Sure j) (htold : s.Told) {i : ℕ} {call : ApiCall}
    {answer : ApiAnswer} (hcall : s.calls[i]? = some call) (hcommand : call.command = some j)
    (hanswer : call.answer = some answer) :
    ∃ ending description before after, Classified ending ∧
      answer = translate description call.dryRun before after ending := by
  obtain ⟨c, ending, description, before, after, hc, -, hpc, rfl⟩ :=
    htold.ended hcall hcommand hanswer
  obtain ⟨request, hrequest, hfits⟩ := h.request
  have hasked : c.request = request := by
    simpa [requestOf, hc] using hrequest
  exact ⟨ending, description, before, after, h.endsWell c ending hc (hasked ▸ hfits) hpc, rfl⟩

end System

end Bedjet.Api
