import Bedjet.Api.Calls
import Bedjet.Api.Taxonomy

/-!
An API call from its beginning to its answer. A call is refused or unavailable
at once, or it awaits one command for good, whose ending is its answer.
-/

namespace Bedjet.Api

open Python Protocol Device Service Asyncio

/-- What the API asks of a command is something it can work with. -/
theorem ApiRequest.fits_of_resolve {request : ApiRequest} {resolved : Resolved}
    (h : request.resolve = .ok resolved) : Fits resolved.request := by
  have hresolves := request.resolves
  rw [h] at hresolves
  cases hresolves with
  | turnOff | mode => trivial
  | target _ hsnap =>
      apply fits_target_iff.mpr
      exact Encode.isFinite_of_snapTargetC (Encode.snapTargetC_snapped hsnap)
  | fan hsnap =>
      obtain ⟨b, -, hb, rfl, -⟩ := Encode.setFanPercent_of_snapped hsnap
      apply Encode.digits_of_range
      simp only [fanStepToPercent, Encode.fanPercentMin, Encode.fanPercentMax, fanPercentBase,
        fanPercentStep, fanStepMax]
      omega

/-- A call that awaits a command awaits it for good, and one that awaits none
has its answer. -/
structure ApiCall.Continues (call' call : ApiCall) : Prop where
  command : call'.command = call.command
  answered : call.command = none → call' = call

namespace ApiCall

theorem Continues.refl (call : ApiCall) : call.Continues call := ⟨rfl, fun _ => rfl⟩

theorem Continues.trans {call call' call'' : ApiCall} (h' : call''.Continues call')
    (h : call'.Continues call) : call''.Continues call where
  command := h'.command.trans h.command
  answered hnone := (h'.answered (h.command.trans hnone)).trans (h.answered hnone)

theorem continues_finish (call : ApiCall) (i : ℕ) (after : DeviceSnapshot) (ending : Ending) :
    (call.finish i after ending).Continues call := by
  unfold finish
  split
  · split
    · rename_i hcommand _ _
      exact ⟨rfl, fun hnone => by simp [hcommand] at hnone⟩
    · exact .refl call
  · exact .refl call

end ApiCall

namespace System

variable {cfg : Config} {s s' : System} {i : ℕ} {call : ApiCall}

theorem call_runCommand (h : s.calls[i]? = some call) (j : ℕ) (c : Command) (segment : Segment) :
    ∃ call', (s.runCommand cfg j c segment).calls[i]? = some call' ∧ call'.Continues call := by
  by_cases hended : ∃ ending, segment.pc = .ended ending
  · obtain ⟨ending, hpc⟩ := hended
    obtain ⟨after, hcalls⟩ : ∃ after, (s.runCommand cfg j c segment).calls =
        s.calls.map (·.finish j after ending) := calls_runCommand_of_ended hpc
    exact ⟨call.finish j after ending, by simp [hcalls, h], call.continues_finish j after ending⟩
  · have hcalls : (s.runCommand cfg j c segment).calls = s.calls :=
      calls_runCommand_of_not_ended (not_exists.mp hended)
    exact ⟨call, by rw [hcalls, h], .refl call⟩

theorem getElem?_append_calls (h : s.calls[i]? = some call) (calls : List ApiCall) :
    (s.calls ++ calls)[i]? = some call := by
  rw [List.getElem?_append_left (List.getElem?_eq_some_iff.mp h).1, h]

theorem calls_takeIn (s : System) (intake : Intake) : (s.takeIn intake).calls = s.calls := by
  rw [takeIn]
  cases intake.published <;> rfl

theorem call_effect {a : Action} (h : s.calls[i]? = some call) (heffect : Effect cfg s a s') :
    ∃ call', s'.calls[i]? = some call' ∧ call'.Continues call := by
  cases heffect with
  | passes | links | connects => exact ⟨call, h, .refl call⟩
  | takesIn => exact ⟨call, by rw [calls_takeIn, h], .refl call⟩
  | rejects => exact ⟨call, getElem?_append_calls h _, .refl call⟩
  | begins => exact call_runCommand (s := s.enroll _ _ _) (getElem?_append_calls h _) _ _ _
  | wakes => exact call_runCommand h _ _ _
  | delivers => exact ⟨call, h, .refl call⟩

/-- What a command was asked for it stays asked for. -/
theorem requestOf_effect {a : Action} {j : ℕ} {request : Request}
    (h : s.requestOf j = some request) (heffect : Effect cfg s a s') :
    s'.requestOf j = some request := by
  cases heffect with
  | passes | links | connects | rejects => exact h
  | takesIn =>
      rw [takeIn]
      dsimp only
      split
      · rw [requestOf_onState]
        exact h
      · exact h
  | begins =>
      rw [requestOf_runCommand (enroll_getElem? s _ _ _)]
      exact requestOf_enroll h
  | wakes hcommand => rwa [requestOf_runCommand hcommand]
  | delivers hcommand => rwa [requestOf_reach hcommand]

theorem call_run {actions : List Action} (h : s.calls[i]? = some call) (hsound : s.Sound)
    (hrun : (machine cfg).run s actions = some s') :
    ∃ call', s'.calls[i]? = some call' ∧ call'.Continues call := by
  have hkeeps : s'.Sound ∧ ∃ call', s'.calls[i]? = some call' ∧ call'.Continues call := by
    refine Machine.run_invariant' (I := fun s =>
      s.Sound ∧ ∃ call', s.calls[i]? = some call' ∧ call'.Continues call) ?_
      ⟨hsound, call, h, .refl call⟩ hrun
    rintro s a s' ⟨hs, call', hcall', hcontinues⟩ hstep
    have heffect := step_effect hs hstep
    obtain ⟨call'', hcall'', hcontinues'⟩ := call_effect hcall' heffect
    exact ⟨heffect.sound hs, call'', hcall'', hcontinues'.trans hcontinues⟩
  exact hkeeps.2

theorem requestOf_run {actions : List Action} {j : ℕ} {request : Request}
    (h : s.requestOf j = some request) (hsound : s.Sound)
    (hrun : (machine cfg).run s actions = some s') : s'.requestOf j = some request := by
  have hkeeps : s'.Sound ∧ s'.requestOf j = some request := by
    refine Machine.run_invariant' (I := fun s => s.Sound ∧ s.requestOf j = some request) ?_
      ⟨hsound, h⟩ hrun
    rintro s a s' ⟨hs, hrequest⟩ hstep
    have heffect := step_effect hs hstep
    exact ⟨heffect.sound hs, requestOf_effect hrequest heffect⟩
  exact hkeeps.2

/-! ### How a call begins, and what it is told -/

/-- A call is refused or answered at once, or it begins its command. -/
inductive Begins (s s' : System) (request : ApiRequest) (dryRun : Bool) : Prop
  | refused {refusal : ApiAnswer} (hresolve : request.resolve = .error refusal)
      (hcall : s'.calls[s.calls.length]? = some { dryRun, answer := some refusal })
  | unavailable {resolved : Resolved} {message : String} (hresolve : request.resolve = .ok resolved)
      (hlink : s.lease.link ≠ .connected)
      (hcall : s'.calls[s.calls.length]? =
        some { dryRun, answer := some (.unavailable message) })
  | commands {resolved : Resolved} {call : ApiCall} (hresolve : request.resolve = .ok resolved)
      (hlink : s.lease.link = .connected) (hcall : s'.calls[s.calls.length]? = some call)
      (hcommand : call.command = some s.commander.commands.length)
      (hrequest : s'.requestOf s.commander.commands.length = some resolved.request)

theorem begins_of_step {request : ApiRequest} {dryRun : Bool}
    (h : (machine cfg).step s (.call request dryRun) = some s') : s.Begins s' request dryRun := by
  cases acts_of_step h with
  | refuses hresolve => exact .refused hresolve (by simp)
  | misses hresolve hlink =>
      exact .unavailable hresolve hlink (List.getElem?_concat_length ..)
  | @calls _ _ resolved hresolve hlink =>
      let began := s.enroll resolved.request dryRun [s.enrolled cfg resolved dryRun]
      have hcall : began.calls[s.calls.length]? = some (s.enrolled cfg resolved dryRun) := by
        simp [began, enroll]
      obtain ⟨call', hcall', hcontinues⟩ := call_runCommand hcall
        s.commander.commands.length { request := resolved.request, dryRun }
        (resolved.request.begin cfg.settleTimeout s.now dryRun s.commander.shared)
      have hget : began.commander.commands[s.commander.commands.length]? =
          some { request := resolved.request, dryRun } := enroll_getElem? s _ _ _
      refine .commands hresolve hlink hcall' hcontinues.command ?_
      have hsame : (began.runCommand cfg s.commander.commands.length
          { request := resolved.request, dryRun }
          (resolved.request.begin cfg.settleTimeout s.now dryRun
            s.commander.shared)).requestOf = began.requestOf := requestOf_runCommand hget
      refine (congrFun hsame _).trans ?_
      rw [requestOf, hget]
      rfl

theorem Told.of_command (h : s.Told) {j : ℕ} {c : Command} (hcall : s.calls[i]? = some call)
    (hcommand : call.command = some j) (hc : s.commander.commands[j]? = some c) :
    call.Told c := by
  have htold := h call (List.mem_of_getElem? hcall)
  simp only [hcommand] at htold
  obtain ⟨d, hd, htold⟩ := htold
  obtain rfl : c = d := Option.some.inj (hc.symm.trans hd)
  exact htold

/-- A call that has an answer was told the ending of its command. -/
theorem answered_of_told {c : Command} {answer : ApiAnswer} (h : call.Told c)
    (hanswer : call.answer = some answer) :
    ∃ ending description before after, c.pc = .ended ending ∧
      answer = translate description call.dryRun before after ending := by
  by_cases hended : ∃ ending, c.pc = .ended ending
  · obtain ⟨ending, hpc⟩ := hended
    obtain ⟨hdry, hfinal⟩ := h
    simp only [hpc] at hfinal
    obtain ⟨description, before, after, hfinal⟩ := hfinal
    exact ⟨ending, description, before, after, hpc, Option.some.inj (hanswer.symm.trans hfinal)⟩
  · -- the command goes on, so the call has not been answered
    have hopen := (ApiCall.told_of_not_ended (not_exists.mp hended)).mp h
    simp [hopen.2.1] at hanswer

/-- A call that awaited a command is told the ending of that command. -/
theorem Told.ended (h : s.Told) {j : ℕ} {answer : ApiAnswer} (hcall : s.calls[i]? = some call)
    (hcommand : call.command = some j) (hanswer : call.answer = some answer) :
    ∃ c ending description before after, s.commander.commands[j]? = some c ∧
      c.dryRun = call.dryRun ∧ c.pc = .ended ending ∧
      answer = translate description call.dryRun before after ending := by
  have htold := h call (List.mem_of_getElem? hcall)
  simp only [hcommand] at htold
  obtain ⟨c, hc, htold⟩ := htold
  obtain ⟨ending, description, before, after, hpc, htranslated⟩ := answered_of_told htold hanswer
  exact ⟨c, ending, description, before, after, hc, htold.1, hpc, htranslated⟩

/-- The command that a call awaits is the one it began, and was asked for what
the request of the call resolved to. -/
theorem command_of_call {s₁ : System} {request : ApiRequest} {dryRun : Bool}
    {actions : List Action} {n : ℕ} (hreach : Reachable cfg s)
    (hstep : (machine cfg).step s (.call request dryRun) = some s₁)
    (hrun : (machine cfg).run s₁ actions = some s')
    (hcall : s'.calls[s.calls.length]? = some call) (hcommand : call.command = some n) :
    ∃ resolved c, request.resolve = .ok resolved ∧ s.lease.link = .connected ∧
      s'.commander.commands[n]? = some c ∧ c.request = resolved.request ∧ call.Told c := by
  have hreach₁ := hreach.step hstep
  have hold {call₁ : ApiCall} (hget : s₁.calls[s.calls.length]? = some call₁) :
      call.command = call₁.command := by
    obtain ⟨call', hcall', hcontinues⟩ := call_run hget hreach₁.sound hrun
    obtain rfl : call = call' := Option.some.inj (hcall.symm.trans hcall')
    exact hcontinues.command
  cases begins_of_step hstep with
  | refused hresolve hbegan => simp [hold hbegan] at hcommand
  | unavailable hresolve hlink hbegan => simp [hold hbegan] at hcommand
  | commands hresolve hlink hbegan hbegun hrequest =>
      obtain rfl : s.commander.commands.length = n := by
        simpa [hold hbegan, hbegun] using hcommand
      obtain ⟨c, hc, hsame⟩ := Option.map_eq_some_iff.mp
        (requestOf_run hrequest hreach₁.sound hrun)
      exact ⟨_, c, hresolve, hlink, hc, hsame,
        (hreach₁.run hrun).told.of_command hcall hcommand hc⟩

end System

end Bedjet.Api
