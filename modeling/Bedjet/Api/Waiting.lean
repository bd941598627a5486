import Bedjet.Api.Progress

/-!
A caller of the API at the place where it waits: for the answer of a call, or
for a `yield_link` to return. What it waits for comes, and can be told, whatever
happens to the service meanwhile, as long as no command discards a reading that
the one awaited has been told of.
-/

namespace Bedjet.Api

open Python Protocol Device Service Asyncio

inductive Place
  | call (i : ℕ)
  | yield (t : ℕ)

/-- What ends the wait. -/
inductive Outcome
  | answered (answer : ApiAnswer)
  | yielded
  | cancelled

namespace Place

variable {cfg : Config} {s s' : System} {a : Action} {place : Place} {Q : ApiAnswer → Prop}

def outcome (s : System) : Place → Option Outcome
  | .call i => (s.calls[i]?.bind (·.answer)).map .answered
  | .yield t =>
      match s.lease.tasks[t]?.map LinkTask.pc with
      | some .returned => some .yielded
      | some .raised => some .cancelled
      | _ => none

/-- The command that the caller awaits. -/
def awaited (s : System) : Place → Option ℕ
  | .call i => s.calls[i]?.bind (·.command)
  | .yield _ => none

/-- What the caller waits for will do; `Q` is what is known of an answer that
was given at once. -/
def Waits (Q : ApiAnswer → Prop) (s : System) : Place → Prop
  | .call i => ∃ call, s.calls[i]? = some call ∧
      match call.command with
      | some j => s.Sure j ∧ s.Begun j
      | none => ∃ answer, call.answer = some answer ∧ Q answer
  | .yield t => Yields t s.lease.tasks ∧ Lease.Queues t s.lease

theorem Waits.step (h : Waits Q s place) (hreach : System.Reachable cfg s) (hfilled : s.Filled)
    (hspares : ∀ j ∈ place.awaited s, s.Spares cfg j a)
    (hstep : (System.machine cfg).step s a = some s') : Waits Q s' place := by
  have heffect := System.step_effect hreach.sound hstep
  cases place with
  | call i =>
      obtain ⟨call, hcall, hwaits⟩ := h
      obtain ⟨call', hcall', hcontinues⟩ := System.call_effect hcall heffect
      refine ⟨call', hcall', ?_⟩
      cases hcommand : call.command with
      | none =>
          rw [hcommand] at hwaits
          rw [hcontinues.answered hcommand, hcommand]
          exact hwaits
      | some j =>
          rw [hcontinues.command, hcommand]
          rw [hcommand] at hwaits
          obtain ⟨hsure, hbegun⟩ := hwaits
          have hspares' := hspares j (by simp [awaited, hcall, hcommand])
          exact ⟨hsure.step hreach hfilled hspares' hstep, hbegun.effect heffect⟩
  | yield t =>
      obtain ⟨hyields, hqueues⟩ := h
      exact ⟨System.yields_step hyields hreach hstep,
        System.queues_step hqueues hyields hreach hstep⟩

/-! ### How the wait begins -/

/-- A call, where what it is refused with has the property. -/
theorem waits_call {request : ApiRequest} {dryRun : Bool} (hreach : System.Reachable cfg s)
    (hfilled : s.Filled) (hunavailable : ∀ message, Q (.unavailable message))
    (hrefusal : ∀ refusal, request.resolve = .error refusal → Q refusal)
    (hstep : (System.machine cfg).step s (.call request dryRun) = some s') :
    Waits Q s' (.call s.calls.length) := by
  cases System.begins_of_step hstep with
  | @refused refusal hresolve hcall => exact ⟨_, hcall, refusal, rfl, hrefusal refusal hresolve⟩
  | @unavailable resolved message hresolve hlink hcall =>
      exact ⟨_, hcall, _, rfl, hunavailable message⟩
  | @commands resolved call hresolve hlink hcall hcommand hrequest =>
      have hnew : s.commander.commands[s.commander.commands.length]? = none := by simp
      have hsure := System.Sure.begins hnew hreach hfilled hstep hrequest
        (ApiRequest.fits_of_resolve hresolve)
      refine ⟨call, hcall, ?_⟩
      rw [hcommand]
      exact ⟨hsure, System.begun_of_call hresolve hlink hstep⟩

theorem waits_yield {seconds : ℚ} (hpositive : 0 < seconds)
    (hstep : (System.machine cfg).step s (.yieldLink seconds) = some s') :
    Waits Q s' (.yield s.lease.tasks.length) := by
  obtain rfl : _ = s' := by simpa [System.machine, System.step] using hstep
  exact ⟨Lease.yields_yieldLink hpositive, Lease.queues_yieldLink hpositive⟩

/-! ### How it ends -/

/-- A wait ends with a yield that returned, with an answer that was given at
once, or with the translation of an ending in the taxonomy. -/
theorem Waits.ends (h : Waits Q s place) (htold : s.Told) {result : Outcome}
    (houtcome : place.outcome s = some result) :
    result = .yielded ∨ (∃ answer, result = .answered answer ∧ Q answer) ∨
      ∃ ending description dryRun before after, Classified ending ∧
        result = .answered (translate description dryRun before after ending) := by
  cases place with
  | call i =>
      obtain ⟨call, hcall, hwaits⟩ := h
      obtain ⟨answer, hanswer, rfl⟩ := Option.map_eq_some_iff.mp houtcome
      have hanswer : call.answer = some answer := by simpa [hcall] using hanswer
      cases hcommand : call.command with
      | none =>
          rw [hcommand] at hwaits
          obtain ⟨known, hknown, hQ⟩ := hwaits
          obtain rfl : known = answer := Option.some.inj (hknown.symm.trans hanswer)
          exact .inr (.inl ⟨known, rfl, hQ⟩)
      | some j =>
          rw [hcommand] at hwaits
          obtain ⟨ending, description, before, after, hclassified, rfl⟩ :=
            hwaits.1.answered htold hcall hcommand hanswer
          exact .inr (.inr ⟨ending, description, _, before, after, hclassified, rfl⟩)
  | yield t =>
      -- nobody cancels the `yield_link`
      obtain ⟨⟨k, hk, hyields⟩, -⟩ := h
      rw [outcome, hk] at houtcome
      cases hpc : k.pc with
      | returned =>
          simp only [hpc, Option.map_some, Option.some.injEq] at houtcome
          exact .inl houtcome.symm
      | raised => simp [LinkTask.yields, hpc] at hyields
      | _ => simp [hpc] at houtcome

/-! ### That it ends -/

/-- What is left until the wait ends. -/
def left (cfg : Config) (s : System) (place : Place) : ℕ :=
  match place with
  | .call _ =>
      match (place.awaited s).bind (s.commander.commands[·]?) with
      | some c => c.pc.toEnd s.now
      | none => 0
  | .yield t => s.lease.toGo cfg t

theorem left_of_awaited {i j : ℕ} {c : Command} (hawaited : (Place.call i).awaited s = some j)
    (hc : s.commander.commands[j]? = some c) :
    (Place.call i).left cfg s = c.pc.toEnd s.now := by
  simp [left, hawaited, hc]

/-- Some step brings what is awaited nearer to its end. -/
theorem Waits.progress (h : Waits Q s place) (hreach : System.Reachable cfg s)
    (hopen : place.outcome s = none) :
    ∃ a s', (System.machine cfg).step s a = some s' ∧
      (∀ j ∈ place.awaited s, s.Spares cfg j a) ∧ place.left cfg s' < place.left cfg s := by
  cases place with
  | call i =>
      obtain ⟨call, hcall, hwaits⟩ := h
      have hunanswered : call.answer = none := by simpa [outcome, hcall] using hopen
      cases hcommand : call.command with
      | none =>
          rw [hcommand] at hwaits
          obtain ⟨answer, hanswer, -⟩ := hwaits
          simp [hunanswered] at hanswer
      | some j =>
          rw [hcommand] at hwaits
          obtain ⟨-, c, hc, hbegun⟩ := hwaits
          have hawaited : (Place.call i).awaited s = some j := by simp [awaited, hcall, hcommand]
          have hgoes (ending : Ending) : c.pc ≠ .ended ending := by
            intro hpc
            obtain ⟨-, htold⟩ := hreach.told.of_command hcall hcommand hc
            simp only [hpc] at htold
            obtain ⟨description, before, after, hanswer⟩ := htold
            simp [hunanswered] at hanswer
          obtain ⟨a, s', c', hs, hspares, hc', hless⟩ :=
            System.command_progress hreach.sound hc hbegun hgoes
          -- the call goes on awaiting the same command
          obtain ⟨call', hcall', hcontinues⟩ :=
            System.call_effect hcall (System.step_effect hreach.sound hs)
          have hawaited' : (Place.call i).awaited s' = some j := by
            simp [awaited, hcall', hcontinues.command, hcommand]
          refine ⟨a, s', hs, fun k hk => ?_, ?_⟩
          · obtain rfl : j = k := by simpa [hawaited] using hk
            exact hspares
          · rw [left_of_awaited hawaited hc, left_of_awaited hawaited' hc']
            exact hless
  | yield t =>
      obtain ⟨⟨k, hk, hyields⟩, hqueues⟩ := h
      have hreturns : k.pc ≠ .returned := by
        intro hpc
        simp [outcome, hk, hpc] at hopen
      obtain ⟨a, s', hs, hless⟩ := System.yield_progress hreach hqueues hk hyields hreturns
      exact ⟨a, s', hs, by simp [awaited], hless⟩

/-! ### What spoils it -/

/-- Where a reading is discarded under the command awaited, that command goes on
being awaited, and fails its assertion when it runs next. -/
theorem fails_of_discard {j : ℕ} (hreach : System.Reachable cfg s) (hj : j ∈ place.awaited s)
    (hdiscards : ¬s.Spares cfg j a) (hstep : (System.machine cfg).step s a = some s') :
    j ∈ place.awaited s' ∧ place.outcome s' = none ∧
      ∃ s'', (System.machine cfg).step s' (.wake j .woken) = some s'' ∧
        place.outcome s'' = some (.answered (.escaped .assertion)) := by
  simp only [System.Spares, not_forall] at hdiscards
  obtain ⟨t, ht, -, hnone, c, hc, hwoken⟩ := hdiscards
  obtain rfl : s' = t := Option.some.inj (hstep.symm.trans ht)
  have hwoken : c.pc.woken := by simpa using hwoken
  cases place with
  | yield t => simp [awaited] at hj
  | call i =>
      obtain ⟨call, hcall, hcommand⟩ := Option.bind_eq_some_iff.mp hj
      have hreach' := hreach.step hstep
      obtain ⟨call', hcall', hcontinues⟩ :=
        System.call_effect hcall (System.step_effect hreach.sound hstep)
      have hcommand' := hcontinues.command.trans hcommand
      have hgoes (ending : Ending) : c.pc ≠ .ended ending := by
        intro hpc
        simp [hpc, Pc.woken] at hwoken
      have hopen := (ApiCall.told_of_not_ended hgoes).mp
        (hreach'.told.of_command hcall' hcommand' hc)
      -- the awaited command runs
      obtain ⟨u, hu, hended⟩ : ∃ u, (System.machine cfg).step s' (.wake j .woken) = some u ∧
          u.commander.commands[j]? = some { c with pc := .ended (.raised .assertion) } :=
        System.wake_empty hc hwoken hnone
      obtain ⟨call'', hcall'', hcontinues'⟩ :=
        System.call_effect hcall' (System.step_effect hreach'.sound hu)
      have hcommand'' := hcontinues'.command.trans hcommand'
      obtain ⟨-, htold⟩ := (hreach'.step hu).told.of_command hcall'' hcommand'' hended
      obtain ⟨description, before, after, hanswer⟩ := htold
      refine ⟨?_, ?_, u, hu, ?_⟩
      · simp [awaited, hcall', hcommand']
      · simp [outcome, hcall', hopen.2.1]
      · simp [outcome, hcall'', hanswer, translate]

end Place

end Bedjet.Api
