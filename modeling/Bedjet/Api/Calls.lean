import Bedjet.Api.Evidence

/-!
What an API call is told. Every call that got as far as a command is answered
with the translation of that command's ending, so the account of the command
says what the answer says about the wire.
-/

namespace Bedjet.Api

open Python Protocol Device Service Asyncio History

/-- The payloads written on behalf of a call. -/
def ApiCall.writes (call : ApiCall) (trace : List Event) : List Bytes :=
  match call.command with
  | some i => writesOf i trace
  | none => []

/-- An answer fits what was written on behalf of the call. -/
def Truthful (trace : List Event) (call : ApiCall) : ApiAnswer → Prop
  | .returned outcome =>
      match outcome.sent with
      | some sent =>
          call.dryRun = false ∧ outcome.changed = true ∧
            ∃ i payload, call.command = some i ∧ writesOf i trace = [payload] ∧
              .command i .completed ∈ trace ∧ sent = hex payload
      | none => outcome.changed = false ∧ call.writes trace = []
  | .refused _ | .unavailable _ => call.writes trace = []
  | .unverified _ => ∃ payload, call.writes trace = [payload]
  | .escaped _ => True

/-- The translation of an ending says what its account says. -/
theorem truthful_translate {trace : List Event} {call : ApiCall} {i : ℕ} {request : Request}
    {description : String} {before after : DeviceSnapshot} {ending : Ending}
    (hcommand : call.command = some i) (h : Settled trace i request call.dryRun ending) :
    Truthful trace call (translate description call.dryRun before after ending) := by
  cases ending with
  | returned result =>
      cases hdry : call.dryRun with
      | true =>
          have hnone : writesOf i trace = [] := by simpa [Settled, hdry] using h
          simpa [translate, Truthful, ApiCall.writes, hcommand] using hnone
      | false =>
          have hproven : Proven trace i request result := by simpa [Settled, hdry] using h
          exact ⟨hdry, rfl, i, result.payload, hcommand, hproven.writes, hproven.completed, rfl⟩
  | raised exception =>
      cases exception with
      | refused message => simpa [translate, Truthful, ApiCall.writes, hcommand, Settled] using h
      | alreadySatisfied message =>
          simpa [translate, Truthful, ApiCall.writes, hcommand, Settled] using h
      | encode e =>
          cases e with
          | command message =>
              simpa [translate, ofEncodeError, Truthful, ApiCall.writes, hcommand, Settled] using h
          | conversion => trivial
      | unverified message cause =>
          simpa [translate, Truthful, ApiCall.writes, hcommand, Settled] using h
      | assertion => trivial

/-- What a call has been told, given where its command is. -/
def ApiCall.Told (call : ApiCall) (c : Command) : Prop :=
  c.dryRun = call.dryRun ∧
    match c.pc with
    | .ended ending => ∃ description before after,
        call.answer = some (translate description call.dryRun before after ending)
    | _ => call.answer = none ∧ ∃ before, call.before = some before

theorem ApiCall.told_of_not_ended {call : ApiCall} {c : Command}
    (hpc : ∀ ending, c.pc ≠ .ended ending) :
    call.Told c ↔
      c.dryRun = call.dryRun ∧ call.answer = none ∧ ∃ before, call.before = some before := by
  rw [Told]
  split
  · rename_i ending hended
    exact absurd hended (hpc ending)
  · rfl

theorem wake_not_ended {c : Command} (hpc : ∀ ending, c.pc ≠ .ended ending) (ending : Ending) :
    c.wake.pc ≠ .ended ending := by
  rw [Command.wake, Pc.wake, Ne, Pc.mapWait_eq_ended]
  exact hpc ending

theorem ApiCall.Told.wake {call : ApiCall} {c : Command} (h : call.Told c) : call.Told c.wake := by
  by_cases hended : ∃ ending, c.pc = .ended ending
  · obtain ⟨ending, hpc⟩ := hended
    have hwake : c.wake = c := by
      obtain ⟨request, dryRun, pc⟩ := c
      obtain rfl : pc = .ended ending := hpc
      rfl
    rwa [hwake]
  · have hpc : ∀ ending, c.pc ≠ .ended ending := not_exists.mp hended
    rw [told_of_not_ended hpc] at h
    exact (told_of_not_ended (wake_not_ended hpc)).mpr h

namespace System

variable {cfg : Config} {s s' : System}

/-- Every call has been told what its command came to. -/
def Told (s : System) : Prop :=
  ∀ call ∈ s.calls,
    match call.command with
    | some i => ∃ c, s.commander.commands[i]? = some c ∧ call.Told c
    | none => ∃ answer, call.answer = some answer ∧ answer.early

/-- What stands on the list stays there, as far as a call can tell. -/
theorem Told.of_commands (h : s.Told) (hcalls : s'.calls = s.calls)
    (hcommands : ∀ (i : ℕ) (c : Command), s.commander.commands[i]? = some c →
      ∃ d, s'.commander.commands[i]? = some d ∧ ∀ call : ApiCall, call.Told c → call.Told d) :
    s'.Told := by
  intro call hcall
  have htold := h call (hcalls ▸ hcall)
  cases hcommand : call.command with
  | none => simpa [hcommand] using htold
  | some i =>
      simp only [hcommand] at htold ⊢
      obtain ⟨c, hc, hcall⟩ := htold
      obtain ⟨d, hd, hkeep⟩ := hcommands i c hc
      exact ⟨d, hd, hkeep call hcall⟩

theorem Told.onState (h : s.Told) (sample : Sample) : (s.onState sample).Told := by
  refine h.of_commands rfl fun i c hc => ⟨c.wake, ?_, fun call hcall => hcall.wake⟩
  simp [Commander.onState, hc]

theorem Told.enroll (h : s.Told) {request : Request} {dryRun : Bool} {calls : List ApiCall}
    (hcalls : ∀ call ∈ calls, call.Awaits s.commander.commands.length dryRun) :
    (s.enroll request dryRun calls).Told := by
  intro call hcall
  rcases List.mem_append.mp hcall with hcall | hcall
  · have htold := h call hcall
    cases hcommand : call.command with
    | none => simpa [hcommand] using htold
    | some i =>
        simp only [hcommand] at htold ⊢
        obtain ⟨c, hc, hcall⟩ := htold
        exact ⟨c, List.getElem?_append_left (List.getElem?_eq_some_iff.mp hc).1 ▸ hc, hcall⟩
  · have hawaits := hcalls call hcall
    rw [hawaits.command]
    exact ⟨_, enroll_getElem? s request dryRun calls,
      hawaits.dryRun.symm, hawaits.answer, hawaits.before⟩

/-- When the segment ends its command, the calls that await it go on. -/
theorem calls_runCommand_of_ended {i : ℕ} {c : Command} {segment : Segment} {ending : Ending}
    (hpc : segment.pc = .ended ending) :
    ∃ after, (s.runCommand cfg i c segment).calls = s.calls.map (·.finish i after ending) := by
  simp only [runCommand, hpc, answer]
  exact ⟨_, rfl⟩

theorem calls_runCommand_of_not_ended {i : ℕ} {c : Command} {segment : Segment}
    (hpc : ∀ ending, segment.pc ≠ .ended ending) :
    (s.runCommand cfg i c segment).calls = s.calls := by
  simp only [runCommand]
  cases hsegment : segment.pc with
  | ended ending => exact absurd hsegment (hpc ending)
  | _ => rfl

/-- A call that awaits the command goes on with its ending; the others are left
alone. -/
theorem Told.finish {call : ApiCall} {c : Command} {i : ℕ} {after : DeviceSnapshot}
    {ending : Ending} (h : call.Told c) (hcommand : call.command = some i)
    (hpc : ∀ ending, c.pc ≠ .ended ending) :
    (call.finish i after ending).Told { c with pc := .ended ending } := by
  obtain ⟨hdry, -, before, hbefore⟩ := (ApiCall.told_of_not_ended hpc).mp h
  simp only [ApiCall.finish, hcommand, hbefore, if_true]
  exact ⟨hdry, call.description, before, after, rfl⟩

theorem Told.run {i : ℕ} {c : Command} {why : Option Wakeup} {segment : Segment} (h : s.Told)
    (hc : s.commander.commands[i]? = some c)
    (hruns : Runs cfg.settleTimeout s.now c s.commander.shared why segment) :
    (s.runCommand cfg i c segment).Told := by
  have hnow : (s.runCommand cfg i c segment).commander.commands[i]? =
      some { c with pc := segment.pc } := commands_runCommand_self hc
  have hother {j : ℕ} (hji : j ≠ i) : (s.runCommand cfg i c segment).commander.commands[j]? =
      s.commander.commands[j]? := by
    rw [commander_runCommand]
    exact List.getElem?_set_ne (Ne.symm hji)
  by_cases hended : ∃ ending, segment.pc = .ended ending
  · obtain ⟨ending, hpc⟩ := hended
    obtain ⟨after, hcalls⟩ : ∃ after, (s.runCommand cfg i c segment).calls =
        s.calls.map (·.finish i after ending) := calls_runCommand_of_ended hpc
    intro call hcall
    obtain ⟨old, hold, rfl⟩ := List.mem_map.mp (hcalls ▸ hcall)
    -- the calls that await the command are answered, the others know what they knew
    have htold := h old hold
    cases hcommand : old.command with
    | none => simpa [ApiCall.finish, hcommand] using htold
    | some j =>
        simp only [hcommand] at htold
        obtain ⟨d, hd, htold⟩ := htold
        by_cases hji : j = i
        · subst hji
          obtain rfl : c = d := Option.some.inj (hc.symm.trans hd)
          have hkeep : (old.finish j after ending).command = some j := by
            rw [ApiCall.finish]
            split <;> simp_all
          rw [hkeep]
          exact ⟨_, hnow, hpc ▸ Told.finish htold hcommand fun e => hruns.not_ended⟩
        · have hkeep : old.finish i after ending = old := by
            rw [ApiCall.finish]
            split <;> simp_all [eq_comm]
          rw [hkeep, hcommand]
          exact ⟨d, hother hji ▸ hd, htold⟩
  · have hpc : ∀ ending, segment.pc ≠ .ended ending := not_exists.mp hended
    apply h.of_commands (calls_runCommand_of_not_ended hpc)
    intro j d hd
    by_cases hji : j = i
    · subst hji
      obtain rfl : c = d := Option.some.inj (hc.symm.trans hd)
      refine ⟨_, hnow, fun call htold => ?_⟩
      rw [ApiCall.told_of_not_ended fun e => hruns.not_ended] at htold
      exact (ApiCall.told_of_not_ended hpc).mpr htold
    · exact ⟨d, hother hji ▸ hd, fun call htold => htold⟩

theorem Told.reach {i : ℕ} {c : Command} {order : Order} {base : Sample} (h : s.Told)
    (hc : s.commander.commands[i]? = some c) (hpc : c.pc = .writing order base false) :
    (s.reach i c order base).Told := by
  refine h.of_commands rfl fun j d hd => ?_
  by_cases hji : j = i
  · subst hji
    obtain rfl : c = d := Option.some.inj (hc.symm.trans hd)
    refine ⟨_, List.getElem?_set_self (List.getElem?_eq_some_iff.mp hc).1, fun call htold => ?_⟩
    rw [ApiCall.told_of_not_ended (by simp [hpc])] at htold
    exact (ApiCall.told_of_not_ended (by simp)).mpr htold
  · exact ⟨d, by rw [System.reach, commander_emit, List.getElem?_set_ne (Ne.symm hji), hd],
      fun call htold => htold⟩

theorem Told.effect {a : Action} (h : s.Told) (heffect : Effect cfg s a s') : s'.Told := by
  cases heffect with
  | passes => exact h
  | links => exact h
  | connects => exact h
  | takesIn =>
      rw [System.takeIn]
      dsimp only
      split
      · exact Told.onState h _
      · exact h
  | @rejects a call answer hcommand hanswer hearly =>
      intro old hold
      rcases List.mem_append.mp hold with hold | hold
      · exact h old hold
      · obtain rfl := List.mem_singleton.mp hold
        rw [hcommand]
        exact ⟨answer, hanswer, hearly⟩
  | begins hcalls hruns => exact (h.enroll hcalls).run (enroll_getElem? s _ _ _) hruns
  | wakes hcommand hruns => exact h.run hcommand hruns
  | delivers hcommand hpc => exact h.reach hcommand hpc

theorem told_initial : Told {} := by
  intro call hcall
  simp at hcall

theorem Reachable.told (h : Reachable cfg s) : s.Told :=
  (h.invariant told_initial fun _ _ _ _ hI heffect => hI.effect heffect).2

/-- Whatever a call is told, it is what was written on its behalf. -/
theorem answer_is_truthful (h : Reachable cfg s) {call : ApiCall} {answer : ApiAnswer}
    (hcall : call ∈ s.calls) (hanswer : call.answer = some answer) :
    Truthful s.trace call answer := by
  have htold := h.told call hcall
  cases hcommand : call.command with
  | none =>
      obtain ⟨early, hearly, hkind⟩ : ∃ early, call.answer = some early ∧ early.early := by
        simpa [hcommand] using htold
      obtain rfl : answer = early := Option.some.inj (hanswer.symm.trans hearly)
      cases answer with
      | returned => simp [ApiAnswer.early] at hkind
      | unverified => simp [ApiAnswer.early] at hkind
      | escaped => trivial
      | refused => simp [Truthful, ApiCall.writes, hcommand]
      | unavailable => simp [Truthful, ApiCall.writes, hcommand]
  | some i =>
      simp only [hcommand] at htold
      obtain ⟨c, hc, htold⟩ := htold
      by_cases hended : ∃ ending, c.pc = .ended ending
      · obtain ⟨ending, hpc⟩ := hended
        have hledger : Settled s.trace i c.request c.dryRun ending := by
          simpa [Ledger, hpc] using h.accounted.ledger i c hc
        obtain ⟨hdry, hfinal⟩ := htold
        simp only [hpc] at hfinal
        obtain ⟨description, before, after, hfinal⟩ := hfinal
        obtain rfl := Option.some.inj (hanswer.symm.trans hfinal)
        exact truthful_translate hcommand (hdry ▸ hledger)
      · -- a call whose command has not ended has not been answered
        have hopen := (ApiCall.told_of_not_ended (not_exists.mp hended)).mp htold
        simp [hopen.2.1] at hanswer

/-- `switchOff`, asked for through the API. -/
def callOff : List Action :=
  [.start, .link 0 .connected, .link 0 .subscribed, .notify coolPacket, .call .turnOff false,
    .wake 0 .writeReturned, .wake 0 .looked, .notify standbyPacket, .wake 0 .woken]

theorem answer_is_truthful_callOff :
    ∃ s call answer, (machine {}).run {} callOff = some s ∧ call ∈ s.calls ∧
      call.answer = some answer ∧ Truthful s.trace call answer := by
  have hany : ((machine {}).run {} callOff).any fun s => s.calls.any (·.answer.isSome) := by
    decide +kernel
  obtain ⟨s, hrun, hcalls⟩ := Machine.exists_of_run_any hany
  obtain ⟨call, hcall, hsome⟩ := List.any_eq_true.mp hcalls
  obtain ⟨answer, hanswer⟩ := Option.isSome_iff_exists.mp hsome
  exact ⟨s, call, answer, hrun, hcall, hanswer, answer_is_truthful ⟨_, hrun⟩ hcall hanswer⟩

end System

end Bedjet.Api
