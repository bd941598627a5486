import Bedjet.Api.DryRuns
import Bedjet.Api.Adoption
import Bedjet.Integrations.Kinds

/-!
A dry run rehearses the real command. Whatever the schedule up to the step in
which the command decides, the two decide in that step, and either raise the same
refusal or the dry run returns what the real command writes.
-/

namespace Bedjet.Api

open Python Protocol Device Service Asyncio

/-- A command to be tried, on the commander or on the API. -/
inductive Asking
  | command (request : Request)
  | call (request : ApiRequest)

namespace Asking

def action (dryRun : Bool) : Asking → Action
  | .command request => .command request dryRun
  | .call request => .call request dryRun

/-- The command that begins, if one does. -/
def request? (s : System) : Asking → Option Request
  | .command request => some request
  | .call request =>
      if s.lease.link = .connected then request.resolve.toOption.map Resolved.request else none

end Asking

namespace System

variable {cfg : Config} {s s' t t' u : System} {a : Action} {n : ℕ}

/-- Where the dry run and the real command are after the same step, which found
the pair of the commander as given. -/
inductive Agree (n : ℕ) (shared : Shared) (t t' : System) : Prop
  | waits (hopen : t.Open n) (hsame : t' = t.real n)
  /-- both raise the same refusal -/
  | refuses {c c' : Command} {e : Raised} (hc : t.commander.commands[n]? = some c)
      (hc' : t'.commander.commands[n]? = some c') (hpc : c.pc = .ended (.raised e))
      (hpc' : c'.pc = .ended (.raised e)) (hrefusal : e.refusal)
      (hshared : t.commander.shared = shared) (hshared' : t'.commander.shared = shared)
      (hnone : writesOf n t.trace = []) (hnone' : writesOf n t'.trace = [])
  /-- one returns what the other writes, and clears nothing -/
  | sends {c c' : Command} {result : CommandResult} {order : Order} {before : Sample}
      (hc : t.commander.commands[n]? = some c) (hc' : t'.commander.commands[n]? = some c')
      (hpc : c.pc = .ended (.returned result)) (hpc' : c'.pc = .writing order before false)
      (hshared : t.commander.shared = shared) (hnone : writesOf n t.trace = [])
      (hwrites : writesOf n t'.trace = [result.payload])

/-- No dry run has written anything, and no call for one was told of a change. -/
structure LeavesNoTrace (s : System) : Prop where
  writes : ∀ i c, s.commander.commands[i]? = some c → c.dryRun → writesOf i s.trace = []
  outcomes : ∀ call ∈ s.calls, call.dryRun → ∀ outcome, call.answer = some (.returned outcome) →
    outcome.changed = false ∧ outcome.sent = none

/-- A dry run made in this state, under this schedule and in whatever step comes
next, beside the real command. -/
structure Rehearsed (cfg : Config) (s : System) (asking : Asking) (actions : List Action) :
    Prop where
  /-- where no command begins, both calls are told the same -/
  declined : asking.request? s = none →
    ∀ t, (machine cfg).step s (asking.action true) = some t →
      ∃ t' answer, (machine cfg).step s (asking.action false) = some t' ∧ answer.isApiError ∧
        t.calls[s.calls.length]? = some { dryRun := true, answer := some answer } ∧
        t'.calls[s.calls.length]? = some { dryRun := false, answer := some answer }
  begun : (asking.request? s).isSome →
    ∀ t, (machine cfg).step s (asking.action true) = some t →
      ∃ t', (machine cfg).step s (asking.action false) = some t' ∧
        Agree s.commander.commands.length s.commander.shared t t'
  resumed : (asking.request? s).isSome →
    ∀ u a t, (machine cfg).run s (asking.action true :: actions) = some u →
      u.Open s.commander.commands.length → (machine cfg).step u a = some t →
        ∃ u' t', (machine cfg).run s (asking.action false :: actions) = some u' ∧
          (machine cfg).step u' a = some t' ∧
          Agree s.commander.commands.length u.commander.shared t t'
  quiet : ∀ t, (machine cfg).run s (asking.action true :: actions) = some t → t.LeavesNoTrace

/-- The arguments can be converted where they are, and the command finds the
reading that it was woken for. -/
structure Unspoilt (cfg : Config) (s : System) (asking : Asking) (actions : List Action) :
    Prop where
  parses : ∀ request, asking = .call request → request.Converts
  begins : ∀ request before, asking.request? s = some request →
    s.commander.shared.latest = some before → Convertible request before
  wakes : ∀ request u c, asking.request? s = some request →
    (machine cfg).run s (asking.action true :: actions) = some u →
      u.commander.commands[s.commander.commands.length]? = some c → c.pc.early → c.pc.woken →
        ∃ before, u.commander.shared.latest = some before ∧ Convertible request before

/-! ### Dry runs leave no trace -/

theorem Reachable.leavesNoTrace (h : Reachable cfg s) : s.LeavesNoTrace where
  writes i c hc hdry := by
    rw [List.eq_nil_iff_forall_not_mem]
    intro payload hpayload
    obtain ⟨d, order, base, hd, hwrote, -⟩ := h.issued i payload hpayload
    obtain rfl : c = d := Option.some.inj (hc.symm.trans hd)
    simp [hwrote.dryRun] at hdry
  outcomes call hcall hdry outcome hanswer := by
    have htold := h.told call hcall
    cases hcommand : call.command with
    | none =>
        simp only [hcommand] at htold
        obtain ⟨answer, hearly, hnot⟩ := htold
        obtain rfl : answer = .returned outcome := Option.some.inj (hearly.symm.trans hanswer)
        simp [ApiAnswer.early] at hnot
    | some i =>
        simp only [hcommand] at htold
        obtain ⟨c, -, htold⟩ := htold
        obtain ⟨ending, description, before, after, -, htranslated⟩ :=
          answered_of_told htold hanswer
        rw [hdry] at htranslated
        cases ending with
        | returned result =>
            obtain rfl : outcome = _ := by simpa [translate] using htranslated
            exact ⟨rfl, rfl⟩
        | raised e =>
            cases e with
            | alreadySatisfied message =>
                obtain rfl : outcome = _ := by simpa [translate] using htranslated
                exact ⟨rfl, rfl⟩
            | encode error => cases error <;> simp [translate, ofEncodeError] at htranslated
            | refused | unverified | assertion => simp [translate] at htranslated

/-! ### The beginning -/

/-- A dry run that waits for its first reading. -/
theorem beginCommand_waits {request : Request} {segment : Segment}
    (hdry : request.begin cfg.settleTimeout s.now true s.commander.shared = segment)
    (hreal : request.begin cfg.settleTimeout s.now false s.commander.shared =
      { segment with pc := segment.pc.real }) (hearly : segment.pc.early)
    (hcalls : s'.calls = s.calls.map (ApiCall.real s.commander.commands.length))
    (hsame : s' = { s with calls := s'.calls }) :
    s'.beginCommand cfg request false =
      (s.beginCommand cfg request true).real s.commander.commands.length := by
  rw [hsame, beginCommand, beginCommand]
  dsimp only
  rw [hdry, hreal, runCommand, runCommand, answer_of_early hearly,
    answer_of_early (early_real hearly)]
  simp only [real, emit, System.mk.injEq, true_and, and_true, hcalls]
  simp only [Commander.put, Commander.real, Commander.mk.injEq, true_and]
  ext j d
  simp only [List.getElem?_set, List.getElem?_modify, List.getElem?_append, List.length_append,
    List.length_singleton]
  by_cases hj : s.commander.commands.length = j
  · subst hj
    simp [Command.real]
  · simp only [hj, if_false]
    rcases lt_or_ge j s.commander.commands.length with hlt | hge
    · simp [hlt]
    · have hover : 0 < j - s.commander.commands.length := by omega
      simp [not_lt.mpr hge, hover.ne']

/-- The decision: where the dry run and the real command stand after it. -/
theorem agree_of_mirrors (c c' : Command) {dry real : Segment} {shared : Shared}
    (hmirrors : Mirrors shared dry real) (hrefusal : ∀ e, dry.pc = .ended (.raised e) → e.refusal)
    (hc : t.commander.commands[n]? = some { c with pc := dry.pc })
    (hc' : t'.commander.commands[n]? = some { c' with pc := real.pc })
    (hshared : t.commander.shared = dry.shared) (hshared' : t'.commander.shared = real.shared)
    (htrace : writesOf n t.trace = dry.writes) (htrace' : writesOf n t'.trace = real.writes) :
    Agree n shared t t' := by
  cases hmirrors with
  | raises hpc hsame hnone =>
      exact .refuses hc hc' hpc hpc (hrefusal _ hpc) (hshared.trans hsame) (hshared'.trans hsame)
        (htrace.trans hnone) (htrace'.trans hnone)
  | sends hdry hsame hnone hreal hpayload hwrites =>
      exact .sends hc hc' hdry hreal (hshared.trans hsame) (htrace.trans hnone)
        (by rw [htrace', hwrites, hpayload])

theorem Agree.refusal {shared : Shared} (h : Agree n shared t t') {c : Command} {e : Raised}
    (hc : t.commander.commands[n]? = some c) (hpc : c.pc = .ended (.raised e)) : e.refusal := by
  cases h with
  | waits hopen =>
      obtain ⟨d, hd, hearly⟩ := hopen
      obtain rfl : c = d := Option.some.inj (hc.symm.trans hd)
      simp [hpc, Pc.early] at hearly
  | refuses hd hd' hended hended' hrefusal =>
      obtain rfl := Option.some.inj (hc.symm.trans hd)
      simp only [hpc, Pc.ended.injEq, Ending.raised.injEq] at hended
      rwa [hended]
  | sends hd hd' hended =>
      obtain rfl := Option.some.inj (hc.symm.trans hd)
      simp [hpc] at hended

theorem writesOf_fresh (h : s.Accounted) : writesOf s.commander.commands.length s.trace = [] := by
  apply writesOf_eq_nil
  intro payload hmem
  exact absurd (h.numbered _ _ hmem) (lt_irrefl _)

theorem commands_beginCommand (cfg : Config) (s : System) (request : Request) (dryRun : Bool) :
    (s.beginCommand cfg request dryRun).commander.commands[s.commander.commands.length]? =
      some { request, dryRun, pc := (request.begin cfg.settleTimeout s.now dryRun
        s.commander.shared).pc } := by
  rw [beginCommand]
  exact commands_runCommand_self (by simp)

theorem shared_beginCommand (cfg : Config) (s : System) (request : Request) (dryRun : Bool) :
    (s.beginCommand cfg request dryRun).commander.shared =
      (request.begin cfg.settleTimeout s.now dryRun s.commander.shared).shared := by
  rw [beginCommand, commander_runCommand]
  rfl

theorem writesOf_beginCommand (cfg : Config) (h : s.Accounted) (calls : List ApiCall)
    (request : Request) (dryRun : Bool) :
    writesOf s.commander.commands.length
        ({ s with calls }.beginCommand cfg request dryRun).trace =
      (request.begin cfg.settleTimeout s.now dryRun s.commander.shared).writes := by
  rw [beginCommand, trace_runCommand, writesOf_append, writesOf_segment]
  dsimp only
  rw [writesOf_fresh h, List.append_nil]

/-- The two commands after they were called: on the same service, with a call
that awaits them, if any. -/
theorem begun_agree (cfg : Config) {request : Request} {calls calls' : List ApiCall}
    (h : s.Accounted)
    (hcalls : calls' = calls.map (ApiCall.real s.commander.commands.length))
    (hconvertible : ∀ before, s.commander.shared.latest = some before →
      Convertible request before) :
    Agree s.commander.commands.length s.commander.shared
      ({ s with calls }.beginCommand cfg request true)
      ({ s with calls := calls' }.beginCommand cfg request false) := by
  have hrefusal (e : Raised) (hpc : (request.begin cfg.settleTimeout s.now true
      s.commander.shared).pc = .ended (.raised e)) : e.refusal := begin_refusal hconvertible hpc
  have hc := commands_beginCommand cfg { s with calls } request true
  have hc' := commands_beginCommand cfg { s with calls := calls' } request false
  have hshared := shared_beginCommand cfg { s with calls } request true
  have hshared' := shared_beginCommand cfg { s with calls := calls' } request false
  have hwrites := writesOf_beginCommand cfg h calls request true
  have hwrites' := writesOf_beginCommand cfg h calls' request false
  have hsegments : Rehearses s.commander.shared
      (request.begin cfg.settleTimeout s.now true s.commander.shared)
      (request.begin cfg.settleTimeout s.now false s.commander.shared) := begin_rehearses request
  dsimp only at hc hc' hshared hshared'
  generalize hd : request.begin cfg.settleTimeout s.now true s.commander.shared = dry at *
  generalize hr : request.begin cfg.settleTimeout s.now false s.commander.shared = real at *
  cases hsegments with
  | waits hearly hquiet =>
      refine .waits ⟨_, hc, hearly⟩ ?_
      exact beginCommand_waits (s := { s with calls }) hd hr hearly hcalls rfl
  | decides hmirrors =>
      exact agree_of_mirrors { request, dryRun := true } { request, dryRun := false } hmirrors
        hrefusal hc hc' hshared hshared' hwrites hwrites'

theorem calls_real (h : s.Told) :
    s.calls.map (ApiCall.real s.commander.commands.length) = s.calls := by
  conv_rhs => rw [← List.map_id s.calls]
  apply List.map_congr_left
  intro call hcall
  have htold := h call hcall
  rw [ApiCall.real, if_neg]
  · rfl
  · intro hcommand
    simp [hcommand] at htold

/-- Both begin on the same service. -/
theorem starts_of_request {asking : Asking} {request : Request} (h : Reachable cfg s)
    (hrequest : asking.request? s = some request) :
    ∃ calls calls', calls' = calls.map (ApiCall.real s.commander.commands.length) ∧
      ∀ dryRun, (machine cfg).step s (asking.action dryRun) =
        some ({ s with calls := if dryRun then calls else calls' }.beginCommand cfg request
          dryRun) := by
  cases asking with
  | command request' =>
      obtain rfl : request' = request := by simpa [Asking.request?] using hrequest
      refine ⟨s.calls, s.calls, (calls_real h.told).symm, fun dryRun => ?_⟩
      simp [Asking.action, machine, step]
  | call request' =>
      rw [Asking.request?] at hrequest
      split at hrequest
      · rename_i hlink
        cases hresolve : request'.resolve with
        | error answer => simp [hresolve, Except.toOption] at hrequest
        | ok resolved =>
            obtain rfl : resolved.request = request := by
              simpa [hresolve, Except.toOption] using hrequest
            refine ⟨s.calls ++ [s.enrolled cfg resolved true],
              s.calls ++ [s.enrolled cfg resolved false], ?_, fun dryRun => ?_⟩
            · rw [List.map_append, calls_real h.told]
              simp [ApiCall.real, enrolled]
            · show some (s.beginCall cfg request' dryRun) = _
              rw [beginCall_of_connected hresolve hlink]
              cases dryRun <;> rfl
      · simp at hrequest

/-! ### What rehearses -/

/-- The dry run remains what was asked for. -/
theorem asked_of_request {asking : Asking} {actions : List Action} {u : System} {c : Command}
    (h : Reachable cfg s) {request : Request} (hrequest : asking.request? s = some request)
    (hrun : (machine cfg).run s (asking.action true :: actions) = some u)
    (hc : u.commander.commands[s.commander.commands.length]? = some c) :
    c.request = request ∧ c.dryRun := by
  obtain ⟨calls, calls', -, hsteps⟩ := starts_of_request h hrequest
  obtain ⟨s₁, hfirst, hrest⟩ := Machine.run_cons_eq_some.mp hrun
  obtain rfl := Option.some.inj ((hsteps true).symm.trans hfirst)
  obtain ⟨d, hd, hrequest', hdry⟩ :=
    asked_run (commands_beginCommand cfg { s with calls } request true) hrest
  obtain rfl : c = d := Option.some.inj (hc.symm.trans hd)
  exact ⟨hrequest', hdry⟩

/-- While the dry run waits, the service runs as it would with the real command
in its place. -/
theorem run_real_of_begins {asking : Asking} {actions : List Action} {u : System}
    (h : Reachable cfg s) {request : Request} (hrequest : asking.request? s = some request)
    (hbegins : ∀ before, s.commander.shared.latest = some before → Convertible request before)
    (hrun : (machine cfg).run s (asking.action true :: actions) = some u)
    (hopen : u.Open s.commander.commands.length) :
    (machine cfg).run s (asking.action false :: actions) =
      some (u.real s.commander.commands.length) := by
  obtain ⟨calls, calls', hcalls, hsteps⟩ := starts_of_request h hrequest
  obtain ⟨s₁, hfirst, hrest⟩ := Machine.run_cons_eq_some.mp hrun
  have hreach₁ := h.step hfirst
  obtain rfl := Option.some.inj ((hsteps true).symm.trans hfirst)
  -- the dry run waited when it was called, and so does the real command
  obtain ⟨hopen₁, hrun'⟩ := run_real hreach₁.sound
    (commands_beginCommand cfg { s with calls } request true) hrest hopen
  have hsame : { s with calls := calls' }.beginCommand cfg request false =
      ({ s with calls }.beginCommand cfg request true).real s.commander.commands.length := by
    obtain ⟨d, hd, hearly⟩ := hopen₁
    cases begun_agree cfg h.accounted hcalls hbegins with
    | waits _ hsame => exact hsame
    | refuses he _ hpc =>
        obtain rfl := Option.some.inj (hd.symm.trans he)
        simp [hpc, Pc.early] at hearly
    | sends he _ hpc =>
        obtain rfl := Option.some.inj (hd.symm.trans he)
        simp [hpc, Pc.early] at hearly
  refine Machine.run_cons_eq_some.mpr ⟨_, hsteps false, ?_⟩
  exact hsame ▸ hrun'

/-- A dry run that is resumed, and the real command resumed in its place. -/
theorem wake_agrees {n : ℕ} {why : Wakeup} {d : Command} {u t : System} (h : Reachable cfg u)
    (hd : u.commander.commands[n]? = some d) (hdry : d.dryRun) (hearly : d.pc.early)
    (hfinds : d.pc.woken → ∃ before, u.commander.shared.latest = some before ∧
      Convertible d.request before)
    (hwhy : why ≠ .looked) (hstep : (machine cfg).step u (.wake n why) = some t) :
    ∃ t', (machine cfg).step (u.real n) (.wake n why) = some t' ∧
      Agree n u.commander.shared t t' := by
  have hsound := h.sound d (List.mem_of_getElem? hd)
  cases acts_of_step hstep with
  | @wakes _ _ e segment he hsegment =>
      obtain rfl : d = e := Option.some.inj (hd.symm.trans he)
      obtain ⟨real, hresume, hmirrors⟩ := resume_mirrors hdry hsound hearly hwhy hsegment
      have hd' := Commander.getElem?_real_self hd
      have hnone := (h.accounted.ledger _ d hd).writesOf_early hearly
      refine ⟨(u.real n).runCommand cfg n d.real real, ?_, ?_⟩
      · refine Option.bind_eq_some_iff.mpr ⟨d.real, hd', ?_⟩
        exact Option.bind_eq_some_iff.mpr ⟨real, hresume, rfl⟩
      · apply agree_of_mirrors d d.real hmirrors ?_ (commands_runCommand_self hd)
          (commands_runCommand_self hd') (by simp [Commander.put]) (by simp [Commander.put])
        · rw [trace_runCommand, writesOf_append, writesOf_segment, hnone, List.append_nil]
        · rw [trace_runCommand, writesOf_append, writesOf_segment]
          show real.writes ++ writesOf n u.trace = _
          rw [hnone, List.append_nil]
        · intro e hpc
          exact resume_refusal hsound hearly hfinds hsegment hpc

theorem rehearsed_of_unspoilt {asking : Asking} {actions : List Action} (h : Reachable cfg s)
    (hunspoilt : Unspoilt cfg s asking actions) : Rehearsed cfg s asking actions where
  declined hnone t hstep := by
    cases asking with
    | command request => simp [Asking.request?] at hnone
    | call request =>
        have hconverts := hunspoilt.parses request rfl
        cases hresolve : request.resolve with
        | error answer =>
            obtain ⟨message, rfl⟩ := ApiRequest.refused_of_converts hconverts hresolve
            have hcall (dryRun : Bool) : (machine cfg).step s (.call request dryRun) =
                some { s with calls := s.calls ++
                  [{ dryRun, answer := some (.refused message) }] } := by
              simp [machine, step, beginCall, hresolve]
            obtain rfl := Option.some.inj ((hcall true).symm.trans hstep)
            exact ⟨_, .refused message, hcall false, rfl, by simp, by simp⟩
        | ok resolved =>
            have hlink : s.lease.link ≠ .connected := by
              intro hlink
              simp [Asking.request?, hlink, hresolve, Except.toOption] at hnone
            let answer : ApiAnswer :=
              .unavailable (unavailableMessage s.lease.link s.yieldRemainingS)
            have hcall (dryRun : Bool) : (machine cfg).step s (.call request dryRun) =
                some { s with calls := s.calls ++ [{ dryRun, answer := some answer }] } := by
              simp [machine, step, beginCall, hresolve, hlink, answer]
            obtain rfl := Option.some.inj ((hcall true).symm.trans hstep)
            exact ⟨_, answer, hcall false, rfl, by simp, by simp⟩
  begun hsome t hstep := by
    obtain ⟨request, hrequest⟩ := Option.isSome_iff_exists.mp hsome
    obtain ⟨calls, calls', hcalls, hsteps⟩ := starts_of_request h hrequest
    obtain rfl := Option.some.inj ((hsteps true).symm.trans hstep)
    refine ⟨_, hsteps false, ?_⟩
    exact begun_agree cfg h.accounted hcalls fun before hlatest =>
      hunspoilt.begins request before hrequest hlatest
  resumed hsome u a t hrun hopen hstep := by
    obtain ⟨request, hrequest⟩ := Option.isSome_iff_exists.mp hsome
    have hreal := run_real_of_begins h hrequest
      (fun before hlatest => hunspoilt.begins request before hrequest hlatest) hrun hopen
    refine ⟨u.real s.commander.commands.length, ?_⟩
    by_cases ha : ∃ why, a = .wake s.commander.commands.length why ∧ why ≠ .looked
    · obtain ⟨why, rfl, hwhy⟩ := ha
      obtain ⟨d, hd, hearly⟩ := hopen
      obtain ⟨hasked, hdry⟩ := asked_of_request h hrequest hrun hd
      have hfinds (hwoken : d.pc.woken) : ∃ before, u.commander.shared.latest = some before ∧
          Convertible d.request before :=
        hasked ▸ hunspoilt.wakes request u d hrequest hrun hd hearly hwoken
      obtain ⟨t', hstep', hagree⟩ := wake_agrees (h.run hrun) hd hdry hearly hfinds hwhy hstep
      exact ⟨t', hreal, hstep', hagree⟩
    · have hlooked (why : Wakeup) (hwhy : a = .wake s.commander.commands.length why) :
          why = .looked := by
        by_contra hne
        exact ha ⟨why, hwhy, hne⟩
      obtain ⟨hopen', hstep'⟩ := step_real hopen hlooked hstep
      exact ⟨t.real s.commander.commands.length, hreal, hstep', .waits hopen' rfl⟩
  quiet t hrun := by
    obtain ⟨earlier, hearlier⟩ := h
    have hreach : Reachable cfg t := by
      refine ⟨earlier ++ asking.action true :: actions, ?_⟩
      rw [Machine.run_append, hearlier]
      exact hrun
    exact hreach.leavesNoTrace

theorem unspoilt_of_rehearsed {asking : Asking} {actions : List Action} (h : Reachable cfg s)
    (hrehearsed : Rehearsed cfg s asking actions) : Unspoilt cfg s asking actions where
  parses request hasking := by
    subst hasking
    by_contra hconverts
    obtain ⟨e, hresolve⟩ := ApiRequest.escapes_of_not_converts hconverts
    have hnone : (Asking.call request).request? s = none := by
      simp [Asking.request?, hresolve, Except.toOption]
    obtain ⟨-, answer, -, herror, hcall, -⟩ := hrehearsed.declined hnone _ rfl
    have hescaped : answer = .escaped (.encode (.conversion e)) := by
      simpa [beginCall, hresolve, eq_comm] using hcall
    simp [hescaped, ApiAnswer.isApiError] at herror
  begins request before hrequest hlatest := by
    by_contra hconvertible
    obtain ⟨calls, calls', -, hsteps⟩ := starts_of_request h hrequest
    obtain ⟨_, _, hagree⟩ := hrehearsed.begun (by simp [hrequest]) _ (hsteps true)
    obtain ⟨e, hpc⟩ : ∃ e, (request.begin cfg.settleTimeout s.now true s.commander.shared).pc =
        .ended (.raised (.encode (.conversion e))) := begin_converts hlatest hconvertible
    have hc := commands_beginCommand cfg { s with calls } request true
    have hrefusal := hagree.refusal hc hpc
    simp [Raised.refusal] at hrefusal
  wakes request u c hrequest hrun hc hearly hwoken := by
    by_contra hfinds
    have hsame : c.request = request := (asked_of_request h hrequest hrun hc).1
    have hsound := (h.run hrun).sound c (List.mem_of_getElem? hc)
    obtain ⟨segment, e, hresume, hpc, hno⟩ : ∃ segment e,
        c.pc.resume cfg.settleTimeout u.now c.dryRun u.commander.shared .woken = some segment ∧
          segment.pc = .ended (.raised e) ∧ e.refusal = false :=
      resume_fails hsound hearly hwoken (hsame ▸ hfinds)
    have hstep : (machine cfg).step u (.wake s.commander.commands.length .woken) =
        some (u.runCommand cfg s.commander.commands.length c segment) :=
      Option.bind_eq_some_iff.mpr ⟨c, hc, Option.bind_eq_some_iff.mpr ⟨segment, hresume, rfl⟩⟩
    obtain ⟨_, _, _, _, hagree⟩ :=
      hrehearsed.resumed (by simp [hrequest]) u _ _ hrun ⟨c, hc, hearly⟩ hstep
    have hrefusal := hagree.refusal (commands_runCommand_self hc) hpc
    simp [hno] at hrefusal

/-- A dry run rehearses the real command and leaves no trace, under every
schedule and up to every step, if and only if its arguments can be converted where
they are and it finds the reading it was woken for. -/
theorem dry_run_rehearses_iff (h : Reachable cfg s) (asking : Asking) (actions : List Action) :
    Rehearsed cfg s asking actions ↔ Unspoilt cfg s asking actions :=
  ⟨unspoilt_of_rehearsed h, rehearsed_of_unspoilt h⟩

/-- The link is up, and the unit cools. -/
def cooling : List Action :=
  [.start, .link 0 .connected, .link 0 .subscribed, .notify coolPacket]

theorem dry_run_rehearses_iff_cooling :
    ∃ s, Reachable {} s ∧ s.lease.link = .connected ∧
      (Rehearsed {} s (.call (.setFan 20)) [.notify standbyPacket] ↔
        Unspoilt {} s (.call (.setFan 20)) [.notify standbyPacket]) := by
  have hany : ((machine {}).run {} cooling).any fun s => s.lease.link = .connected := by
    decide +kernel
  obtain ⟨s, hrun, hlink⟩ := Machine.exists_of_run_any hany
  exact ⟨s, ⟨cooling, hrun⟩, by simpa using hlink, dry_run_rehearses_iff ⟨cooling, hrun⟩ _ _⟩

/-- A dry run can end in an exception that is no refusal. -/
theorem a_dry_run_can_fail :
    ¬∀ (cfg : Config) (s : System) (asking : Asking) (actions : List Action),
      Reachable cfg s → Rehearsed cfg s asking actions := by
  intro hall
  have hany : ((machine {}).run {} cooling).any fun s =>
      s.commander.shared.latest.any fun before => before.state.power = .on &&
        before.packet.minTempC.isSome && before.packet.maxTempC.isSome := by
    decide +kernel
  obtain ⟨s, hrun, hcool⟩ := Machine.exists_of_run_any hany
  cases hlatest : s.commander.shared.latest with
  | none => simp [hlatest] at hcool
  | some before =>
      have hreach : Reachable {} s := ⟨cooling, hrun⟩
      have hunspoilt := unspoilt_of_rehearsed hreach
        (hall {} s (.command (.adjust (.temperature .nan))) [] hreach)
      have happlies : (Adjustment.temperature .nan).Applies before := by
        simpa [hlatest, Adjustment.Applies, and_assoc] using hcool
      obtain ⟨q, hnan, -⟩ := hunspoilt.begins _ before rfl hlatest _ rfl happlies
      simp at hnan

end System

end Bedjet.Api
