import Bedjet.Api.Rehearsal

/-!
Dry runs in the service. Until a dry run decides, the service is what it would be
with the real command in its place; so the two decide in the same step, alike.
-/

namespace Bedjet.Service

/-- The commander if command `n` had been called with `dry_run=False`. -/
def Commander.real (n : ℕ) (commander : Commander) : Commander :=
  { commander with commands := commander.commands.modify n Command.real }

theorem Command.wake_real (c : Command) : c.real.wake = c.wake.real := by
  simp [Command.real, Command.wake, Pc.wake, Pc.mapWait_real]

namespace Commander

variable {commander : Commander} {n i : ℕ} {c : Command}

theorem getElem?_real_ne (h : i ≠ n) :
    (commander.real n).commands[i]? = commander.commands[i]? := by
  simp [real, h.symm]

theorem getElem?_real_self (h : commander.commands[n]? = some c) :
    (commander.real n).commands[n]? = some c.real := by
  simp [real, h]

@[simp] theorem length_real : (commander.real n).commands.length = commander.commands.length := by
  simp [real]

@[simp] theorem shared_real : (commander.real n).shared = commander.shared := rfl

theorem put_real (h : i ≠ n) (segment : Segment) :
    (commander.real n).put i c segment = (commander.put i c segment).real n := by
  simp only [put, real, Commander.mk.injEq, true_and]
  ext j d
  simp only [List.getElem?_set, List.getElem?_modify, List.length_modify]
  by_cases hj : i = j
  · subst hj
    simp [h.symm]
  · simp [hj]

theorem put_real_self (segment : Segment) :
    (commander.real n).put n c.real { segment with pc := segment.pc.real } =
      (commander.put n c segment).real n := by
  simp only [put, real, Commander.mk.injEq, true_and]
  ext j d
  simp only [List.getElem?_set, List.getElem?_modify, List.length_modify]
  by_cases hj : n = j
  · subst hj
    by_cases hlt : n < commander.commands.length <;> simp [hlt, Command.real]
  · simp [hj]

theorem onState_real (sample : Sample) :
    (commander.real n).onState sample = (commander.onState sample).real n := by
  simp only [onState, real, Commander.mk.injEq, true_and]
  ext j d
  simp only [List.getElem?_map, List.getElem?_modify]
  by_cases hj : n = j
  · subst hj
    cases commander.commands[n]? <;> simp [Command.wake_real]
  · simp [hj]

end Commander

end Bedjet.Service

namespace Bedjet.Api

open Python Protocol Device Service Asyncio

/-- The call if it had been made with `dry_run=False`, in case it awaits command `n`. -/
def ApiCall.real (n : ℕ) (call : ApiCall) : ApiCall :=
  if call.command = some n then { call with dryRun := false } else call

theorem ApiCall.finish_real {n i : ℕ} (h : i ≠ n) (call : ApiCall) (after : DeviceSnapshot)
    (ending : Ending) :
    (call.real n).finish i after ending = (call.finish i after ending).real n := by
  by_cases hcommand : call.command = some n
  · -- it awaits another command than the one that ended
    cases hbefore : call.before <;> simp [real, finish, hcommand, hbefore, h]
  · have hsame : ∀ answer, ApiCall.real n { call with answer } = { call with answer } := by
      simp [real, hcommand]
    rw [show call.real n = call by simp [real, hcommand], finish]
    split
    · split
      · exact (hsame _).symm
      · exact (hsame _).symm
    · exact (hsame _).symm

namespace System

/-- The service if command `n`, and the call that awaits it, had been made with
`dry_run=False`. -/
def real (n : ℕ) (s : System) : System :=
  { s with commander := s.commander.real n, calls := s.calls.map (ApiCall.real n) }

/-- Command `n` has begun and has not decided. -/
def Open (n : ℕ) (s : System) : Prop :=
  ∃ c, s.commander.commands[n]? = some c ∧ c.pc.early

variable {cfg : Config} {s s' t : System} {a : Action} {n i : ℕ}

@[simp] theorem snapshot_real : (s.real n).snapshot cfg = s.snapshot cfg := rfl

theorem answer_real (h : i ≠ n) (pc : Pc) :
    (s.real n).answer cfg i pc = (s.answer cfg i pc).real n := by
  cases pc with
  | ended ending =>
      simp only [answer, real, System.mk.injEq, List.map_map, true_and, and_true]
      apply List.map_congr_left
      intro call _
      exact ApiCall.finish_real h call _ ending
  | _ => rfl

theorem runCommand_real (h : i ≠ n) (c : Command) (segment : Segment) :
    (s.real n).runCommand cfg i c segment = (s.runCommand cfg i c segment).real n := by
  rw [runCommand, runCommand, ← answer_real h]
  congr 1
  simp only [real, emit, Commander.put_real h]

theorem answer_of_early {pc : Pc} (h : pc.early) (i : ℕ) : s.answer cfg i pc = s := by
  cases pc with
  | ended => simp [Pc.early] at h
  | _ => rfl

theorem early_real {pc : Pc} (h : pc.early) : pc.real.early := by
  cases pc <;> simp_all [Pc.real, Pc.early]

/-- The look of a wait at the event, with the dry run or the real command in it. -/
theorem runCommand_real_looks {c : Command} (hearly : c.pc.early) (shared : Shared)
    (f : Wait → Wait) :
    (s.real n).runCommand cfg n c.real { shared, pc := c.real.pc.mapWait f } =
      (s.runCommand cfg n c { shared, pc := c.pc.mapWait f }).real n := by
  have hput : (s.commander.real n).put n c.real { shared, pc := (c.pc.mapWait f).real } =
      (s.commander.put n c { shared, pc := c.pc.mapWait f }).real n :=
    Commander.put_real_self { shared, pc := c.pc.mapWait f }
  have hpc : c.real.pc.mapWait f = (c.pc.mapWait f).real := Pc.mapWait_real f c.pc
  rw [runCommand, runCommand, answer_of_early (by rw [hpc]; exact early_real (by simpa)),
    answer_of_early (by simpa)]
  simp only [real, emit, hpc, hput]

theorem takeIn_real (intake : Intake) : (s.real n).takeIn intake = (s.takeIn intake).real n := by
  rw [takeIn, takeIn]
  cases intake.published with
  | none => rfl
  | some sample =>
      simp only [onState, real, setLease, emit, Commander.onState_real]

theorem append_real (h : n < s.commander.commands.length) (c : Command) :
    ({ s.commander with commands := s.commander.commands ++ [c] } : Commander).real n =
      { s.commander.real n with commands := (s.commander.real n).commands ++ [c] } := by
  simp only [Commander.real, Commander.mk.injEq, true_and]
  ext j d
  simp only [List.getElem?_modify, List.getElem?_append, List.length_modify]
  by_cases hj : j < s.commander.commands.length
  · simp [hj]
  · have hne : n ≠ j := by omega
    simp [hj, hne]

theorem beginCommand_real (h : n < s.commander.commands.length) (request : Request)
    (dryRun : Bool) :
    (s.real n).beginCommand cfg request dryRun = (s.beginCommand cfg request dryRun).real n := by
  have hne : s.commander.commands.length ≠ n := h.ne'
  rw [beginCommand, beginCommand]
  dsimp only
  rw [show (s.real n).commander.commands.length = s.commander.commands.length from
    Commander.length_real, ← runCommand_real hne]
  congr 1
  simp only [real, append_real h]

theorem beginCall_of_connected {request : ApiRequest} {resolved : Resolved} {dryRun : Bool}
    (hresolve : request.resolve = .ok resolved) (hlink : s.lease.link = .connected) :
    s.beginCall cfg request dryRun =
      { s with calls := s.calls ++ [s.enrolled cfg resolved dryRun] }.beginCommand cfg
        resolved.request dryRun := by
  rw [beginCall, hresolve]
  dsimp only
  rw [if_neg (not_not.mpr hlink)]
  rfl

theorem enrolled_real (h : n < s.commander.commands.length) (resolved : Resolved)
    (dryRun : Bool) :
    (s.real n).enrolled cfg resolved dryRun = (s.enrolled cfg resolved dryRun).real n := by
  have hlength : (s.real n).commander.commands.length = s.commander.commands.length :=
    Commander.length_real
  rw [ApiCall.real, if_neg (by simpa [enrolled] using h.ne'), enrolled, enrolled, hlength]
  rfl

theorem beginCall_real (h : n < s.commander.commands.length) {request : ApiRequest}
    {resolved : Resolved} (dryRun : Bool) (hresolve : request.resolve = .ok resolved)
    (hlink : s.lease.link = .connected) :
    (s.real n).beginCall cfg request dryRun = (s.beginCall cfg request dryRun).real n := by
  let called : System := { s with calls := s.calls ++ [s.enrolled cfg resolved dryRun] }
  have hreal : (called.real n).beginCommand cfg resolved.request dryRun =
      (called.beginCommand cfg resolved.request dryRun).real n :=
    beginCommand_real (s := called) h _ _
  have hcalls : (called.real n).calls =
      (s.real n).calls ++ [(s.real n).enrolled cfg resolved dryRun] := by
    rw [enrolled_real h]
    exact List.map_append
  rw [beginCall_of_connected (s := s.real n) hresolve hlink, ← hcalls,
    beginCall_of_connected hresolve hlink, ← hreal]
  rfl

theorem Open.lt_length (h : s.Open n) : n < s.commander.commands.length := by
  obtain ⟨c, hc, -⟩ := h
  exact (List.getElem?_eq_some_iff.mp hc).1

/-- A command that is called is another. -/
theorem Open.beginCommand (h : s.Open n) (request : Request) (dryRun : Bool) :
    (s.beginCommand cfg request dryRun).Open n := by
  have hn := h.lt_length
  obtain ⟨c, hc, hearly⟩ := h
  refine ⟨c, ?_, hearly⟩
  rw [System.beginCommand, commander_runCommand, Commander.put]
  dsimp only
  rw [List.getElem?_set_ne hn.ne', List.getElem?_append_left hn, hc]

/-- A packet may wake it, and it has not decided yet. -/
theorem Open.takeIn (h : s.Open n) (intake : Intake) : (s.takeIn intake).Open n := by
  rw [System.takeIn]
  cases intake.published with
  | none => exact h
  | some sample =>
      obtain ⟨c, hc, hearly⟩ := h
      refine ⟨c.wake, ?_, ?_⟩
      · show (s.commander.commands.map Command.wake)[n]? = _
        rw [List.getElem?_map, hc]
        rfl
      · simpa [Command.wake, Pc.wake] using hearly

/-- Another command wakes up, with the dry run or the real command beside it. -/
theorem wake_real {d : Command} {why : Wakeup} {segment : Segment} (hne : i ≠ n)
    (hd : s.commander.commands[i]? = some d)
    (hsegment : d.pc.resume cfg.settleTimeout s.now d.dryRun s.commander.shared why =
      some segment) :
    (machine cfg).step (s.real n) (.wake i why) = some ((s.runCommand cfg i d segment).real n) := by
  have hd' : (s.real n).commander.commands[i]? = some d :=
    (Commander.getElem?_real_ne hne).trans hd
  rw [← runCommand_real hne]
  refine Option.bind_eq_some_iff.mpr ⟨d, hd', ?_⟩
  exact Option.bind_eq_some_iff.mpr ⟨segment, hsegment, rfl⟩

/-- The wait looks at the event, with the dry run or the real command in it. -/
theorem look_real {c : Command} (hearly : c.pc.early) (hc : s.commander.commands[n]? = some c)
    (hunlooked : c.pc.unlooked) :
    (machine cfg).step (s.real n) (.wake n .looked) =
      some ((s.runCommand cfg n c
        { shared := s.commander.shared
          pc := c.pc.mapWait (·.look s.commander.shared.updated) }).real n) := by
  have hunlooked' : c.real.pc.unlooked := by simpa [Command.real] using hunlooked
  rw [← runCommand_real_looks hearly]
  refine Option.bind_eq_some_iff.mpr ⟨c.real, Commander.getElem?_real_self hc, ?_⟩
  refine Option.bind_eq_some_iff.mpr ⟨_, ?_, rfl⟩
  rw [resume_looked, if_pos hunlooked']
  rfl

/-- Steps that do not resume a dry run that has not decided, or only let its wait
look at the event, leave it so, and are the steps of the service with the real
command in its place. -/
theorem step_real (hopen : s.Open n) (ha : ∀ why, a = .wake n why → why = .looked)
    (hstep : (machine cfg).step s a = some s') :
    s'.Open n ∧ (machine cfg).step (s.real n) a = some (s'.real n) := by
  have hn := hopen.lt_length
  cases acts_of_step hstep with
  | passes hdt => exact ⟨hopen, by simp [machine, step, real, hdt]⟩
  | drops => exact ⟨hopen, rfl⟩
  | powersOn => exact ⟨hopen, rfl⟩
  | yields => exact ⟨hopen, rfl⟩
  | resumes => exact ⟨hopen, rfl⟩
  | notifies hinterval =>
      refine ⟨hopen.takeIn _, ?_⟩
      rw [← takeIn_real]
      simp [machine, step, hinterval, real]
  | completes hintake =>
      refine ⟨hopen.takeIn _, ?_⟩
      rw [← takeIn_real]
      exact Option.map_eq_some_iff.mpr ⟨_, hintake, rfl⟩
  | polls hinterval hintake =>
      refine ⟨hopen.takeIn _, ?_⟩
      rw [← takeIn_real]
      simp only [machine, step, hinterval]
      exact Option.map_eq_some_iff.mpr ⟨_, hintake, rfl⟩
  | starts hlease => exact ⟨hopen, Option.map_eq_some_iff.mpr ⟨_, hlease, rfl⟩⟩
  | stops hlease => exact ⟨hopen, Option.map_eq_some_iff.mpr ⟨_, hlease, rfl⟩⟩
  | connects hlease => exact ⟨hopen, Option.bind_eq_some_iff.mpr ⟨_, hlease, rfl⟩⟩
  | @links t step lease hother hlease =>
      refine ⟨hopen, ?_⟩
      refine Option.bind_eq_some_iff.mpr ⟨lease, hlease, ?_⟩
      split
      · exact absurd rfl hother
      · rfl
  | commands request dryRun =>
      refine ⟨hopen.beginCommand request dryRun, ?_⟩
      rw [← beginCommand_real hn]
      rfl
  | @refuses request dryRun answer hresolve =>
      refine ⟨hopen, ?_⟩
      simp [machine, step, beginCall, hresolve, real, ApiCall.real]
  | @misses request dryRun resolved hresolve hlink =>
      refine ⟨hopen, ?_⟩
      simp [machine, step, beginCall, hresolve, hlink, real, ApiCall.real, yieldRemainingS]
  | @calls request dryRun resolved hresolve hlink =>
      let called : System := { s with calls := s.calls ++ [s.enrolled cfg resolved dryRun] }
      have hcalled : called.Open n := hopen
      refine ⟨hcalled.beginCommand resolved.request dryRun, ?_⟩
      rw [← beginCall_of_connected hresolve hlink, ← beginCall_real hn dryRun hresolve hlink]
      rfl
  | @delivers i d order base hd hpc hconnected =>
      obtain ⟨c, hc, hearly⟩ := hopen
      have hne : i ≠ n := by
        rintro rfl
        obtain rfl : c = d := Option.some.inj (hc.symm.trans hd)
        simp [hpc, Pc.early] at hearly
      refine ⟨⟨c, ?_, hearly⟩, ?_⟩
      · exact (List.getElem?_set_ne hne).trans hc
      · have hd' : (s.real n).commander.commands[i]? = some d :=
          (Commander.getElem?_real_ne hne).trans hd
        let reached : Segment :=
          { shared := s.commander.shared, pc := .writing order base true }
        have hput : (s.commander.real n).put i d reached = (s.commander.put i d reached).real n :=
          Commander.put_real hne reached
        refine Option.bind_eq_some_iff.mpr ⟨d, hd', ?_⟩
        simp only [hpc]
        rw [if_pos (show (s.real n).lease.transport.isConnected = true from hconnected)]
        simpa [real, emit, Commander.put, reached] using hput
  | @wakes i why d segment hd hsegment =>
      obtain ⟨c, hc, hearly⟩ := hopen
      by_cases hin : i = n
      · subst hin
        obtain rfl := ha why rfl
        obtain rfl : c = d := Option.some.inj (hc.symm.trans hd)
        obtain ⟨hunlooked, rfl⟩ : c.pc.unlooked ∧ _ = segment := by simpa using hsegment
        exact ⟨⟨_, commands_runCommand_self hc, by simpa⟩, look_real hearly hc hunlooked⟩
      · refine ⟨⟨c, ?_, hearly⟩, wake_real hin hd hsegment⟩
        rw [commander_runCommand, Commander.put, List.getElem?_set_ne hin, hc]

/-! ### The schedule up to the decision -/

/-- A command that has decided does not come back to where it had not. -/
theorem Open.back {c : Command} (hsound : s.Sound) (hc : s.commander.commands[n]? = some c)
    (hstep : (machine cfg).step s a = some s') (h : s'.Open n) : s.Open n := by
  obtain ⟨c', hc', hearly⟩ := h
  refine ⟨c, hc, ?_⟩
  cases touches_of_step hstep n with
  | spares htrace hquiet hcommand =>
      rcases hcommand with hcommand | hcommand
      · obtain rfl : c = c' := Option.some.inj (hc.symm.trans (hcommand.symm.trans hc'))
        exact hearly
      · rw [hcommand, hc] at hc'
        obtain rfl := Option.some.inj hc'
        simpa [Command.wake, Pc.wake] using hearly
  | @runs d segment hd hexecutes htrace hcommand =>
      rcases hd with hd | ⟨hlength, -⟩
      · obtain rfl : c = d := Option.some.inj (hc.symm.trans hd)
        rcases hexecutes with ⟨hfresh, -⟩ | ⟨why, hresume⟩
        · simp [hfresh, Pc.early]
        · obtain rfl : _ = c' := Option.some.inj (hcommand.symm.trans hc')
          by_cases hwhy : why = .looked
          · subst hwhy
            obtain ⟨-, rfl⟩ : c.pc.unlooked ∧ _ = segment := by simpa using hresume
            simpa using hearly
          · -- a command that is resumed otherwise has decided afterwards
            have hruns := resume_runs _ _ (hsound c (List.mem_of_getElem? hc)) hresume
            simp [hruns.late hwhy] at hearly
      · have hlt := (List.getElem?_eq_some_iff.mp hc).1
        omega
  | @delivers d order base hd hpc htrace hcommand =>
      obtain rfl : _ = c' := Option.some.inj (hcommand.symm.trans hc')
      simp [Pc.early] at hearly

/-- A step after which the command has still not decided did not resume it,
unless its wait looked at the event. -/
theorem Open.looked (hsound : s.Sound) (hstep : (machine cfg).step s a = some s')
    (h : s'.Open n) (why : Wakeup) (ha : a = .wake n why) : why = .looked := by
  subst ha
  by_contra hwhy
  obtain ⟨c', hc', hearly⟩ := h
  cases acts_of_step hstep with
  | @wakes _ _ c segment hc hsegment =>
      have hruns := resume_runs _ _ (hsound c (List.mem_of_getElem? hc)) hsegment
      obtain rfl : _ = c' := Option.some.inj ((commands_runCommand_self hc).symm.trans hc')
      simp [hruns.late hwhy] at hearly

/-- What a command was asked for, and whether it is a dry run, stays so. -/
theorem asked_step {c : Command} (hc : s.commander.commands[n]? = some c)
    (hstep : (machine cfg).step s a = some s') :
    ∃ d, s'.commander.commands[n]? = some d ∧ d.request = c.request ∧ d.dryRun = c.dryRun := by
  cases touches_of_step hstep n with
  | spares htrace hquiet hcommand =>
      rcases hcommand with hcommand | hcommand
      · exact ⟨c, hcommand.trans hc, rfl, rfl⟩
      · exact ⟨c.wake, by rw [hcommand, hc]; rfl, rfl, rfl⟩
  | @runs d segment hd hexecutes htrace hcommand =>
      rcases hd with hd | ⟨hlength, -⟩
      · obtain rfl : c = d := Option.some.inj (hc.symm.trans hd)
        exact ⟨_, hcommand, rfl, rfl⟩
      · have hlt := (List.getElem?_eq_some_iff.mp hc).1
        omega
  | @delivers d order base hd hpc htrace hcommand =>
      obtain rfl : c = d := Option.some.inj (hc.symm.trans hd)
      exact ⟨_, hcommand, rfl, rfl⟩

theorem asked_run {c : Command} {actions : List Action} (hc : s.commander.commands[n]? = some c)
    (hrun : (machine cfg).run s actions = some t) :
    ∃ d, t.commander.commands[n]? = some d ∧ d.request = c.request ∧ d.dryRun = c.dryRun := by
  refine Machine.run_invariant' (I := fun t => ∃ d, t.commander.commands[n]? = some d ∧
    d.request = c.request ∧ d.dryRun = c.dryRun) ?_ ⟨c, hc, rfl, rfl⟩ hrun
  rintro s a s' ⟨d, hd, hrequest, hdry⟩ hstep
  obtain ⟨e, he, hrequest', hdry'⟩ := asked_step hd hstep
  exact ⟨e, he, hrequest'.trans hrequest, hdry'.trans hdry⟩

/-- Up to the decision every schedule takes the dry run and the real command to
the same place. -/
theorem run_real {c : Command} {actions : List Action} (hsound : s.Sound)
    (hc : s.commander.commands[n]? = some c) (hrun : (machine cfg).run s actions = some t)
    (hopen : t.Open n) : s.Open n ∧ (machine cfg).run (s.real n) actions = some (t.real n) := by
  induction actions generalizing s c with
  | nil =>
      obtain rfl : s = t := by simpa using hrun
      exact ⟨hopen, rfl⟩
  | cons a actions ih =>
      obtain ⟨s', hstep, hrest⟩ := Machine.run_cons_eq_some.mp hrun
      have hsound' := (step_effect hsound hstep).sound hsound
      obtain ⟨d, hd, -⟩ := asked_step hc hstep
      obtain ⟨hopen', hrun'⟩ := ih hsound' hd hrest
      have hback := hopen'.back hsound hc hstep
      obtain ⟨-, hreal⟩ := step_real hback (hopen'.looked hsound hstep) hstep
      exact ⟨hback, Machine.run_cons_eq_some.mpr ⟨s'.real n, hreal, hrun'⟩⟩

end System

end Bedjet.Api
