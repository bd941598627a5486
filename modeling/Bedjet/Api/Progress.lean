import Bedjet.Api.Awaiting
import Bedjet.Service.LinkProgress

/-!
What a caller awaits gets on. In every state some step of the service leads
towards the end of a command that has not ended, and some step towards the
return of a `yield_link` that has not returned.
-/

namespace Bedjet.Service

open Asyncio

/-- How many steps a command is from its end, if it is left alone: its wait may
have to look first, and its timers to elapse. -/
def Pc.toEnd (now : ℚ) : Pc → ℕ
  | .ended _ => 0
  | .fresh | .writing .. => 1
  | .baseline _ wait | .before _ wait =>
      (if wait.looked then 0 else 1) + if wait.due ≤ now then 1 else 2
  | .settling _ _ deadline wait =>
      (if wait.looked then 0 else 1) + if wait.due ≤ now ∧ deadline ≤ now then 1 else 2

/-- The look of a wait is one of these steps. -/
theorem Pc.toEnd_look {pc : Pc} (hpc : pc.unlooked) (set : Bool) (now : ℚ) :
    (pc.mapWait (·.look set)).toEnd now < pc.toEnd now := by
  cases pc <;> simp_all [Pc.unlooked, Pc.mapWait, Pc.toEnd, Wait.look]

section

variable {settleTimeout now : ℚ} {c : Command} {shared : Shared} {segment : Segment}

theorem Decides.ne_fresh (h : Decides c shared segment) : segment.pc ≠ .fresh := by
  cases h <;> simp

/-- A command that is resumed has begun. -/
theorem Runs.ne_fresh {why : Wakeup} (h : Runs settleTimeout now c shared (some why) segment) :
    segment.pc ≠ .fresh := by
  cases h with
  | decides hpc hdecides => exact hdecides.ne_fresh
  | looks hpc =>
      intro hfresh
      rw [Pc.mapWait_eq_fresh] at hfresh
      simp [hfresh, Pc.unlooked] at hpc
  | misses | linkFails => simp [Segment.raises]
  | returns hpc hsettles =>
      cases hsettles <;> simp [Segment.after, Segment.poke, Segment.returns, Segment.raises]
  | settles hpc hwhy hsettles =>
      cases hsettles <;> simp [Segment.returns, Segment.raises]

/-- So has one that is called. -/
theorem begin_ne_fresh (request : Request) (dryRun : Bool) :
    (request.begin settleTimeout now dryRun shared).pc ≠ .fresh := by
  let c : Command := { request, dryRun }
  have hruns : Runs settleTimeout now c shared none
      (request.begin settleTimeout now dryRun shared) := begin_runs settleTimeout now rfl
  cases hlatest : shared.latest with
  | some before =>
      generalize request.begin settleTimeout now dryRun shared = segment at hruns
      cases hruns with
      | decides hpc hdecides => exact hdecides.ne_fresh
      | awaits hpc hnone => simp [hlatest] at hnone
  | none =>
      have hsends (order : Order) : (sendVerified settleTimeout now order shared).pc ≠ .fresh := by
        simp [sendVerified, hlatest, awaitState]
      cases request with
      | off => exact hsends _
      | mode operand =>
          show (setMode settleTimeout now operand dryRun shared).pc ≠ .fresh
          rw [setMode]
          split
          · simp [Segment.raises]
          · split
            · simp [Segment.raises]
            · exact hsends _
      | adjust adjustment => simp [Request.begin, beginAdjustment, hlatest, awaitState]

/-- At its deadline the settle loop runs out. -/
theorem settleLoop_ends {order : Order} {base : Sample} {deadline : ℚ}
    (hdeadline : deadline ≤ now) :
    ∃ ending, (settleLoop settleTimeout now order base deadline shared).pc = .ended ending := by
  have hover : ¬now < deadline := not_lt.mpr hdeadline
  simp [settleLoop, giveUp, hover, Segment.raises]

end

end Bedjet.Service

namespace Bedjet.Api

open Python Protocol Device Service Asyncio

namespace System

variable {cfg : Config} {s s' : System} {a : Action} {j t : ℕ}

/-- Command `j` is on the list, and has begun. -/
def Begun (s : System) (j : ℕ) : Prop :=
  ∃ c, s.commander.commands[j]? = some c ∧ c.pc ≠ .fresh

theorem Begun.effect (h : s.Begun j) (heffect : Effect cfg s a s') : s'.Begun j := by
  obtain ⟨c, hc, hpc⟩ := h
  have hlt := (List.getElem?_eq_some_iff.mp hc).1
  cases heffect with
  | passes | links | connects | rejects => exact ⟨c, hc, hpc⟩
  | takesIn =>
      rw [Begun, takeIn]
      dsimp only
      split
      · refine ⟨c.wake, by simp [Commander.onState, hc], ?_⟩
        simpa [Command.wake, Pc.wake] using hpc
      · exact ⟨c, hc, hpc⟩
  | @begins _ request dryRun calls segment hcalls hruns =>
      refine ⟨c, ?_, hpc⟩
      simp only [commander_runCommand, Commander.put]
      rw [List.getElem?_set_ne hlt.ne']
      exact (List.getElem?_append_left hlt).trans hc
  | @wakes i d why segment hcommand hruns =>
      by_cases hij : i = j
      · subst hij
        exact ⟨_, commands_runCommand_self hcommand, hruns.ne_fresh⟩
      · refine ⟨c, ?_, hpc⟩
        simp only [commander_runCommand, Commander.put]
        exact (List.getElem?_set_ne hij).trans hc
  | @delivers i d order base hcommand hwriting =>
      by_cases hij : i = j
      · subst hij
        exact ⟨_, List.getElem?_set_self hlt, by simp⟩
      · exact ⟨c, (List.getElem?_set_ne hij).trans hc, hpc⟩

theorem begun_of_call {request : ApiRequest} {resolved : Resolved} {dryRun : Bool}
    (hresolve : request.resolve = .ok resolved) (hlink : s.lease.link = .connected)
    (hstep : (machine cfg).step s (.call request dryRun) = some s') :
    s'.Begun s.commander.commands.length := by
  cases acts_of_step hstep with
  | refuses hrefused => simp [hresolve] at hrefused
  | misses _ hdown => exact absurd hlink hdown
  | calls =>
      refine ⟨_, commands_runCommand_self ?_, begin_ne_fresh _ _⟩
      simp

theorem spares_pass (dt : ℚ) : s.Spares cfg j (.pass dt) := by
  intro s' hstep hsome hnone
  obtain ⟨-, rfl⟩ : 0 ≤ dt ∧ _ = s' := by simpa [machine, step] using hstep
  exact absurd hnone hsome

/-- Time passes until then. -/
theorem pass_step {u : ℚ} (hu : s.now ≤ u) :
    (machine cfg).step s (.pass (u - s.now)) = some { s with now := u } := by
  have hpasses : 0 ≤ u - s.now := sub_nonneg.mpr hu
  have hthen : s.now + (u - s.now) = u := by ring
  simp [machine, step, hpasses, hthen]

/-- A command that is resumed and ends there. -/
theorem wake_step {c : Command} {why : Wakeup} {segment : Segment} {ending : Ending}
    (hc : s.commander.commands[j]? = some c)
    (hsegment : c.pc.resume cfg.settleTimeout s.now c.dryRun s.commander.shared why = some segment)
    (hends : segment.pc = .ended ending) :
    ∃ s', (machine cfg).step s (.wake j why) = some s' ∧
      s'.commander.commands[j]? = some { c with pc := .ended ending } := by
  refine ⟨s.runCommand cfg j c segment, ?_, ?_⟩
  · simp [machine, step, wake, hc, hsegment]
  · rw [commands_runCommand_self hc, hends]

/-- A command that has not ended can be brought nearer to its end, and that
spares it what it was told of. -/
theorem command_progress {c : Command} (hsound : s.Sound)
    (hc : s.commander.commands[j]? = some c) (hbegun : c.pc ≠ .fresh)
    (hopen : ∀ ending, c.pc ≠ .ended ending) :
    ∃ a s' c', (machine cfg).step s a = some s' ∧ s.Spares cfg j a ∧
      s'.commander.commands[j]? = some c' ∧ c'.pc.toEnd s'.now < c.pc.toEnd s.now := by
  -- its timers elapse
  have hwaits {u : ℚ} (hu : s.now ≤ u) (hless : c.pc.toEnd u < c.pc.toEnd s.now) :
      ∃ a s' c', (machine cfg).step s a = some s' ∧ s.Spares cfg j a ∧
        s'.commander.commands[j]? = some c' ∧ c'.pc.toEnd s'.now < c.pc.toEnd s.now :=
    ⟨.pass (u - s.now), { s with now := u }, c, pass_step hu, spares_pass _, hc, hless⟩
  -- it runs
  have hruns (why : Wakeup) {segment : Segment}
      (hsegment : c.pc.resume cfg.settleTimeout s.now c.dryRun s.commander.shared why =
        some segment) (hends : ∃ ending, segment.pc = .ended ending)
      (hpositive : 0 < c.pc.toEnd s.now) :
      ∃ a s' c', (machine cfg).step s a = some s' ∧ s.Spares cfg j a ∧
        s'.commander.commands[j]? = some c' ∧ c'.pc.toEnd s'.now < c.pc.toEnd s.now := by
    obtain ⟨ending, hending⟩ := hends
    obtain ⟨s', hs', hc'⟩ := wake_step hc hsegment hending
    exact ⟨.wake j why, s', _, hs', spares_wake hsound why, hc', hpositive⟩
  -- its wait looks at the event
  by_cases hunlooked : c.pc.unlooked
  · let segment : Segment :=
      { shared := s.commander.shared, pc := c.pc.mapWait (·.look s.commander.shared.updated) }
    refine ⟨.wake j .looked, s.runCommand cfg j c segment, _, ?_, spares_wake hsound _,
      commands_runCommand_self hc, ?_⟩
    · simp [machine, step, wake, hc, hunlooked, segment]
    · rw [now_runCommand]
      exact Pc.toEnd_look hunlooked _ _
  cases hpc : c.pc with
  | fresh => exact absurd hpc hbegun
  | ended ending => exact absurd hpc (hopen ending)
  | writing order base delivered =>
      rw [hpc] at hruns
      exact hruns (.writeFailed "") rfl ⟨_, rfl⟩ (by simp [Pc.toEnd])
  | baseline adjustment wait =>
      rw [hpc] at hruns hwaits
      have hlooked : wait.looked := by simpa [hpc, Pc.unlooked] using hunlooked
      by_cases hdue : wait.due ≤ s.now
      · exact hruns .timedOut (if_pos ⟨hlooked, hdue⟩) ⟨_, rfl⟩ (by simp [Pc.toEnd, hdue])
      · exact hwaits (not_le.mp hdue).le (by simp [Pc.toEnd, hdue])
  | before order wait =>
      rw [hpc] at hruns hwaits
      have hlooked : wait.looked := by simpa [hpc, Pc.unlooked] using hunlooked
      by_cases hdue : wait.due ≤ s.now
      · exact hruns .timedOut (if_pos ⟨hlooked, hdue⟩) ⟨_, rfl⟩ (by simp [Pc.toEnd, hdue])
      · exact hwaits (not_le.mp hdue).le (by simp [Pc.toEnd, hdue])
  | settling order base deadline wait =>
      rw [hpc] at hruns hwaits
      have hlooked : wait.looked := by simpa [hpc, Pc.unlooked] using hunlooked
      by_cases hdue : wait.due ≤ s.now ∧ deadline ≤ s.now
      · exact hruns .timedOut (if_pos ⟨hlooked, hdue.1⟩) (settleLoop_ends hdue.2)
          (by simp [Pc.toEnd, hdue])
      · -- the later of its two timers
        have hlater : s.now ≤ max wait.due deadline := by
          rcases not_and_or.mp hdue with h | h
          · exact (not_le.mp h).le.trans (le_max_left _ _)
          · exact (not_le.mp h).le.trans (le_max_right _ _)
        exact hwaits hlater (by simp [Pc.toEnd, hdue])

/-! ### Yields -/

theorem stoppable_takeIn (h : s.lease.Stoppable cfg) {intake : Intake}
    (hkeeps : intake.reader.Keeps s.lease.reader) : (s.takeIn intake).lease.Stoppable cfg := by
  rw [lease_takeIn]
  exact h.reader hkeeps

theorem stoppable_runCommand (h : s.lease.Stoppable cfg) (i : ℕ) (c : Command)
    (segment : Segment) : (s.runCommand cfg i c segment).lease.Stoppable cfg := by
  rw [lease_runCommand]
  split
  · exact h.reader (Reader.keeps_pokeNow _)
  · exact h

theorem stoppable_step (h : s.lease.Stoppable cfg) (hstep : (machine cfg).step s a = some s') :
    s'.lease.Stoppable cfg := by
  cases acts_of_step hstep with
  | passes | refuses | misses | delivers => exact h
  | drops | resumes => exact ⟨h.owns, h.ends⟩
  | powersOn => exact Lease.stoppable_powerOn h
  | notifies => exact stoppable_takeIn h (Reader.keeps_onNotify _ _ _)
  | completes hintake => exact stoppable_takeIn h (Reader.keeps_completionStep hintake)
  | polls hinterval hintake => exact stoppable_takeIn h (Reader.keeps_pollStep hintake)
  | starts hlease => exact Lease.stoppable_start h hlease
  | stops hlease => exact Lease.stoppable_stop h hlease
  | yields seconds => exact Lease.stoppable_yieldLink h seconds
  | connects hlease | links _ hlease => exact Lease.stoppable_taskStep h hlease
  | commands | calls | wakes =>
      apply stoppable_runCommand
      exact h

/-- Whoever stops the reader awaits a task that is ending. -/
theorem Reachable.stoppable (h : Reachable cfg s) : s.lease.Stoppable cfg := by
  obtain ⟨actions, hrun⟩ := h
  exact Machine.run_invariant' (I := fun s => s.lease.Stoppable cfg)
    (fun _ _ _ => stoppable_step) Lease.stoppable_initial hrun

/-- A `yield_link` stays in the queue until it is its turn. -/
theorem queues_step (h : Lease.Queues t s.lease) (hyields : Yields t s.lease.tasks)
    (hreach : Reachable cfg s) (hstep : (machine cfg).step s a = some s') :
    Lease.Queues t s'.lease := by
  have heffect := step_leaseEffect hstep
  generalize s'.lease = lease at heffect
  cases heffect with
  | start hstart =>
      exact Lease.queues_of_ran h hyields hyields.ne_length (Lease.ran_start hstart)
        fun hw => Lease.mem_waiters_start hw hstart
  | stop hstop => exact Lease.queues_stop h hyields hstop
  | yieldLink seconds =>
      exact Lease.queues_of_ran h hyields hyields.ne_length (Lease.ran_yieldLink _ seconds)
        fun hw => Lease.mem_waiters_yieldLink hw seconds
  | resume | drop | elsewhere => exact h
  | powerOn => exact Lease.queues_powerOn h
  | @link t' step lease hlink =>
      by_cases hne : t = t'
      · subst hne
        obtain ⟨k, hk, hyields⟩ := hyields
        have hp : s.slot.parties t = some k.party := by simp [slot, Lease.slot, hk]
        exact Lease.queues_taskStep hk hyields (hreach.slot_sound.fit t _ hp).1 hlink
      · exact Lease.queues_of_ran h hyields hne (Lease.ran_taskStep hlink)
          fun hw => Lease.mem_waiters_taskStep hne hw hlink

theorem link_step {w : ℕ} {step : Lease.LinkStep} {lease : Lease}
    (h : s.lease.taskStep cfg s.now w step = some lease) :
    ∃ s', (machine cfg).step s (.link w step) = some s' ∧ s'.lease = lease := by
  cases step with
  | connected =>
      exact ⟨(s.setLease lease).emit [.connected], by simp [machine, System.step, linkStep, h], rfl⟩
  | _ => exact ⟨s.setLease lease, by simp [machine, System.step, linkStep, h], rfl⟩

theorem takeIn_quiet (r : Reader) :
    (s.takeIn { reader := r }).lease = { s.lease with reader := r } := rfl

/-- A task of the reader that is ending ends when it runs. -/
theorem child_step {child : ℕ} (hends : s.lease.reader.Ends cfg child)
    (hopen : s.lease.childDone cfg child = false) :
    ∃ a s' r, (machine cfg).step s a = some s' ∧ s'.lease = { s.lease with reader := r } ∧
      s'.lease.childDone cfg child := by
  cases hinterval : cfg.pollInterval with
  | some interval =>
      simp only [Reader.Ends, hinterval] at hends
      obtain ⟨k, hk, hending⟩ := hends
      have hnot : k.phase ≠ .done := by
        simpa [Lease.childDone, hinterval, Reader.pollTaskDone, hk] using hopen
      have hcancelled : k.cancelled := by simpa [PollTask.ending, hnot] using hending
      let r := s.lease.reader.putPollTask child { k with phase := .done }
      have hdone : (s.takeIn { reader := r }).lease.childDone cfg child := by
        have hlt := (List.getElem?_eq_some_iff.mp hk).1
        simp [Lease.childDone, hinterval, Reader.pollTaskDone, takeIn_quiet, r,
          Reader.putPollTask, List.getElem?_set_self hlt]
      have hstep (step : Reader.PollStep)
          (h : s.lease.reader.pollStep child step s.now interval.1
            s.lease.transport.isConnected = some { reader := r }) :
          (machine cfg).step s (.poll child step) = some (s.takeIn { reader := r }) := by
        simp [machine, System.step, hinterval, h]
      cases hphase : k.phase with
      | scheduled =>
          refine ⟨.poll child .begin, _, r, hstep _ ?_, rfl, hdone⟩
          simp [Reader.pollStep, hk, hphase, hcancelled, r]
      | reading | pausing =>
          refine ⟨.poll child .cancelled, _, r, hstep _ ?_, rfl, hdone⟩
          simp [Reader.pollStep, hk, hphase, hcancelled, r]
      | done => exact absurd hphase hnot
  | none =>
      simp only [Reader.Ends, hinterval] at hends
      obtain ⟨c, hc, hending⟩ := hends
      have hnot : c.phase ≠ .done := by
        simpa [Lease.childDone, hinterval, Reader.completionDone, hc] using hopen
      have hcancelled : c.cancelled := by simpa [Completion.ending, hnot] using hending
      let r := s.lease.reader.putCompletion child { c with phase := .done }
      have hdone : (s.takeIn { reader := r }).lease.childDone cfg child := by
        have hlt := (List.getElem?_eq_some_iff.mp hc).1
        simp [Lease.childDone, hinterval, Reader.completionDone, takeIn_quiet, r,
          Reader.putCompletion, List.getElem?_set_self hlt]
      have hstep (step : Reader.CompletionStep)
          (h : s.lease.reader.completionStep child step
            s.lease.transport.isConnected = some { reader := r }) :
          (machine cfg).step s (.completion child step) = some (s.takeIn { reader := r }) := by
        simp [machine, System.step, h]
      cases hphase : c.phase with
      | scheduled =>
          refine ⟨.completion child .begin, _, r, hstep _ ?_, rfl, hdone⟩
          simp [Reader.completionStep, hc, hphase, hcancelled, r]
      | reading =>
          refine ⟨.completion child .cancelled, _, r, hstep _ ?_, rfl, hdone⟩
          simp [Reader.completionStep, hc, hphase, hcancelled, r]
      | done => exact absurd hphase hnot

/-- A `yield_link` that has not returned has the lock, or waits for it in the
queue. -/
theorem holder_or_queued {k : LinkTask} (hreach : Reachable cfg s)
    (hqueues : Lease.Queues t s.lease) (hk : s.lease.tasks[t]? = some k) (hyields : k.yields)
    (hopen : k.pc ≠ .returned) : s.lease.lock.holder = some t ∨ t ∈ s.lease.lock.waiters := by
  have hp : s.slot.parties t = some k.party := by simp [slot, Lease.slot, hk]
  have hholder : k.pc.phase.holds → s.lease.lock.holder = some t :=
    (hreach.slot_sound.exclusive.holder t k.party hp).mp
  rcases Lease.pc_of_fits hyields (hreach.slot_sound.fit t k.party hp).fits with
    hpc | ⟨child, hpc⟩ | hpc | hpc | hpc
  · exact .inr (hqueues k hk (by simp [hpc, LinkPc.queues]))
  · exact .inl (hholder (by simp [hpc, LinkPc.phase, Phase.holds]))
  · exact .inl (hholder (by simp [hpc, LinkPc.phase, Phase.holds]))
  · exact .inl (hholder (by simp [hpc, LinkPc.phase, Phase.holds]))
  · exact absurd hpc hopen

/-- A `yield_link` that has not returned can be brought nearer to its return. -/
theorem yield_progress {k : LinkTask} (hreach : Reachable cfg s)
    (hqueues : Lease.Queues t s.lease) (hk : s.lease.tasks[t]? = some k) (hyields : k.yields)
    (hopen : k.pc ≠ .returned) :
    ∃ a s', (machine cfg).step s a = some s' ∧ s'.lease.toGo cfg t < s.lease.toGo cfg t := by
  have hplace := holder_or_queued hreach hqueues hk hyields hopen
  cases hholder : s.lease.lock.holder with
  | none =>
      have hqueued : t ∈ s.lease.lock.waiters := by simpa [hholder] using hplace
      obtain ⟨w, step, lease, hlease, hless⟩ : ∃ w step lease,
          s.lease.taskStep cfg s.now w step = some lease ∧ lease.toGo cfg t < s.lease.toGo cfg t :=
        Lease.grant_step hholder hreach.inOrder hqueued
      obtain ⟨s', hs', rfl⟩ := link_step hlease
      exact ⟨.link w step, s', hs', hless⟩
  | some w =>
      obtain ⟨p, hp⟩ := Option.isSome_iff_exists.mp
        (hreach.slot_sound.exclusive.present w hholder)
      have hholds : p.phase.holds := (hreach.slot_sound.exclusive.holder w p hp).mpr hholder
      obtain ⟨d, hd, rfl⟩ : ∃ d, s.lease.tasks[w]? = some d ∧ d.party = p := by
        simpa [slot, Lease.slot] using hp
      by_cases hchild : ∀ child, d.pc = .stoppingReader child → s.lease.childDone cfg child
      · have hrole (hsupervise : d.role = .supervise) : w ≠ t ∧ t ∈ s.lease.lock.waiters := by
          have hne : w ≠ t := by
            rintro rfl
            obtain rfl : k = d := Option.some.inj (hk.symm.trans hd)
            simp [LinkTask.yields, hsupervise] at hyields
          exact ⟨hne, by simpa [hholder, hne] using hplace⟩
        obtain ⟨step, lease, hlease, hless⟩ : ∃ step lease,
            s.lease.taskStep cfg s.now w step = some lease ∧
              lease.toGo cfg t < s.lease.toGo cfg t :=
          Lease.release_step hholder hd hholds hchild hrole
        obtain ⟨s', hs', rfl⟩ := link_step hlease
        exact ⟨.link w step, s', hs', hless⟩
      · -- it awaits a task of the reader, which ends first
        simp only [not_forall, Bool.not_eq_true] at hchild
        obtain ⟨child, hpc, hnot⟩ := hchild
        have hends := hreach.stoppable.ends d (List.mem_of_getElem? hd) child hpc
        obtain ⟨a, s', r, hs', hlease, hdone⟩ := child_step hends hnot
        refine ⟨a, s', hs', ?_⟩
        rw [hlease] at hdone ⊢
        rw [Lease.toGo_of_holder hholder hd]
        rw [Lease.toGo_of_holder (l := { s.lease with reader := r }) hholder hd]
        simp [Lease.hold, hpc, hnot, hdone]

end System

end Bedjet.Api
