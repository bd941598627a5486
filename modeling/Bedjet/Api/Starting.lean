import Bedjet.Api.LinkSteps

/-!
How a `start` ends that runs alone. It is to take the link or to leave it free;
but `_connect` undoes nothing of a connection whose subscription fails, and it
returns as if it had connected where a yield's deadline is still set.
-/

namespace Bedjet.Service.Lease

open Asyncio

/-- No supervisor, and no call on the lease in progress. -/
structure Resting (l : Lease) : Prop where
  supervisor : l.supervisor = none
  calls : ∀ k ∈ l.tasks, k.role ≠ .supervise → k.pc.finished

/-- The call of task `t` has ended. -/
def ended (l : Lease) (t : ℕ) : Bool :=
  (l.tasks[t]?).any (·.pc.finished)

/-- The `start` of task `t` has returned, with the link taken. -/
structure Up (l : Lease) (t : ℕ) : Prop where
  returned : ∃ k, l.tasks[t]? = some k ∧ k.pc = .returned
  link : l.link = .connected
  transport : l.transport.isConnected
  reader : l.reader.running
  supervisor : l.supervisor.isSome

/-- The `start` of task `t` has raised, with the link free. -/
structure Down (l : Lease) (t : ℕ) : Prop where
  raised : ∃ k, l.tasks[t]? = some k ∧ k.pc = .raised
  link : l.link = .stopped
  transport : l.transport.isConnected = false
  reader : l.reader.running = false
  supervisor : l.supervisor = none

def AllOrNothing (l : Lease) (t : ℕ) : Prop :=
  l.Up t ∨ l.Down t

/-- A failure leaves the transport connected, or a subscription is made on a
transport that is not. -/
def mishap (l : Lease) : LinkStep → Bool
  | .connectFailed connected => connected
  | .subscribeFailed => l.transport.isConnected
  | .subscribed => !l.transport.isConnected
  | _ => false

/-- Task `t` is a `start` that has the lock, and nobody else is at work. -/
structure Starting (t : ℕ) (l : Lease) : Prop where
  task : ∃ k, l.tasks[t]? = some k ∧ k.role = .start ∧ k.cancelled = false ∧
    (k.pc = .connecting ∨ k.pc = .subscribing)
  alone : ∀ t' k, t' ≠ t → l.tasks[t']? = some k → k.pc.finished
  supervisor : l.supervisor = none
  reader : l.reader.running = false

variable {cfg : Config} {now : ℚ} {l l' : Lease} {t t' : ℕ}

theorem Starting.not_ended (h : l.Starting t) : l.ended t = false := by
  obtain ⟨k, hk, -, -, hpc⟩ := h.task
  rcases hpc with hpc | hpc <;> simp [ended, hk, hpc, LinkPc.finished]

theorem taskStep_finished {k : LinkTask} (hk : l.tasks[t]? = some k) (hpc : k.pc.finished)
    (step : LinkStep) : l.taskStep cfg now t step = none := by
  have hends : k.pc = .returned ∨ k.pc = .raised := by
    cases h : k.pc <;> simp [h, LinkPc.finished] at hpc ⊢
  rcases hends with hpc | hpc <;> cases step <;> simp [taskStep, hk, hpc, cancelTask]

/-- The task of the call is elsewhere; the others stay where they are. -/
theorem Starting.setPc (h : l.Starting t) {pc : LinkPc}
    (hpc : pc = .connecting ∨ pc = .subscribing) : (l.setPc t pc).Starting t where
  task := by
    obtain ⟨k, hk, hrole, hcancelled, -⟩ := h.task
    exact ⟨{ k with pc }, by simp [Lease.setPc, setTask, hk], hrole, hcancelled, hpc⟩
  alone t' k hne hk := by
    refine h.alone t' k hne ?_
    have hget : (l.tasks.modify t fun k => { k with pc })[t']? = some k := hk
    rwa [List.getElem?_modify_ne _ _ hne.symm] at hget
  supervisor := h.supervisor
  reader := h.reader

/-- The end of `_connect` in a `start`. -/
theorem returned_linkUp (htask : ∃ k, l.tasks[t]? = some k) :
    ∃ k, (l.linkUp cfg now t .start).tasks[t]? = some k ∧ k.pc = .returned := by
  obtain ⟨k, hk⟩ := htask
  have hlt : t < l.tasks.length := (List.getElem?_eq_some_iff.mp hk).1
  refine ⟨{ k with pc := .returned }, ?_, rfl⟩
  show (l.tasks.modify t _ ++ _)[t]? = _
  rw [List.getElem?_append_left (by simpa using hlt), List.getElem?_modify_eq, hk]
  rfl

theorem up_linkUp (htask : ∃ k, l.tasks[t]? = some k) (hconnected : l.transport.isConnected)
    (hrunning : l.reader.running) : (l.linkUp cfg now t .start).Up t where
  returned := returned_linkUp htask
  link := rfl
  transport := hconnected
  reader := hrunning
  supervisor := rfl

theorem Up.ended (h : l.Up t) : l.ended t := by
  obtain ⟨k, hk, hpc⟩ := h.returned
  simp [Lease.ended, hk, hpc, LinkPc.finished]

theorem Down.ended (h : l.Down t) : l.ended t := by
  obtain ⟨k, hk, hpc⟩ := h.raised
  simp [Lease.ended, hk, hpc, LinkPc.finished]

/-- A `start` whose `_connect` raises leaves the transport as it finds it. -/
theorem connectRaised_start (h : l.Starting t) (backoff : ℚ) :
    (l.release.connectRaised now t backoff .start).ended t ∧
      ((l.release.connectRaised now t backoff .start).AllOrNothing t ↔
        l.transport.isConnected = false) := by
  obtain ⟨k, hk, -, -, -⟩ := h.task
  have hraised : ((l.release.setLink .stopped).setPc t .raised).tasks[t]? =
      some { k with pc := .raised } := by
    show (l.tasks.modify t _)[t]? = _
    rw [List.getElem?_modify_eq, hk]
    rfl
  refine ⟨by simp [connectRaised, Lease.ended, hraised, LinkPc.finished], ?_, ?_⟩
  · rintro (hup | hdown)
    · have hlink : LinkState.stopped = .connected := hup.link
      simp at hlink
    · exact hdown.transport
  · intro hfree
    exact .inr {
      raised := ⟨_, hraised, rfl⟩
      link := rfl
      transport := hfree
      reader := h.reader
      supervisor := h.supervisor }

/-- `transport.connect` returned: a reader that polls runs, another subscribes. -/
theorem Starting.onConnected (h : l.Starting t) :
    (l.onConnected cfg now t .start).Starting t ∨ (l.onConnected cfg now t .start).Up t := by
  unfold Lease.onConnected
  dsimp only
  split
  · refine .inr (up_linkUp ?_ rfl rfl)
    obtain ⟨k, hk, -⟩ := h.task
    exact ⟨k, hk⟩
  · refine .inl (Starting.setPc ?_ (.inr rfl))
    exact ⟨h.task, h.alone, h.supervisor, h.reader⟩

/-- `transport.subscribe` returned: the reader runs, on whatever transport there
is. -/
theorem onSubscribed_start (htask : ∃ k, l.tasks[t]? = some k) :
    (l.onSubscribed cfg now t .start).ended t ∧
      ((l.onSubscribed cfg now t .start).AllOrNothing t ↔ l.mishap .subscribed = false) := by
  obtain ⟨k, hget, hpc⟩ : ∃ k, (l.onSubscribed cfg now t .start).tasks[t]? = some k ∧
      k.pc = .returned := returned_linkUp htask
  refine ⟨by simp [Lease.ended, hget, hpc, LinkPc.finished], ?_, ?_⟩
  · rintro (hup | hdown)
    · have hconnected : l.transport.isConnected := hup.transport
      simp [mishap, hconnected]
    · have hrunning : true = false := hdown.reader
      simp at hrunning
  · intro hfine
    have hconnected : l.transport.isConnected := by simpa [mishap] using hfine
    exact .inl (up_linkUp htask hconnected rfl)

/-- The adapter wakes those that back off, and no `start` does. -/
theorem Starting.powerOn (h : l.Starting t) : l.powerOn.Starting t where
  task := by
    obtain ⟨k, hk, hrole, hcancelled, hpc⟩ := h.task
    refine ⟨k, ?_, hrole, hcancelled, hpc⟩
    show (l.tasks.map _)[t]? = _
    rw [List.getElem?_map, hk]
    rcases hpc with hpc | hpc <;> simp [hpc]
  alone t' k hne hk := by
    have hget : (l.tasks.map _)[t']? = some k := hk
    rw [List.getElem?_map] at hget
    obtain ⟨k', hk', rfl⟩ := Option.map_eq_some_iff.mp hget
    have hfinished := h.alone t' k' hne hk'
    split
    · rename_i wait hpc
      simp [hpc, LinkPc.finished] at hfinished
    · exact hfinished
  supervisor := h.supervisor
  reader := h.reader

/-- One step of a `start` that runs alone: it goes on, or it ends, and then it
is all or nothing unless there was a mishap. -/
theorem Starting.taskStep (h : l.Starting t) {step : LinkStep}
    (hstep : l.taskStep cfg now t' step = some l') :
    t' = t ∧ (l'.Starting t ∧ l.mishap step = false ∨
      l'.ended t ∧ (l'.AllOrNothing t ↔ l.mishap step = false)) := by
  have hown : t' = t := by
    by_contra hne
    obtain ⟨k, hk, -⟩ := Option.bind_eq_some_iff.mp hstep
    simp [taskStep_finished hk (h.alone t' k hne hk)] at hstep
  subst hown
  refine ⟨rfl, ?_⟩
  obtain ⟨k, hk, hrole, hcancelled, hpc⟩ := h.task
  obtain ⟨k', hk', hcases⟩ := taskStep_cases hstep
  obtain rfl : k = k' := Option.some.inj (hk.symm.trans hk')
  rcases hcases with ⟨hcancelled', -⟩ | ⟨-, hresumes⟩
  · simp [hcancelled] at hcancelled'
  · cases hresumes with
    | connected =>
        rw [hrole]
        rcases h.onConnected with hstarting | hup
        · exact .inl ⟨hstarting, rfl⟩
        · exact .inr ⟨hup.ended, iff_of_true (.inl hup) rfl⟩
    | connectFailed =>
        rw [hrole]
        refine .inr ?_
        apply connectRaised_start
        exact ⟨h.task, h.alone, h.supervisor, h.reader⟩
    | subscribed =>
        rw [hrole]
        exact .inr (onSubscribed_start ⟨k, hk⟩)
    | subscribeFailed =>
        rw [hrole]
        exact .inr (connectRaised_start h _)
    | begun hplace | connects hplace | tears hplace | readerStopped hplace
    | unsubscribed hplace | disconnected hplace | slept hplace | backedOff step hplace
    | joined hplace => simp [hplace] at hpc

/-! ### The call -/

/-- Nothing is under way on the lease. -/
structure Idle (l : Lease) : Prop where
  tasks : ∀ (t : ℕ) (k : LinkTask), l.tasks[t]? = some k → k.pc.finished
  lock : l.lock.isFree
  supervisor : l.supervisor = none
  reader : l.reader.running = false

/-- Without a supervisor no `supervise` runs either. -/
theorem Resting.finished (h : l.Resting) (hlifecycle : l.slot.Lifecycle) {k : LinkTask}
    (hk : l.tasks[t]? = some k) : k.pc.finished := by
  by_cases hrole : k.role = .supervise
  · by_contra hruns
    have hplaced : k.party.Placed l.supervisor t :=
      hlifecycle.placed t k.party (by simp [slot, hk])
    have hphase : k.party.phase ≠ .finished := fun hphase => hruns (LinkPc.finished_iff.mpr hphase)
    have hsupervisor := hplaced.supervises hrole hphase
    simp [h.supervisor] at hsupervisor
  · exact h.calls k (List.mem_of_getElem? hk) hrole

theorem Resting.idle (h : l.Resting) (hsound : l.slot.Sound) (hqueue : l.InOrder) : l.Idle where
  tasks _ _ hk := h.finished hsound.lifecycle hk
  lock := by
    have hholder : l.lock.holder = none := by
      rw [Option.eq_none_iff_forall_ne_some]
      intro t ht
      obtain ⟨p, hp⟩ := Option.isSome_iff_exists.mp (hsound.exclusive.present t ht)
      obtain ⟨k, hk, rfl⟩ := Option.map_eq_some_iff.mp hp
      have hholds : k.pc.phase.holds := (hsound.exclusive.holder t _ hp).mpr ht
      rw [LinkPc.finished_iff.mp (h.finished hsound.lifecycle hk)] at hholds
      simp [Phase.holds] at hholds
    have hwaiters : l.lock.waiters = [] := by
      rw [List.eq_nil_iff_forall_not_mem]
      intro w hw
      obtain ⟨k, hk, hqueues⟩ := hqueue.waits w hw
      simp [LinkPc.queues_of_finished (h.finished hsound.lifecycle hk)] at hqueues
    simp [Lock.isFree, hholder, hwaiters]
  supervisor := h.supervisor
  reader := by
    have hcalm : l.slot.Calm := by
      intro t p hp hacts
      obtain ⟨k, hk, rfl⟩ := Option.map_eq_some_iff.mp hp
      have hphase := LinkPc.finished_iff.mp (h.finished hsound.lifecycle hk)
      simp [Party.acts, LinkTask.party, hphase] at hacts
    exact hsound.heard.asleep hcalm h.supervisor

/-- The lease with a `start` called on it that has just taken the lock. -/
def called (l : Lease) : Lease :=
  { (l.setLink .connecting).spawn .start .connectLock with lock := l.lock.take l.tasks.length }

theorem getElem?_called (l : Lease) :
    l.called.tasks[l.tasks.length]? = some { role := .start, pc := .connectLock } := by
  simp [called, spawn, setLink]

theorem Idle.start_eq (h : l.Idle) :
    l.start cfg now = some (l.called.connectLocked cfg now l.tasks.length .start) := by
  have hbusy : l.lifecycleBusy = false := by
    rw [lifecycleBusy, List.any_eq_false]
    intro k hk
    obtain ⟨t, ht⟩ := List.getElem?_of_mem hk
    have hfinished := h.tasks t k ht
    simp [hfinished]
  have hlock : ((l.setLink .connecting).spawn .start .connectLock).lock.isFree := h.lock
  have hbegin : ((l.setLink .connecting).spawn .start .connectLock).beginConnect cfg now
      l.tasks.length .start = l.called.connectLocked cfg now l.tasks.length .start := by
    rw [beginConnect, if_pos hlock]
    rfl
  simp [start, hbusy, h.supervisor, hbegin]

/-- A call while a deadline is set returns and has not connected. -/
theorem Idle.start_yielded (h : l.Idle) (hyield : l.yieldUntil ≠ none)
    (hstart : l.start cfg now = some l') :
    l'.ended l.tasks.length ∧ ¬l'.AllOrNothing l.tasks.length := by
  obtain ⟨deadline, hdeadline⟩ := Option.ne_none_iff_exists'.mp hyield
  have hdeclines : l.called.connectLocked cfg now l.tasks.length .start =
      l.called.release.connectReturned cfg now l.tasks.length .start := by
    have hset : l.called.yieldUntil = some deadline := hdeadline
    simp [connectLocked, hset]
  rw [h.start_eq, hdeclines] at hstart
  obtain rfl := Option.some.inj hstart
  have hget := l.getElem?_called
  have hlt := (List.getElem?_eq_some_iff.mp hget).1
  have hreturned : (l.called.release.connectReturned cfg now l.tasks.length .start).tasks[
      l.tasks.length]? = some { role := .start, pc := .returned } := by
    show (l.called.tasks.modify l.tasks.length _ ++ _)[l.tasks.length]? = _
    rw [List.getElem?_append_left (by simpa using hlt), List.getElem?_modify_eq, hget]
    rfl
  refine ⟨by simp [ended, hreturned, LinkPc.finished], ?_⟩
  rintro (hup | hdown)
  · have hlink : LinkState.connecting = .connected := hup.link
    simp at hlink
  · have hlink : LinkState.connecting = .stopped := hdown.link
    simp at hlink

/-- A call while none is set takes the lock. -/
theorem Idle.start_connecting (h : l.Idle) (hyield : l.yieldUntil = none)
    (hstart : l.start cfg now = some l') : l'.Starting l.tasks.length := by
  have hconnects : l.called.connectLocked cfg now l.tasks.length .start =
      l.called.setPc l.tasks.length .connecting := by
    have hset : l.called.yieldUntil = none := hyield
    simp [connectLocked, hset]
  rw [h.start_eq, hconnects] at hstart
  obtain rfl := Option.some.inj hstart
  have htasks : (l.called.setPc l.tasks.length .connecting).tasks =
      l.tasks ++ [{ role := .start, pc := .connecting }] := by
    show (l.tasks ++ [_]).modify l.tasks.length _ = _
    simp [List.modify_eq_set_getElem?]
  exact {
    task := by
      rw [htasks]
      exact ⟨{ role := .start, pc := .connecting }, by simp, rfl, rfl, .inl rfl⟩
    alone := by
      intro t k hne hk
      rw [htasks] at hk
      have hlt : t < l.tasks.length := by
        have hlength := (List.getElem?_eq_some_iff.mp hk).1
        simp only [List.length_append, List.length_singleton] at hlength
        omega
      rw [List.getElem?_append_left hlt] at hk
      exact h.tasks t k hk
    supervisor := h.supervisor
    reader := h.reader }

end Bedjet.Service.Lease

namespace Bedjet.Api

open Python Protocol Device Service Asyncio

namespace System

variable {cfg : Config} {s s' s₁ : System} {a : Action} {t : ℕ}

/-- The step fails and leaves the transport connected, or subscribes on one that
is not. -/
def mishap (s : System) : Action → Bool
  | .link _ step => s.lease.mishap step
  | _ => false

/-- Nobody else calls on the lease, and the `start` of task `t` is in progress. -/
def startsAlone (t : ℕ) (s : System) (a : Action) : Prop :=
  a.isLeaseCall = false ∧ s.lease.ended t = false

instance (t : ℕ) (s : System) (a : Action) : Decidable (s.startsAlone t a) :=
  inferInstanceAs (Decidable (_ ∧ _))

/-- What a step makes of a `start` that runs alone. -/
theorem starting_step (h : s.lease.Starting t) (hcall : a.isLeaseCall = false)
    (hstep : (machine cfg).step s a = some s') :
    s'.lease.Starting t ∧ s.mishap a = false ∨
      s'.lease.ended t ∧ (s'.lease.AllOrNothing t ↔ s.mishap a = false) := by
  have heffect := step_leaseEffect hstep
  generalize s'.lease = lease at heffect
  cases heffect with
  | start | stop | yieldLink | resume => simp [Action.isLeaseCall] at hcall
  | drop => exact .inl ⟨⟨h.task, h.alone, h.supervisor, h.reader⟩, rfl⟩
  | powerOn => exact .inl ⟨h.powerOn, rfl⟩
  | link hlink => exact (h.taskStep hlink).2
  | elsewhere hrunning _ hlink =>
      refine .inl ⟨⟨h.task, h.alone, h.supervisor, hrunning.trans h.reader⟩, ?_⟩
      cases a with
      | link t step => exact absurd rfl (hlink t step)
      | _ => rfl

/-- A `start` under way that runs alone to its end. -/
theorem allOrNothing_iff {actions : List Action} (h : s.lease.Starting t)
    (halone : (machine cfg).Meets (startsAlone t) s actions)
    (hrun : (machine cfg).run s actions = some s') (hended : s'.lease.ended t) :
    s'.lease.AllOrNothing t ↔ (machine cfg).Meets (fun s a => s.mishap a = false) s actions := by
  induction actions generalizing s with
  | nil =>
      obtain rfl : s = s' := by simpa using hrun
      simp [h.not_ended] at hended
  | cons a actions ih =>
      obtain ⟨s₁, hs₁, hrest⟩ := Machine.run_cons_eq_some.mp hrun
      have hmeets : (machine cfg).Meets (fun s a => s.mishap a = false) s (a :: actions) ↔
          s.mishap a = false ∧
            (machine cfg).Meets (fun s a => s.mishap a = false) s₁ actions := by
        simp [Machine.Meets, hs₁]
      rw [hmeets]
      rcases starting_step h halone.1.1 hs₁ with ⟨hstarting, hfine⟩ | ⟨hends, hiff⟩
      · rw [ih hstarting (halone.2 s₁ hs₁) hrest]
        simp [hfine]
      · -- the call has ended, so this was the last step
        cases actions with
        | nil =>
            obtain rfl : s₁ = s' := by simpa using hrest
            simpa [Machine.Meets] using hiff
        | cons b rest =>
            have hruns := (halone.2 s₁ hs₁).1.2
            simp [hends] at hruns

/-- A `start` on a session at rest that runs alone to its end is all or nothing
if and only if no deadline of a yield was set and there was no mishap on the way. -/
theorem start_is_all_or_nothing_iff (hreach : Reachable cfg s) (hrest : s.lease.Resting)
    (hstart : (machine cfg).step s .start = some s₁) {actions : List Action}
    (halone : (machine cfg).Meets (startsAlone s.lease.tasks.length) s₁ actions)
    (hrun : (machine cfg).run s₁ actions = some s')
    (hended : s'.lease.ended s.lease.tasks.length) :
    s'.lease.AllOrNothing s.lease.tasks.length ↔ s.lease.yieldUntil = none ∧
      (machine cfg).Meets (fun s a => s.mishap a = false) s₁ actions := by
  have hidle : s.lease.Idle := hrest.idle hreach.slot_sound hreach.inOrder
  obtain ⟨lease, hlease, rfl⟩ := Option.map_eq_some_iff.mp hstart
  by_cases hyield : s.lease.yieldUntil = none
  · have hstarting := hidle.start_connecting hyield hlease
    rw [allOrNothing_iff hstarting halone hrun hended]
    simp [hyield]
  · obtain ⟨hends, hneither⟩ := hidle.start_yielded hyield hlease
    cases actions with
    | nil =>
        obtain rfl : s.setLease lease = s' := by simpa using hrun
        exact iff_of_false hneither fun h => hyield h.1
    | cons a rest =>
        have hruns : lease.ended s.lease.tasks.length = false := halone.1.2
        simp [hends] at hruns

theorem start_is_all_or_nothing_iff_firstConnection :
    ∃ s₁ s', (machine {}).step {} .start = some s₁ ∧
      (machine {}).run s₁ [.link 0 .connected, .link 0 .subscribed] = some s' ∧
      s'.lease.AllOrNothing 0 := by
  have hany : ((machine {}).step {} .start).any fun s₁ =>
      decide ((machine {}).Meets (startsAlone 0) s₁ [.link 0 .connected, .link 0 .subscribed]) &&
        decide ((machine {}).Meets (fun s a => s.mishap a = false) s₁
          [.link 0 .connected, .link 0 .subscribed]) &&
        ((machine {}).run s₁ [.link 0 .connected, .link 0 .subscribed]).any (·.lease.ended 0) := by
    decide +kernel
  obtain ⟨s₁, hstart, hcheck⟩ := (Option.any_eq_true _ _).mp hany
  obtain ⟨hcheck, hruns⟩ := Bool.and_eq_true_iff.mp hcheck
  obtain ⟨halone, hfine⟩ := Bool.and_eq_true_iff.mp hcheck
  obtain ⟨s', hrun, hended⟩ := Machine.exists_of_run_any hruns
  have hreach : Reachable {} {} := ⟨[], rfl⟩
  have hrest : ({} : System).lease.Resting := ⟨rfl, by simp⟩
  refine ⟨s₁, s', hstart, hrun, ?_⟩
  exact (start_is_all_or_nothing_iff hreach hrest hstart (of_decide_eq_true halone) hrun
    hended).mpr ⟨rfl, of_decide_eq_true hfine⟩

/-- The subscription of a first connection fails. -/
theorem failed_start_can_keep_the_link :
    ¬∀ (cfg : Config) (s s₁ s' : System) (actions : List Action), Reachable cfg s →
      s.lease.Resting → (machine cfg).step s .start = some s₁ →
      (machine cfg).Meets (startsAlone s.lease.tasks.length) s₁ actions →
      (machine cfg).run s₁ actions = some s' → s'.lease.ended s.lease.tasks.length →
      s'.lease.AllOrNothing s.lease.tasks.length := by
  intro hall
  have hreach : Reachable {} {} := ⟨[], rfl⟩
  have hrest : ({} : System).lease.Resting := ⟨rfl, by simp⟩
  have hany : ((machine {}).step {} .start).any fun s₁ =>
      decide ((machine {}).Meets (startsAlone 0) s₁ [.link 0 .connected, .link 0 .subscribeFailed])
        && ((machine {}).run s₁ [.link 0 .connected, .link 0 .subscribeFailed]).any fun s' =>
          s'.lease.ended 0 && s'.lease.link = .stopped && s'.lease.transport.isConnected := by
    decide +kernel
  obtain ⟨s₁, hstart, hcheck⟩ := (Option.any_eq_true _ _).mp hany
  obtain ⟨halone, hcheck⟩ := Bool.and_eq_true_iff.mp hcheck
  obtain ⟨s', hrun, hcheck⟩ := Machine.exists_of_run_any hcheck
  simp only [Bool.and_eq_true, decide_eq_true_eq] at hcheck
  obtain ⟨⟨hended, hstopped⟩, hconnected⟩ := hcheck
  rcases hall {} {} s₁ s' _ hreach hrest hstart (of_decide_eq_true halone) hrun hended with
    hup | hdown
  · simpa [hstopped] using hup.link
  · simpa [hconnected] using hdown.transport

end System

end Bedjet.Api
