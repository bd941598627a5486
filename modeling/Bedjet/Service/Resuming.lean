import Bedjet.Service.Session

/-!
What a link coroutine does when it runs, one case for each place at which it can
be suspended.
-/

namespace Bedjet.Service.Lease

open Asyncio

/-- What task `t`, which is `k` and not cancelled, does up to its next
suspension. -/
inductive Resumes (cfg : Config) (now : ℚ) (l : Lease) (t : ℕ) (k : LinkTask) :
    LinkStep → Lease → Prop
  | begun (hpc : k.pc = .scheduled) : Resumes cfg now l t k .begun (l.sleep cfg now t)
  | connects (hpc : k.pc = .connectLock) (hgrants : l.lock.grants t) :
      Resumes cfg now l t k .granted
        ({ l with lock := l.lock.grant t }.connectLocked cfg now t k.role)
  | connected (hpc : k.pc = .connecting) :
      Resumes cfg now l t k .connected (l.onConnected cfg now t k.role)
  | connectFailed (hpc : k.pc = .connecting) (connected : Bool) :
      Resumes cfg now l t k (.connectFailed connected)
        ({ l with transport :=
            { l.transport with isConnected := connected } }.release.connectRaised now t
          k.backoff k.role)
  | subscribed (hpc : k.pc = .subscribing) :
      Resumes cfg now l t k .subscribed (l.onSubscribed cfg now t k.role)
  | subscribeFailed (hpc : k.pc = .subscribing) :
      Resumes cfg now l t k .subscribeFailed
        (l.release.connectRaised now t k.backoff k.role)
  | tears (hpc : k.pc = .teardownLock) (hgrants : l.lock.grants t) :
      Resumes cfg now l t k .granted ({ l with lock := l.lock.grant t }.teardownLocked cfg t)
  | readerStopped {child : ℕ} (hpc : k.pc = .stoppingReader child)
      (hdone : l.childDone cfg child) :
      Resumes cfg now l t k .readerStopped (l.onReaderStopped cfg t)
  | unsubscribed (hpc : k.pc = .unsubscribing) :
      Resumes cfg now l t k .unsubscribed (l.setPc t .disconnecting)
  | disconnected (hpc : k.pc = .disconnecting) :
      Resumes cfg now l t k .disconnected (l.onDisconnected cfg now t k.role)
  | slept {due : ℚ} (hpc : k.pc = .sleeping due) (hdue : due ≤ now) :
      Resumes cfg now l t k .slept (l.tick cfg now t)
  | backedOff {wait : Wait} (step : LinkStep) (hpc : k.pc = .backingOff wait)
      (hwhy : step = .backoffElapsed ∧ wait.due ≤ now ∨ step = .backoffWoken ∧ wait.woken) :
      Resumes cfg now l t k step (l.backedOff cfg now t)
  | joined {supervisor : ℕ} (hpc : k.pc = .joining supervisor)
      (hended : (l.tasks[supervisor]?).all (·.pc.finished)) :
      Resumes cfg now l t k .joined ({ l with supervisor := none }.beginTeardown cfg t)

variable {cfg : Config} {now : ℚ} {l l' : Lease} {t : ℕ} {step : LinkStep}

/-- A cancellation that was requested is raised, or it is one of these. -/
theorem taskStep_cases (h : l.taskStep cfg now t step = some l') :
    ∃ k, l.tasks[t]? = some k ∧
      (k.cancelled ∧ (l.setTask t fun k => { k with cancelled := false }).cancelTask cfg t k.pc =
          some l' ∨
        k.cancelled = false ∧ Resumes cfg now l t k step l') := by
  obtain ⟨k, hk, hbody⟩ := Option.bind_eq_some_iff.mp h
  refine ⟨k, hk, ?_⟩
  split at hbody
  · rename_i hcancelled
    split at hbody
    · exact .inl ⟨hcancelled, hbody⟩
    · simp at hbody
  · rename_i hcancelled
    refine .inr ⟨by simpa using hcancelled, ?_⟩
    split at hbody
    case h_1 hpc =>
      obtain rfl := Option.some.inj hbody
      exact .begun hpc
    case h_2 hpc =>
      obtain ⟨hgrants, hl'⟩ := Option.ite_none_right_eq_some.mp hbody
      obtain rfl := Option.some.inj hl'
      exact .connects hpc hgrants
    case h_3 hpc =>
      obtain rfl := Option.some.inj hbody
      exact .connected hpc
    case h_4 connected hpc =>
      obtain rfl := Option.some.inj hbody
      exact .connectFailed hpc connected
    case h_5 hpc =>
      obtain rfl := Option.some.inj hbody
      exact .subscribed hpc
    case h_6 hpc =>
      obtain rfl := Option.some.inj hbody
      exact .subscribeFailed hpc
    case h_7 hpc =>
      obtain ⟨hgrants, hl'⟩ := Option.ite_none_right_eq_some.mp hbody
      obtain rfl := Option.some.inj hl'
      exact .tears hpc hgrants
    case h_8 child hpc =>
      obtain ⟨hdone, hl'⟩ := Option.ite_none_right_eq_some.mp hbody
      obtain rfl := Option.some.inj hl'
      exact .readerStopped hpc hdone
    case h_9 hpc =>
      obtain rfl := Option.some.inj hbody
      exact .unsubscribed hpc
    case h_10 hpc =>
      obtain rfl := Option.some.inj hbody
      exact .disconnected hpc
    case h_11 due hpc =>
      obtain ⟨hdue, hl'⟩ := Option.ite_none_right_eq_some.mp hbody
      obtain rfl := Option.some.inj hl'
      exact .slept hpc hdue
    case h_12 wait hpc =>
      obtain ⟨hdue, hl'⟩ := Option.ite_none_right_eq_some.mp hbody
      obtain rfl := Option.some.inj hl'
      exact .backedOff _ hpc (.inl ⟨rfl, hdue⟩)
    case h_13 wait hpc =>
      obtain ⟨hwoken, hl'⟩ := Option.ite_none_right_eq_some.mp hbody
      obtain rfl := Option.some.inj hl'
      exact .backedOff _ hpc (.inr ⟨rfl, hwoken⟩)
    case h_14 supervisor hpc =>
      obtain ⟨hended, hl'⟩ := Option.ite_none_right_eq_some.mp hbody
      obtain rfl := Option.some.inj hl'
      exact .joined hpc hended
    case h_15 => simp at hbody

/-- What a call of `start` does up to its first suspension. -/
inductive Starts (cfg : Config) (now : ℚ) (l : Lease) : Lease → Prop
  /-- it raises -/
  | already : Starts cfg now l l
  | connects (hbusy : ¬l.lifecycleBusy) (hsupervisor : l.supervisor = none) :
      Starts cfg now l (((l.setLink .connecting).spawn .start .connectLock).beginConnect cfg now
        l.tasks.length .start)

/-- What a call of `stop` does up to its first suspension. -/
inductive Stops (cfg : Config) (l : Lease) : Lease → Prop
  | cancels {s : ℕ} (hbusy : ¬l.lifecycleBusy) (hsupervisor : l.supervisor = some s) :
      Stops cfg l ((l.setTask s fun k => { k with cancelled := !k.pc.finished }).spawn .stop
        (.joining s))
  | tearsDown (hbusy : ¬l.lifecycleBusy) (hsupervisor : l.supervisor = none) :
      Stops cfg l ((l.spawn .stop .teardownLock).beginTeardown cfg l.tasks.length)

theorem starts_of_start {cfg : Config} {now : ℚ} {l l' : Lease} (h : l.start cfg now = some l') :
    Starts cfg now l l' := by
  rw [start] at h
  split at h
  · simp at h
  · rename_i hbusy
    split at h
    · obtain rfl := Option.some.inj h
      exact .already
    · rename_i hsupervises
      obtain rfl := Option.some.inj h
      exact .connects hbusy (by simpa using hsupervises)

theorem stops_of_stop {cfg : Config} {l l' : Lease} (h : l.stop cfg = some l') :
    Stops cfg l l' := by
  rw [stop] at h
  split at h
  · simp at h
  · rename_i hbusy
    split at h
    · rename_i s hsupervisor
      obtain rfl := Option.some.inj h
      exact .cancels hbusy hsupervisor
    · rename_i hsupervisor
      obtain rfl := Option.some.inj h
      exact .tearsDown hbusy hsupervisor

end Bedjet.Service.Lease
