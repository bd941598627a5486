import Bedjet.Service.Resuming

/-!
What the link coroutines are to each other. One that runs leaves every other
where it is suspended; those that wait in the queue of the link lock are
suspended there, each once.
-/

namespace Bedjet.Service

open Asyncio Device

/-- Whether a coroutine suspended there waits for the link lock. -/
def LinkPc.queues : LinkPc → Bool
  | .connectLock | .teardownLock => true
  | _ => false

theorem LinkPc.queues_of_finished {pc : LinkPc} (h : pc.finished) : pc.queues = false := by
  cases pc <;> simp_all [finished, queues]

/-- Whether a cancellation raised there is suppressed. -/
def LinkPc.swallows : LinkPc → Bool
  | .stoppingReader _ => true
  | _ => false

/-- Whether a task has ended, or will by a cancellation that was requested. -/
def LinkTask.doomed (k : LinkTask) : Bool :=
  k.pc.finished || (k.cancelled && !k.pc.swallows)

namespace Lease

/-! ### The others -/

/-- The tasks after task `t` ran: every other one is as it was. -/
structure Ran (t : ℕ) (tasks' tasks : List LinkTask) : Prop where
  grows : tasks.length ≤ tasks'.length
  others : ∀ j, j ≠ t → j < tasks.length → tasks'[j]? = tasks[j]?

section

variable {cfg : Config} {now : ℚ} {l l' : Lease} {t : ℕ} {tasks tasks' tasks'' : List LinkTask}

theorem Ran.refl (t : ℕ) (tasks : List LinkTask) : Ran t tasks tasks :=
  ⟨le_rfl, fun _ _ _ => rfl⟩

theorem Ran.trans (h' : Ran t tasks'' tasks') (h : Ran t tasks' tasks) : Ran t tasks'' tasks := by
  refine ⟨h.grows.trans h'.grows, ?_⟩
  intro j hne hlt
  rw [h'.others j hne (hlt.trans_le h.grows), h.others j hne hlt]

theorem ran_setTask (l : Lease) (f : LinkTask → LinkTask) :
    Ran t (l.setTask t f).tasks l.tasks := by
  refine ⟨by simp [setTask], ?_⟩
  intro j hne _
  exact List.getElem?_modify_ne f l.tasks (Ne.symm hne)

theorem ran_setPc (l : Lease) (pc : LinkPc) : Ran t (l.setPc t pc).tasks l.tasks :=
  ran_setTask l _

theorem ran_append (tasks : List LinkTask) (k : LinkTask) : Ran t (tasks ++ [k]) tasks := by
  refine ⟨by simp, ?_⟩
  intro j _ hlt
  exact List.getElem?_append_left hlt

/-- The tasks, and whether the adapter's power-on event is set. -/
def book (l : Lease) : List LinkTask × Bool :=
  (l.tasks, l.transport.adapterPowerOn)

/-- What comes of a book while task `t` runs: that task is rewritten, a
supervisor may be added, and the event may be cleared. -/
inductive Edits (cfg : Config) (t : ℕ) (b : List LinkTask × Bool) :
    List LinkTask × Bool → Prop
  | refl : Edits cfg t b b
  | set {tasks : List LinkTask} {power : Bool} {f : LinkTask → LinkTask}
      (hf : ∀ k, (f k).role = k.role) (h : Edits cfg t b (tasks, power)) :
      Edits cfg t b (tasks.modify t f, power)
  | hire {tasks : List LinkTask} {power : Bool} (h : Edits cfg t b (tasks, power)) :
      Edits cfg t b
        (tasks ++ [{ role := .supervise, pc := .scheduled, backoff := cfg.backoffInitial }], power)
  | clear {tasks : List LinkTask} {power : Bool} (h : Edits cfg t b (tasks, power)) :
      Edits cfg t b (tasks, false)

namespace Edits

variable {b b' : List LinkTask × Bool}

theorem ran (h : Edits cfg t b b') : Ran t b'.1 b.1 := by
  induction h with
  | refl => exact .refl t _
  | @set tasks power f _ _ ih =>
      have hset : Ran t (tasks.modify t f) tasks :=
        ran_setTask { transport := { adapterPowerOn := power }, tasks } f
      exact hset.trans ih
  | hire _ ih => exact (ran_append _ _).trans ih
  | clear _ ih => exact ih

/-- A task that is added is a supervisor that has not run. -/
theorem hired (h : Edits cfg t b b') (ht : t < b.1.length) {j : ℕ} (hj : b.1.length ≤ j)
    {k : LinkTask} (hk : b'.1[j]? = some k) :
    k = { role := .supervise, pc := .scheduled, backoff := cfg.backoffInitial } := by
  induction h generalizing k with
  | refl =>
      rw [List.getElem?_eq_none hj] at hk
      simp at hk
  | @set tasks power f _ _ ih =>
      have hk' : (tasks.modify t f)[j]? = some k := hk
      rw [List.getElem?_modify_ne f tasks (by omega)] at hk'
      exact ih hk'
  | @hire tasks power _ ih =>
      have hk' : (tasks ++ [_])[j]? = some k := hk
      by_cases hlt : j < tasks.length
      · rw [List.getElem?_append_left hlt] at hk'
        exact ih hk'
      · rw [List.getElem?_append_right (by omega), List.getElem?_singleton] at hk'
        split at hk'
        · exact (Option.some.inj hk').symm
        · simp at hk'
  | clear _ ih => exact ih hk

/-- The event is as it was, or clear. -/
theorem power (h : Edits cfg t b b') : b'.2 = b.2 ∨ b'.2 = false := by
  induction h with
  | refl => exact .inl rfl
  | set _ _ ih | hire _ ih => exact ih
  | clear _ _ => exact .inr rfl

/-- A task keeps its role. -/
theorem role (h : Edits cfg t b b') {j : ℕ} {k : LinkTask} (hk : b.1[j]? = some k) :
    ∃ k', b'.1[j]? = some k' ∧ k'.role = k.role := by
  induction h with
  | refl => exact ⟨k, hk, rfl⟩
  | @set tasks power f hf _ ih =>
      obtain ⟨k', hk', hrole⟩ := ih
      show ∃ k'', (tasks.modify t f)[j]? = some k'' ∧ k''.role = k.role
      rw [List.getElem?_modify, hk']
      refine ⟨_, rfl, ?_⟩
      split
      · exact (hf k').trans hrole
      · exact hrole
  | hire _ ih =>
      obtain ⟨k', hk', hrole⟩ := ih
      have hlt := (List.getElem?_eq_some_iff.mp hk').1
      exact ⟨k', (List.getElem?_append_left hlt).trans hk', hrole⟩
  | clear _ ih => exact ih

theorem setPc (h : Edits cfg t b l.book) (pc : LinkPc) : Edits cfg t b (l.setPc t pc).book :=
  h.set fun _ => rfl

theorem setBackoff (h : Edits cfg t b l.book) (backoff : LinkTask → ℚ) :
    Edits cfg t b (l.setTask t fun k => { k with backoff := backoff k }).book :=
  h.set fun _ => rfl

theorem connectReturned (h : Edits cfg t b l.book) (role : Role) :
    Edits cfg t b (l.connectReturned cfg now t role).book := by
  cases role with
  | start => exact (h.setPc .returned).hire
  | supervise => exact (h.setBackoff _).setPc _
  | yieldLink | stop => exact h

theorem backedOff (h : Edits cfg t b l.book) : Edits cfg t b (l.backedOff cfg now t).book :=
  (h.setBackoff _).setPc _

theorem connectRaised (h : Edits cfg t b l.book) (backoff : ℚ) (role : Role) :
    Edits cfg t b (l.connectRaised now t backoff role).book := by
  cases role with
  | start => exact Edits.setPc (l := l.setLink .stopped) h .raised
  | supervise => exact h.setPc _
  | yieldLink | stop => exact h

theorem connectLocked (h : Edits cfg t b l.book) (role : Role) :
    Edits cfg t b (l.connectLocked cfg now t role).book := by
  rw [Lease.connectLocked]
  split
  · exact Edits.connectReturned (l := l.release) h role
  · exact h.setPc _

theorem beginConnect (h : Edits cfg t b l.book) (role : Role) :
    Edits cfg t b (l.beginConnect cfg now t role).book := by
  rw [Lease.beginConnect]
  split
  · exact Edits.connectLocked (l := { l with lock := l.lock.take t }) h role
  · exact Edits.setPc (l := { l with lock := l.lock.enqueue t }) h _

theorem onConnected (h : Edits cfg t b l.book) (role : Role) :
    Edits cfg t b (l.onConnected cfg now t role).book := by
  rw [Lease.onConnected]
  dsimp only
  split
  · apply Edits.connectReturned
    exact h
  · apply Edits.setPc
    exact h

theorem onSubscribed (h : Edits cfg t b l.book) (role : Role) :
    Edits cfg t b (l.onSubscribed cfg now t role).book := by
  apply Edits.connectReturned
  exact h

theorem teardownLocked (h : Edits cfg t b l.book) :
    Edits cfg t b (l.teardownLocked cfg t).book := by
  rw [Lease.teardownLocked]
  split
  · exact h.setPc _
  · dsimp only
    split
    · split
      · apply Edits.setPc
        exact h
      · apply Edits.setPc
        exact h
    · split
      · split
        · apply Edits.setPc
          exact h
        · apply Edits.setPc
          exact h
      · apply Edits.setPc
        exact h

theorem beginTeardown (h : Edits cfg t b l.book) :
    Edits cfg t b (l.beginTeardown cfg t).book := by
  rw [Lease.beginTeardown]
  split
  · exact Edits.teardownLocked (l := { l with lock := l.lock.take t }) h
  · exact Edits.setPc (l := { l with lock := l.lock.enqueue t }) h _

theorem onReaderStopped (h : Edits cfg t b l.book) :
    Edits cfg t b (l.onReaderStopped cfg t).book := by
  rw [Lease.onReaderStopped]
  split
  · exact h.setPc _
  · apply Edits.setPc
    exact h

theorem teardownReturned (h : Edits cfg t b l.book) (role : Role) :
    Edits cfg t b (l.teardownReturned cfg now t role).book := by
  cases role with
  | supervise =>
      apply Edits.beginConnect
      exact h.clear
  | yieldLink => exact Edits.setPc (l := l.setLink .yielded) h _
  | stop => exact Edits.setPc (l := l.setLink .stopped) h _
  | start => exact h

theorem tick (h : Edits cfg t b l.book) : Edits cfg t b (l.tick cfg now t).book := by
  rw [Lease.tick]
  split
  · exact h.setPc _
  · dsimp only
    split
    · exact (h.setBackoff _).setPc _
    · apply Edits.beginTeardown
      exact h

theorem cancelTask (h : Edits cfg t b l.book) {pc : LinkPc}
    (hcancel : l.cancelTask cfg t pc = some l') : Edits cfg t b l'.book := by
  cases pc with
  | stoppingReader child =>
      obtain ⟨-, rfl⟩ : l.childDone cfg child ∧ _ = l' := by simpa [Lease.cancelTask] using hcancel
      exact h.onReaderStopped
  | joining | returned | raised => simp [Lease.cancelTask] at hcancel
  | connectLock | teardownLock =>
      obtain rfl : _ = l' := by simpa [Lease.cancelTask] using hcancel
      exact h.set fun _ => rfl
  | _ =>
      obtain rfl : _ = l' := by simpa [Lease.cancelTask] using hcancel
      exact h.set fun _ => rfl

/-- What a coroutine that runs does to the others and to the event. -/
theorem taskStep {step : LinkStep} (h : l.taskStep cfg now t step = some l') :
    Edits cfg t l.book l'.book := by
  have hrefl : Edits cfg t l.book l.book := .refl
  obtain ⟨k, -, ⟨-, hcancel⟩ | ⟨-, hresumes⟩⟩ := taskStep_cases h
  · have hset : Edits cfg t l.book (l.setTask t fun k => { k with cancelled := false }).book :=
      hrefl.set fun _ => rfl
    exact hset.cancelTask hcancel
  · cases hresumes with
    | begun | unsubscribed => exact hrefl.setPc _
    | connects => exact Edits.connectLocked (l := { l with lock := l.lock.grant t }) hrefl _
    | connected => exact hrefl.onConnected _
    | connectFailed | subscribeFailed =>
        apply Edits.connectRaised
        exact hrefl
    | subscribed => exact hrefl.onSubscribed _
    | tears => exact Edits.teardownLocked (l := { l with lock := l.lock.grant t }) hrefl
    | readerStopped => exact hrefl.onReaderStopped
    | disconnected =>
        apply Edits.teardownReturned
        exact hrefl
    | slept => exact hrefl.tick
    | backedOff => exact hrefl.backedOff
    | joined =>
        apply Edits.beginTeardown
        exact hrefl

end Edits

theorem ran_connectReturned (l : Lease) (role : Role) :
    Ran t (l.connectReturned cfg now t role).tasks l.tasks := by
  have hrefl : Edits cfg t l.book l.book := .refl
  exact (hrefl.connectReturned role).ran

theorem ran_connectRaised (l : Lease) (backoff : ℚ) (role : Role) :
    Ran t (l.connectRaised now t backoff role).tasks l.tasks := by
  have hrefl : Edits {} t l.book l.book := .refl
  exact (hrefl.connectRaised backoff role).ran

theorem ran_beginConnect (l : Lease) (role : Role) :
    Ran t (l.beginConnect cfg now t role).tasks l.tasks := by
  have hrefl : Edits cfg t l.book l.book := .refl
  exact (hrefl.beginConnect role).ran

theorem ran_teardownLocked (l : Lease) : Ran t (l.teardownLocked cfg t).tasks l.tasks := by
  have hrefl : Edits cfg t l.book l.book := .refl
  exact hrefl.teardownLocked.ran

theorem ran_beginTeardown (l : Lease) : Ran t (l.beginTeardown cfg t).tasks l.tasks := by
  have hrefl : Edits cfg t l.book l.book := .refl
  exact hrefl.beginTeardown.ran

/-- A coroutine that runs leaves the others where they are. -/
theorem ran_taskStep {step : LinkStep} (h : l.taskStep cfg now t step = some l') :
    Ran t l'.tasks l.tasks :=
  (Edits.taskStep h).ran

end

/-! ### The queue of the lock -/

/-- Those in the queue are suspended there, each once. -/
structure Queued (waiters : List ℕ) (tasks : List LinkTask) : Prop where
  nodup : waiters.Nodup
  waits : ∀ w ∈ waiters, ∃ k, tasks[w]? = some k ∧ k.pc.queues

/-- The same while task `t` runs. -/
structure QueuedBut (t : ℕ) (waiters : List ℕ) (tasks : List LinkTask) : Prop where
  nodup : waiters.Nodup
  waits : ∀ w ∈ waiters, w ≠ t ∧ ∃ k, tasks[w]? = some k ∧ k.pc.queues

theorem queued_nil (tasks : List LinkTask) : Queued [] tasks := ⟨List.nodup_nil, by simp⟩

section

variable {t : ℕ} {waiters : List ℕ} {tasks tasks' : List LinkTask}

theorem QueuedBut.queued (h : QueuedBut t waiters tasks) : Queued waiters tasks :=
  ⟨h.nodup, fun w hw => (h.waits w hw).2⟩

/-- A task that was suspended elsewhere runs. -/
theorem Queued.runs (h : Queued waiters tasks) {k : LinkTask} (hk : tasks[t]? = some k)
    (hpc : k.pc.queues = false) : QueuedBut t waiters tasks := by
  refine ⟨h.nodup, ?_⟩
  intro w hw
  refine ⟨?_, h.waits w hw⟩
  rintro rfl
  obtain ⟨k', hk', hqueues⟩ := h.waits w hw
  obtain rfl : k = k' := by simpa [hk] using hk'
  simp [hpc] at hqueues

theorem Queued.granted (h : Queued waiters tasks) (hhead : waiters.head? = some t) :
    QueuedBut t waiters.tail tasks := by
  obtain ⟨rest, rfl⟩ := List.head?_eq_some_iff.mp hhead
  obtain ⟨hnot, hnodup⟩ := List.nodup_cons.mp h.nodup
  refine ⟨hnodup, ?_⟩
  intro w hw
  refine ⟨?_, h.waits w (List.mem_cons_of_mem t hw)⟩
  rintro rfl
  exact hnot hw

theorem Queued.left (h : Queued waiters tasks) : QueuedBut t (waiters.erase t) tasks := by
  refine ⟨h.nodup.erase t, ?_⟩
  intro w hw
  obtain ⟨hne, hmem⟩ := h.nodup.mem_erase_iff.mp hw
  exact ⟨hne, h.waits w hmem⟩

/-- The tasks are suspended where they were, as far as the queue goes. -/
theorem Queued.of_pcs (h : Queued waiters tasks)
    (hpcs : ∀ (w : ℕ) (k : LinkTask), tasks[w]? = some k →
      ∃ k', tasks'[w]? = some k' ∧ k'.pc.queues = k.pc.queues) : Queued waiters tasks' := by
  refine ⟨h.nodup, ?_⟩
  intro w hw
  obtain ⟨k, hk, hqueues⟩ := h.waits w hw
  obtain ⟨k', hk', hsame⟩ := hpcs w k hk
  exact ⟨k', hk', hsame.trans hqueues⟩

theorem QueuedBut.ran (h : QueuedBut t waiters tasks) (hran : Ran t tasks' tasks) :
    QueuedBut t waiters tasks' := by
  refine ⟨h.nodup, ?_⟩
  intro w hw
  obtain ⟨hne, k, hk, hqueues⟩ := h.waits w hw
  have hlt := (List.getElem?_eq_some_iff.mp hk).1
  exact ⟨hne, k, (hran.others w hne hlt).trans hk, hqueues⟩

/-- The task that runs joins the queue. -/
theorem QueuedBut.enqueue (h : QueuedBut t waiters tasks) (ht : t < tasks.length) {pc : LinkPc}
    (hpc : pc.queues) :
    Queued (waiters ++ [t]) (tasks.modify t fun k => { k with pc }) := by
  refine ⟨?_, ?_⟩
  · rw [List.nodup_append]
    refine ⟨h.nodup, by simp, ?_⟩
    intro w hw w' hw'
    obtain rfl := List.mem_singleton.mp hw'
    exact (h.waits w hw).1
  · intro w hw
    rcases List.mem_append.mp hw with hw | hw
    · obtain ⟨hne, k, hk, hqueues⟩ := h.waits w hw
      exact ⟨k, (List.getElem?_modify_ne _ tasks hne.symm).trans hk, hqueues⟩
    · obtain rfl := List.mem_singleton.mp hw
      refine ⟨{ tasks[w] with pc }, ?_, hpc⟩
      rw [List.getElem?_modify_eq, List.getElem?_eq_getElem ht]
      rfl

end

section

variable (cfg : Config) (now : ℚ) {l l' : Lease} {t : ℕ}

/-- Whether the queue of the lock is in order. -/
abbrev InOrder (l : Lease) : Prop := Queued l.lock.waiters l.tasks

/-- Whether it is while task `t` runs. -/
abbrev InOrderBut (t : ℕ) (l : Lease) : Prop := QueuedBut t l.lock.waiters l.tasks

@[simp] theorem lock_connectReturned (l : Lease) (role : Role) :
    (l.connectReturned cfg now t role).lock = l.lock := by
  cases role <;> rfl

@[simp] theorem lock_connectRaised (l : Lease) (backoff : ℚ) (role : Role) :
    (l.connectRaised now t backoff role).lock = l.lock := by
  cases role <;> rfl

theorem inOrder_setPc (h : InOrderBut t l) (pc : LinkPc) : InOrder (l.setPc t pc) :=
  (h.ran (ran_setPc l pc)).queued

theorem inOrder_connectReturned (h : InOrderBut t l) (role : Role) :
    InOrder (l.connectReturned cfg now t role) := by
  rw [InOrder, lock_connectReturned]
  exact (h.ran (ran_connectReturned l role)).queued

theorem inOrder_connectRaised (h : InOrderBut t l) (backoff : ℚ) (role : Role) :
    InOrder (l.connectRaised now t backoff role) := by
  rw [InOrder, lock_connectRaised]
  exact (h.ran (ran_connectRaised l backoff role)).queued

theorem inOrder_connectLocked (h : InOrderBut t l) (role : Role) :
    InOrder (l.connectLocked cfg now t role) := by
  rw [connectLocked]
  split
  · exact inOrder_connectReturned cfg now (show InOrderBut t l.release from h) role
  · exact inOrder_setPc h .connecting

theorem inOrder_beginConnect (h : InOrderBut t l) (ht : t < l.tasks.length) (role : Role) :
    InOrder (l.beginConnect cfg now t role) := by
  rw [beginConnect]
  split
  · exact inOrder_connectLocked cfg now
      (show InOrderBut t { l with lock := l.lock.take t } from h) role
  · exact h.enqueue ht rfl

theorem inOrder_onConnected (h : InOrderBut t l) (role : Role) :
    InOrder (l.onConnected cfg now t role) := by
  rw [onConnected]
  dsimp only
  split
  · apply inOrder_connectReturned
    exact h
  · exact inOrder_setPc h .subscribing

theorem waiters_teardownLocked (l : Lease) :
    (l.teardownLocked cfg t).lock.waiters = l.lock.waiters := by
  rw [teardownLocked]
  split
  · rfl
  · dsimp only
    split
    · split <;> rfl
    · split
      · split <;> rfl
      · rfl

theorem inOrder_teardownLocked (h : InOrderBut t l) : InOrder (l.teardownLocked cfg t) := by
  rw [InOrder, waiters_teardownLocked]
  exact (h.ran (ran_teardownLocked l)).queued

theorem inOrder_beginTeardown (h : InOrderBut t l) (ht : t < l.tasks.length) :
    InOrder (l.beginTeardown cfg t) := by
  rw [beginTeardown]
  split
  · exact inOrder_teardownLocked cfg (show InOrderBut t { l with lock := l.lock.take t } from h)
  · exact h.enqueue ht rfl

theorem inOrder_onReaderStopped (h : InOrderBut t l) : InOrder (l.onReaderStopped cfg t) := by
  rw [onReaderStopped]
  split
  · exact inOrder_setPc h .disconnecting
  · exact inOrder_setPc h .unsubscribing

theorem inOrder_teardownReturned (h : InOrderBut t l) (ht : t < l.tasks.length) (role : Role) :
    InOrder (l.teardownReturned cfg now t role) := by
  cases role with
  | supervise =>
      apply inOrder_beginConnect
      · exact h
      · exact ht
  | yieldLink | stop => exact inOrder_setPc h .returned
  | start => exact h.queued

theorem inOrder_tick (h : InOrderBut t l) (ht : t < l.tasks.length) :
    InOrder (l.tick cfg now t) := by
  rw [tick]
  split
  · exact inOrder_setPc h _
  · dsimp only
    split
    · exact ((h.ran (ran_setTask l _)).ran (ran_setPc _ _)).queued
    · exact inOrder_beginTeardown cfg h ht

theorem inOrder_setCancelled (h : InOrder l) (t : ℕ) (f : LinkTask → Bool) :
    InOrder (l.setTask t fun k => { k with cancelled := f k }) := by
  apply h.of_pcs
  intro w k hk
  show ∃ k', (l.tasks.modify t _)[w]? = some k' ∧ _
  rw [List.getElem?_modify, hk]
  refine ⟨_, rfl, ?_⟩
  split <;> rfl

variable {cfg now}

theorem inOrder_cancelTask (h : InOrder l) {k : LinkTask} (hk : l.tasks[t]? = some k)
    (hstep : l.cancelTask cfg t k.pc = some l') : InOrder l' := by
  have hruns (hpc : k.pc.queues = false) : InOrderBut t l := h.runs hk hpc
  cases hcase : k.pc with
  | stoppingReader child =>
      rw [hcase] at hruns hstep
      obtain ⟨-, rfl⟩ : l.childDone cfg child ∧ _ = l' := by simpa [cancelTask] using hstep
      exact inOrder_onReaderStopped cfg (hruns rfl)
  | joining | returned | raised =>
      rw [hcase] at hstep
      simp [cancelTask] at hstep
  | connectLock | teardownLock =>
      rw [hcase] at hstep
      obtain rfl : _ = l' := by simpa [cancelTask] using hstep
      have hleft : InOrderBut t { l with lock := l.lock.leave t } := h.left
      exact inOrder_setPc hleft .raised
  | _ =>
      rw [hcase] at hruns hstep
      obtain rfl : _ = l' := by simpa [cancelTask] using hstep
      exact inOrder_setPc (hruns rfl) .raised

/-- A coroutine that runs keeps the queue in order. -/
theorem inOrder_taskStep (h : InOrder l) {step : LinkStep}
    (hstep : l.taskStep cfg now t step = some l') : InOrder l' := by
  obtain ⟨k, hk, ⟨-, hcancel⟩ | ⟨-, hresumes⟩⟩ := taskStep_cases hstep
  · let l₁ : Lease := l.setTask t fun k => { k with cancelled := false }
    have hk₁ : l₁.tasks[t]? = some { k with cancelled := false } := by
      show (l.tasks.modify t _)[t]? = _
      rw [List.getElem?_modify_eq, hk]
      rfl
    have h₁ : InOrder l₁ := inOrder_setCancelled h t _
    exact inOrder_cancelTask h₁ hk₁ hcancel
  · have ht : t < l.tasks.length := (List.getElem?_eq_some_iff.mp hk).1
    have hruns {pc : LinkPc} (hpc : k.pc = pc) (hqueues : pc.queues = false) : InOrderBut t l :=
      h.runs hk (hpc ▸ hqueues)
    have hgranted (hgrants : l.lock.grants t) :
        InOrderBut t { l with lock := l.lock.grant t } := by
      simp only [Lock.grants, decide_eq_true_eq] at hgrants
      exact h.granted hgrants.2
    cases hresumes with
    | connects hpc hgrants => exact inOrder_connectLocked cfg now (hgranted hgrants) _
    | tears hpc hgrants => exact inOrder_teardownLocked cfg (hgranted hgrants)
    | begun hpc | unsubscribed hpc => exact inOrder_setPc (hruns hpc rfl) _
    | connected hpc => exact inOrder_onConnected cfg now (hruns hpc rfl) _
    | connectFailed hpc | subscribeFailed hpc =>
        apply inOrder_connectRaised
        exact hruns hpc rfl
    | subscribed hpc =>
        apply inOrder_connectReturned
        exact hruns hpc rfl
    | readerStopped hpc => exact inOrder_onReaderStopped cfg (hruns hpc rfl)
    | disconnected hpc =>
        apply inOrder_teardownReturned
        · exact hruns hpc rfl
        · exact ht
    | slept hpc => exact inOrder_tick cfg now (hruns hpc rfl) ht
    | backedOff step hpc =>
        exact (((hruns hpc rfl).ran (ran_setTask l _)).ran (ran_setPc _ _)).queued
    | joined hpc => exact inOrder_beginTeardown cfg (hruns hpc rfl) ht

/-- A coroutine that is called finds itself at the end of the tasks. -/
theorem inOrderBut_spawn (h : InOrder l) (role : Role) (pc : LinkPc) :
    InOrderBut l.tasks.length (l.spawn role pc) := by
  refine ⟨h.nodup, ?_⟩
  intro w hw
  obtain ⟨k, hk, hqueues⟩ := h.waits w hw
  have hlt := (List.getElem?_eq_some_iff.mp hk).1
  exact ⟨hlt.ne, k, (List.getElem?_append_left hlt).trans hk, hqueues⟩

theorem length_spawn (l : Lease) (role : Role) (pc : LinkPc) :
    l.tasks.length < (l.spawn role pc).tasks.length := by
  simp [spawn]

theorem inOrder_start (h : InOrder l) (hstep : l.start cfg now = some l') : InOrder l' := by
  cases starts_of_start hstep with
  | already => exact h
  | connects =>
      exact inOrder_beginConnect cfg now (inOrderBut_spawn (l := l.setLink .connecting) h _ _)
        (length_spawn _ _ _) .start

theorem inOrder_stop (h : InOrder l) (hstep : l.stop cfg = some l') : InOrder l' := by
  cases stops_of_stop hstep with
  | cancels => exact (inOrderBut_spawn (inOrder_setCancelled h _ _) _ _).queued
  | tearsDown => exact inOrder_beginTeardown cfg (inOrderBut_spawn h _ _) (length_spawn _ _ _)

theorem inOrder_yieldLink (h : InOrder l) (seconds : ℚ) :
    InOrder (l.yieldLink cfg now seconds) := by
  rw [yieldLink]
  split
  · exact h
  · apply inOrder_beginTeardown
    · exact inOrderBut_spawn (l := { l with yieldUntil := _, yieldedBy := _ }) h _ _
    · exact length_spawn _ _ _

theorem inOrder_powerOn (h : InOrder l) : InOrder l.powerOn := by
  apply h.of_pcs
  intro w k hk
  show ∃ k', (l.tasks.map _)[w]? = some k' ∧ _
  rw [List.getElem?_map, hk]
  refine ⟨_, rfl, ?_⟩
  dsimp only
  split
  · rename_i hpc
    rw [hpc]
    rfl
  · rfl

end

/-! ### Cancellation -/

section

variable {cfg : Config} {now : ℚ} {l l' : Lease} {t : ℕ}

/-- Task `t` is doomed. -/
def Doomed (t : ℕ) (tasks : List LinkTask) : Prop :=
  ∃ k, tasks[t]? = some k ∧ k.doomed

theorem getElem?_setPc {k : LinkTask} (hk : l.tasks[t]? = some k) (pc : LinkPc) :
    (l.setPc t pc).tasks[t]? = some { k with pc } := by
  show (l.tasks.modify t _)[t]? = _
  rw [List.getElem?_modify_eq, hk]
  rfl

/-- A cancellation that is not suppressed ends the task. -/
theorem raised_of_cancelTask {k : LinkTask} (hk : l.tasks[t]? = some k) {pc : LinkPc}
    (hpc : pc.swallows = false) (h : l.cancelTask cfg t pc = some l') :
    l'.link = l.link ∧ ∃ k', l'.tasks[t]? = some k' ∧ k'.pc = .raised := by
  have hset (l₁ : Lease) (hl₁ : l₁.tasks = l.tasks) :
      ∃ k', (l₁.setPc t .raised).tasks[t]? = some k' ∧ k'.pc = .raised :=
    ⟨_, getElem?_setPc (hl₁ ▸ hk) .raised, rfl⟩
  cases pc with
  | stoppingReader child => simp [LinkPc.swallows] at hpc
  | joining | returned | raised => simp [cancelTask] at h
  | _ =>
      obtain rfl : _ = l' := by simpa [cancelTask] using h
      exact ⟨rfl, hset _ rfl⟩

/-- One that the reader's `stop` suppresses does not. -/
theorem suppressed_of_cancelTask {k : LinkTask} (hk : l.tasks[t]? = some k) {child : ℕ}
    (h : l.cancelTask cfg t (.stoppingReader child) = some l') :
    ∃ k', l'.tasks[t]? = some k' ∧ k'.pc ≠ .raised := by
  obtain ⟨-, rfl⟩ : l.childDone cfg child ∧ l.onReaderStopped cfg t = l' := by
    simpa [cancelTask] using h
  rw [onReaderStopped]
  split
  · exact ⟨_, getElem?_setPc hk .disconnecting, by simp⟩
  · refine ⟨_, getElem?_setPc (k := k) ?_ .unsubscribing, by simp⟩
    exact hk

/-- The only thing a doomed task can do is to raise. -/
theorem taskStep_doomed {k : LinkTask} (hk : l.tasks[t]? = some k) (hdoomed : k.doomed)
    {step : LinkStep} (h : l.taskStep cfg now t step = some l') :
    l'.link = l.link ∧ ∃ k', l'.tasks[t]? = some k' ∧ k'.pc = .raised := by
  obtain ⟨k', hk', hcases⟩ := taskStep_cases h
  obtain rfl : k = k' := Option.some.inj (hk.symm.trans hk')
  rcases hcases with ⟨-, hcancel⟩ | ⟨hcancelled, hresumes⟩
  · have hset : (l.setTask t fun k => { k with cancelled := false }).tasks[t]? =
        some { k with cancelled := false } := by
      show (l.tasks.modify t _)[t]? = _
      rw [List.getElem?_modify_eq, hk]
      rfl
    by_cases hswallows : k.pc.swallows
    · have hpc : k.pc.finished = false := by
        cases hpc : k.pc <;> simp_all [LinkPc.swallows, LinkPc.finished]
      simp [LinkTask.doomed, hswallows, hpc] at hdoomed
    · have hraised := raised_of_cancelTask hset (by simpa using hswallows) hcancel
      exact hraised
  · -- a task that has ended does not run
    have hfinished : k.pc.finished := by simpa [LinkTask.doomed, hcancelled] using hdoomed
    cases hresumes <;> simp_all [LinkPc.finished]

/-- What others do leaves a doomed task doomed. -/
theorem Doomed.ran {tasks tasks' : List LinkTask} (h : Doomed t tasks) {t' : ℕ} (hne : t ≠ t')
    (hran : Ran t' tasks' tasks) : Doomed t tasks' := by
  obtain ⟨k, hk, hdoomed⟩ := h
  have hlt := (List.getElem?_eq_some_iff.mp hk).1
  exact ⟨k, (hran.others t hne hlt).trans hk, hdoomed⟩

theorem Doomed.ne_length (h : Doomed t l.tasks) : t ≠ l.tasks.length := by
  obtain ⟨k, hk, -⟩ := h
  exact (List.getElem?_eq_some_iff.mp hk).1.ne

theorem ran_start (h : l.start cfg now = some l') : Ran l.tasks.length l'.tasks l.tasks := by
  cases starts_of_start h with
  | already => exact .refl _ _
  | connects => exact (ran_beginConnect _ _).trans (ran_append l.tasks _)

theorem ran_yieldLink (l : Lease) (seconds : ℚ) :
    Ran l.tasks.length (l.yieldLink cfg now seconds).tasks l.tasks := by
  rw [yieldLink]
  split
  · exact .refl _ _
  · exact (ran_beginTeardown _).trans (ran_append l.tasks _)

theorem Doomed.setCancelled (h : Doomed t l.tasks) (s : ℕ) :
    Doomed t (l.setTask s fun k => { k with cancelled := !k.pc.finished }).tasks := by
  obtain ⟨k, hk, hdoomed⟩ := h
  show Doomed t (l.tasks.modify s _)
  by_cases hts : s = t
  · subst hts
    refine ⟨{ k with cancelled := !k.pc.finished }, ?_, ?_⟩
    · rw [List.getElem?_modify_eq, hk]
      rfl
    · cases hfinished : k.pc.finished <;> simp_all [LinkTask.doomed]
  · exact ⟨k, (List.getElem?_modify_ne _ l.tasks hts).trans hk, hdoomed⟩

theorem Doomed.stop (h : Doomed t l.tasks) (hstep : l.stop cfg = some l') : Doomed t l'.tasks := by
  cases stops_of_stop hstep with
  | @cancels s =>
      have hset := h.setCancelled s
      exact hset.ran hset.ne_length (ran_append _ _)
  | tearsDown => exact h.ran h.ne_length ((ran_beginTeardown _).trans (ran_append l.tasks _))

theorem Doomed.powerOn (h : Doomed t l.tasks) : Doomed t l.powerOn.tasks := by
  obtain ⟨k, hk, hdoomed⟩ := h
  show Doomed t (l.tasks.map _)
  refine ⟨_, by rw [List.getElem?_map, hk]; rfl, ?_⟩
  dsimp only
  split
  · rename_i hpc
    simpa [LinkTask.doomed, hpc, LinkPc.finished, LinkPc.swallows] using hdoomed
  · exact hdoomed

/-- `stop` dooms the supervisor, unless it swallows the cancellation. -/
theorem doomed_of_stop {k : LinkTask} (hsupervisor : l.supervisor = some t)
    (hk : l.tasks[t]? = some k) (hpc : k.pc.swallows = false) (h : l.stop cfg = some l') :
    Doomed t l'.tasks := by
  cases stops_of_stop h with
  | @cancels s _ hs =>
      obtain rfl : t = s := Option.some.inj (hsupervisor.symm.trans hs)
      have hset : Doomed t (l.setTask t fun k => { k with cancelled := !k.pc.finished }).tasks := by
        refine ⟨{ k with cancelled := !k.pc.finished }, ?_, ?_⟩
        · show (l.tasks.modify t _)[t]? = _
          rw [List.getElem?_modify_eq, hk]
          rfl
        · cases hfinished : k.pc.finished <;> simp [LinkTask.doomed, hfinished, hpc]
      exact hset.ran hset.ne_length (ran_append _ _)
  | tearsDown _ hnone => simp [hsupervisor] at hnone

end

end Lease

end Bedjet.Service
