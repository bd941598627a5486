import Bedjet.Service.LinkTasks

/-!
A `yield_link` that has been called returns if it ends: nobody cancels it, and
it raises nothing.
-/

namespace Bedjet.Service

open Asyncio

/-- A `yield_link` that has not raised, and is not going to. -/
def LinkTask.yields (k : LinkTask) : Bool :=
  k.role = .yieldLink && !k.cancelled && k.pc ≠ .raised

/-- Task `t` is such a `yield_link`. -/
def Yields (t : ℕ) (tasks : List LinkTask) : Prop :=
  ∃ k, tasks[t]? = some k ∧ k.yields

theorem Yields.setTask {t : ℕ} {tasks : List LinkTask} (h : Yields t tasks)
    {f : LinkTask → LinkTask} (hf : ∀ k, k.yields → (f k).yields) :
    Yields t (tasks.modify t f) := by
  obtain ⟨k, hk, hyields⟩ := h
  refine ⟨f k, ?_, hf k hyields⟩
  rw [List.getElem?_modify_eq, hk]
  rfl

theorem Yields.ran {t t' : ℕ} {tasks tasks' : List LinkTask} (h : Yields t tasks) (hne : t ≠ t')
    (hran : Lease.Ran t' tasks' tasks) : Yields t tasks' := by
  obtain ⟨k, hk, hyields⟩ := h
  have hlt := (List.getElem?_eq_some_iff.mp hk).1
  exact ⟨k, (hran.others t hne hlt).trans hk, hyields⟩

theorem Yields.ne_length {t : ℕ} {tasks : List LinkTask} (h : Yields t tasks) :
    t ≠ tasks.length := by
  obtain ⟨k, hk, -⟩ := h
  exact (List.getElem?_eq_some_iff.mp hk).1.ne

namespace Lease

variable {cfg : Config} {now : ℚ} {l l' : Lease} {t : ℕ}

theorem yields_setPc (h : Yields t l.tasks) {pc : LinkPc} (hpc : pc ≠ .raised) :
    Yields t (l.setPc t pc).tasks := by
  apply h.setTask
  intro k hk
  simp only [LinkTask.yields, Bool.and_eq_true] at hk ⊢
  exact ⟨hk.1, by simpa using hpc⟩

theorem yields_setBackoff (h : Yields t l.tasks) (backoff : LinkTask → ℚ) :
    Yields t (l.setTask t fun k => { k with backoff := backoff k }).tasks :=
  h.setTask fun _ hk => hk

theorem yields_connectLocked (h : Yields t l.tasks) :
    Yields t (l.connectLocked cfg now t .yieldLink).tasks := by
  rw [connectLocked]
  split
  · exact h
  · exact yields_setPc h (by simp)

theorem yields_onConnected (h : Yields t l.tasks) :
    Yields t (l.onConnected cfg now t .yieldLink).tasks := by
  unfold onConnected
  dsimp only
  split
  · exact h
  · exact yields_setPc h (by simp)

theorem yields_teardownLocked (h : Yields t l.tasks) :
    Yields t (l.teardownLocked cfg t).tasks := by
  rw [teardownLocked]
  split
  · exact yields_setPc h (by simp)
  · dsimp only
    split
    · split
      · exact yields_setPc h (by simp)
      · exact yields_setPc h (by simp)
    · split
      · split
        · exact yields_setPc h (by simp)
        · exact yields_setPc h (by simp)
      · exact yields_setPc h (by simp)

theorem yields_beginTeardown (h : Yields t l.tasks) :
    Yields t (l.beginTeardown cfg t).tasks := by
  rw [beginTeardown]
  split
  · exact yields_teardownLocked h
  · exact yields_setPc h (by simp)

theorem yields_tick (h : Yields t l.tasks) : Yields t (l.tick cfg now t).tasks := by
  rw [tick]
  split
  · exact yields_setPc h (by simp)
  · dsimp only
    split
    · exact yields_setPc (yields_setBackoff h _) (by simp)
    · exact yields_beginTeardown h

theorem yields_backedOff (h : Yields t l.tasks) : Yields t (l.backedOff cfg now t).tasks :=
  yields_setPc (yields_setBackoff h _) (by simp)

theorem yields_onReaderStopped (h : Yields t l.tasks) :
    Yields t (l.onReaderStopped cfg t).tasks := by
  unfold onReaderStopped
  split
  · exact yields_setPc h (by simp)
  · exact yields_setPc h (by simp)

/-- Its own step is one of a `yield_link` that is not cancelled. -/
theorem resumes_of_yields {k : LinkTask} (hk : l.tasks[t]? = some k) (hyields : k.yields)
    {step : LinkStep} (hstep : l.taskStep cfg now t step = some l') :
    k.role = .yieldLink ∧ Resumes cfg now l t k step l' := by
  simp only [LinkTask.yields, Bool.and_eq_true, decide_eq_true_eq, Bool.not_eq_true'] at hyields
  obtain ⟨⟨hrole, hcancelled⟩, -⟩ := hyields
  obtain ⟨k', hk', hcases⟩ := taskStep_cases hstep
  obtain rfl : k = k' := Option.some.inj (hk.symm.trans hk')
  rcases hcases with ⟨hcancelled', -⟩ | ⟨-, hresumes⟩
  · simp [hcancelled] at hcancelled'
  · exact ⟨hrole, hresumes⟩

/-- Its own steps. -/
theorem yields_taskStep {k : LinkTask} (hk : l.tasks[t]? = some k) (hyields : k.yields)
    {step : LinkStep} (hstep : l.taskStep cfg now t step = some l') : Yields t l'.tasks := by
  have h : Yields t l.tasks := ⟨k, hk, hyields⟩
  obtain ⟨hrole, hresumes⟩ := resumes_of_yields hk hyields hstep
  cases hresumes with
  | begun => exact yields_setPc h (by simp)
  | connects =>
      rw [hrole]
      apply yields_connectLocked
      exact h
  | connected =>
      rw [hrole]
      exact yields_onConnected h
  | connectFailed | subscribed | subscribeFailed =>
      -- a `yield_link` never comes there
      rw [hrole]
      exact h
  | tears =>
      apply yields_teardownLocked
      exact h
  | readerStopped => exact yields_onReaderStopped h
  | unsubscribed => exact yields_setPc h (by simp)
  | disconnected =>
      rw [hrole]
      apply yields_setPc
      · exact h
      · simp
  | slept => exact yields_tick h
  | backedOff => exact yields_backedOff h
  | joined =>
      apply yields_beginTeardown
      exact h

/-- A `stop` cancels the supervisor, which is another. -/
theorem yields_stop (h : Yields t l.tasks) (hsupervisor : l.supervisor ≠ some t)
    (hstep : l.stop cfg = some l') : Yields t l'.tasks := by
  cases stops_of_stop hstep with
  | @cancels s _ hs =>
      have hne : s ≠ t := fun heq => hsupervisor (heq ▸ hs)
      obtain ⟨k, hk, hyields⟩ := h
      have hset : Yields t (l.setTask s fun k => { k with cancelled := !k.pc.finished }).tasks :=
        ⟨k, (List.getElem?_modify_ne _ l.tasks hne).trans hk, hyields⟩
      exact hset.ran hset.ne_length (ran_append _ _)
  | tearsDown => exact h.ran h.ne_length ((ran_beginTeardown _).trans (ran_append l.tasks _))

theorem yields_powerOn (h : Yields t l.tasks) : Yields t l.powerOn.tasks := by
  obtain ⟨k, hk, hyields⟩ := h
  show Yields t (l.tasks.map _)
  refine ⟨_, by rw [List.getElem?_map, hk]; rfl, ?_⟩
  dsimp only
  split
  · rename_i hpc
    simpa [LinkTask.yields, hpc] using hyields
  · exact hyields

/-- The task of a call that has just been made. -/
theorem yields_yieldLink {seconds : ℚ} (hpositive : 0 < seconds) :
    Yields l.tasks.length (l.yieldLink cfg now seconds).tasks := by
  rw [yieldLink, if_neg (not_le.mpr hpositive)]
  apply yields_beginTeardown
  exact ⟨{ role := .yieldLink, pc := .teardownLock }, by simp [spawn], rfl⟩

end Lease

end Bedjet.Service
