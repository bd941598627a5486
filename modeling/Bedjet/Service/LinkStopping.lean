import Bedjet.Service.ReaderEnding

/-!
A coroutine that stops the reader awaits a task that is ending, so it can go on.
-/

namespace Bedjet.Service

open Asyncio Device

namespace Lease

/-- Whoever is in the reader's `stop` awaits a task that is ending. -/
structure Stoppable (cfg : Config) (l : Lease) : Prop where
  owns : l.reader.Owns
  ends : ∀ k ∈ l.tasks, ∀ child, k.pc = .stoppingReader child → l.reader.Ends cfg child

variable {cfg : Config} {now : ℚ} {l l' : Lease} {t : ℕ}

theorem mem_setTask {f : LinkTask → LinkTask} {k' : LinkTask} (h : k' ∈ (l.setTask t f).tasks) :
    k' ∈ l.tasks ∨ ∃ k ∈ l.tasks, k' = f k := by
  obtain ⟨j, hj⟩ := List.mem_iff_getElem?.mp h
  rw [setTask, List.getElem?_modify] at hj
  obtain ⟨k, hk, hf⟩ := Option.map_eq_some_iff.mp hj
  have hmem := List.mem_of_getElem? hk
  split at hf
  · exact .inr ⟨k, hmem, hf.symm⟩
  · exact .inl (hf ▸ hmem)

theorem stoppable_initial : Stoppable cfg {} := ⟨by simp [Reader.Owns], by simp⟩

/-- The reader moves on, and the coroutines are where they were. -/
theorem Stoppable.reader (h : l.Stoppable cfg) {r : Reader} (hkeeps : r.Keeps l.reader) :
    Stoppable cfg { l with reader := r } :=
  ⟨hkeeps.owns h.owns, fun k hk child hpc => (h.ends k hk child hpc).keeps hkeeps⟩

theorem Stoppable.setTask (h : l.Stoppable cfg) {f : LinkTask → LinkTask}
    (hf : ∀ k child, (f k).pc = .stoppingReader child →
      k.pc = .stoppingReader child ∨ l.reader.Ends cfg child) :
    Stoppable cfg (l.setTask t f) := by
  refine ⟨h.owns, fun k' hk' child hpc => ?_⟩
  rcases mem_setTask hk' with hk' | ⟨k, hk, rfl⟩
  · exact h.ends k' hk' child hpc
  · rcases hf k child hpc with hpc | hends
    · exact h.ends k hk child hpc
    · exact hends

theorem Stoppable.setPc (h : l.Stoppable cfg) {pc : LinkPc}
    (hpc : ∀ child, pc = .stoppingReader child → l.reader.Ends cfg child) :
    Stoppable cfg (l.setPc t pc) :=
  h.setTask fun _ child hchild => .inr (hpc child hchild)

theorem Stoppable.spawn (h : l.Stoppable cfg) (k : LinkTask)
    (hpc : ∀ child, k.pc ≠ .stoppingReader child) :
    Stoppable cfg { l with tasks := l.tasks ++ [k] } := by
  refine ⟨h.owns, fun k' hk' child hchild => ?_⟩
  rcases List.mem_append.mp hk' with hk' | hk'
  · exact h.ends k' hk' child hchild
  · obtain rfl := List.mem_singleton.mp hk'
    exact absurd hchild (hpc child)

theorem Stoppable.setBackoff (h : l.Stoppable cfg) (backoff : LinkTask → ℚ) :
    Stoppable cfg (l.setTask t fun k => { k with backoff := backoff k }) :=
  h.setTask fun _ _ hpc => .inl hpc

theorem stoppable_connectReturned (h : l.Stoppable cfg) (role : Role) :
    (l.connectReturned cfg now t role).Stoppable cfg := by
  cases role with
  | start =>
      have hreturned : (l.setPc t .returned).Stoppable cfg := h.setPc (by simp)
      have hspawned := hreturned.spawn
        { role := .supervise, pc := .scheduled, backoff := cfg.backoffInitial } (by simp)
      exact ⟨hspawned.owns, hspawned.ends⟩
  | supervise => exact (h.setBackoff _).setPc (by simp)
  | yieldLink | stop => exact h

theorem stoppable_backedOff (h : l.Stoppable cfg) : (l.backedOff cfg now t).Stoppable cfg :=
  (h.setBackoff _).setPc (by simp)

theorem stoppable_connectRaised (h : l.Stoppable cfg) (backoff : ℚ) (role : Role) :
    (l.connectRaised now t backoff role).Stoppable cfg := by
  cases role with
  | start =>
      have hstopped : (l.setLink .stopped).Stoppable cfg := ⟨h.owns, h.ends⟩
      exact hstopped.setPc (by simp)
  | supervise => exact h.setPc (by simp)
  | yieldLink | stop => exact h

theorem stoppable_connectLocked (h : l.Stoppable cfg) (role : Role) :
    (l.connectLocked cfg now t role).Stoppable cfg := by
  rw [connectLocked]
  split
  · apply stoppable_connectReturned
    exact ⟨h.owns, h.ends⟩
  · exact h.setPc (by simp)

theorem stoppable_beginConnect (h : l.Stoppable cfg) (role : Role) :
    (l.beginConnect cfg now t role).Stoppable cfg := by
  rw [beginConnect]
  split
  · apply stoppable_connectLocked
    exact ⟨h.owns, h.ends⟩
  · apply Stoppable.setPc
    · exact ⟨h.owns, h.ends⟩
    · simp

theorem stoppable_linkUp (h : l.Stoppable cfg) (role : Role) :
    (l.linkUp cfg now t role).Stoppable cfg := by
  apply stoppable_connectReturned
  exact ⟨h.owns, h.ends⟩

theorem stoppable_onConnected (h : l.Stoppable cfg) (role : Role) :
    (l.onConnected cfg now t role).Stoppable cfg := by
  rw [onConnected]
  dsimp only
  split
  · apply stoppable_linkUp
    have hstarted := h.reader l.reader.keeps_startPolling
    exact ⟨hstarted.owns, hstarted.ends⟩
  · apply Stoppable.setPc
    · have hset := h.reader (r := { l.reader with loopSet := true }) (.of_eq rfl rfl rfl)
      exact ⟨hset.owns, hset.ends⟩
    · simp

theorem stoppable_onSubscribed (h : l.Stoppable cfg) (role : Role) :
    (l.onSubscribed cfg now t role).Stoppable cfg := by
  apply stoppable_linkUp
  have hrunning := h.reader (r := { l.reader with running := true }) (.of_eq rfl rfl rfl)
  exact ⟨hrunning.owns, hrunning.ends⟩

/-- A task whose cancellation has been asked for is ending. -/
theorem stoppable_teardownLocked (h : l.Stoppable cfg) :
    (l.teardownLocked cfg t).Stoppable cfg := by
  have hstopped (r : Reader) (hkeeps : r.Keeps { l.reader with running := false }) :
      Stoppable cfg { l with reader := r } :=
    h.reader (hkeeps.trans (.of_eq rfl rfl rfl))
  rw [teardownLocked]
  split
  · exact h.setPc (by simp)
  · dsimp only
    split
    · rename_i interval hinterval
      split
      · rename_i i hi
        have hlt : i < l.reader.pollTasks.length := h.owns i hi
        have hnone : Reader.Keeps { l.reader with running := false, pollTask := none }
            { l.reader with running := false } :=
          ⟨fun _ => by simp [Reader.Owns], .refl _ _, .refl _ _⟩
        apply (hstopped _ ((Reader.keeps_cancelPollTask _ i).trans hnone)).setPc
        intro child hchild
        obtain rfl : i = child := by simpa using hchild
        simp only [Reader.Ends, hinterval]
        refine ⟨{ l.reader.pollTasks[i] with cancelled := true }, ?_, rfl⟩
        simp [Reader.cancelPollTask, List.getElem?_modify_eq, List.getElem?_eq_getElem hlt]
      · exact (hstopped _ (.refl _)).setPc (by simp)
    · rename_i hinterval
      split
      · rename_i i hi
        split
        · apply Stoppable.setPc
          · exact hstopped _ (.of_eq rfl rfl rfl)
          · simp
        · rename_i hdone
          apply (hstopped _ (Reader.keeps_cancelCompletion _ i)).setPc
          intro child hchild
          obtain rfl : i = child := by simpa using hchild
          obtain ⟨c, hc⟩ : ∃ c, l.reader.completions[i]? = some c := by
            cases hget : l.reader.completions[i]? with
            | none => simp [Reader.completionDone, hget] at hdone
            | some c => exact ⟨c, rfl⟩
          simp only [Reader.Ends, hinterval]
          refine ⟨{ c with cancelled := true }, ?_, rfl⟩
          simp [Reader.cancelCompletion, List.getElem?_modify_eq, hc]
      · exact (hstopped _ (.refl _)).setPc (by simp)

theorem stoppable_beginTeardown (h : l.Stoppable cfg) :
    (l.beginTeardown cfg t).Stoppable cfg := by
  rw [beginTeardown]
  split
  · apply stoppable_teardownLocked
    exact ⟨h.owns, h.ends⟩
  · apply Stoppable.setPc
    · exact ⟨h.owns, h.ends⟩
    · simp

theorem stoppable_onReaderStopped (h : l.Stoppable cfg) :
    (l.onReaderStopped cfg t).Stoppable cfg := by
  rw [onReaderStopped]
  split
  · exact h.setPc (by simp)
  · apply Stoppable.setPc
    · exact h.reader (.of_eq rfl rfl rfl)
    · simp

theorem stoppable_teardownReturned (h : l.Stoppable cfg) (role : Role) :
    (l.teardownReturned cfg now t role).Stoppable cfg := by
  cases role with
  | supervise =>
      apply stoppable_beginConnect
      exact ⟨h.owns, h.ends⟩
  | yieldLink | stop =>
      apply Stoppable.setPc
      · exact ⟨h.owns, h.ends⟩
      · simp
  | start => exact h

theorem stoppable_onDisconnected (h : l.Stoppable cfg) (role : Role) :
    (l.onDisconnected cfg now t role).Stoppable cfg := by
  apply stoppable_teardownReturned
  exact ⟨h.owns, h.ends⟩

theorem stoppable_tick (h : l.Stoppable cfg) : (l.tick cfg now t).Stoppable cfg := by
  rw [tick]
  split
  · exact h.setPc (by simp)
  · dsimp only
    split
    · apply Stoppable.setPc
      · apply Stoppable.setBackoff
        exact ⟨h.owns, h.ends⟩
      · simp
    · apply stoppable_beginTeardown
      exact ⟨h.owns, h.ends⟩

theorem stoppable_cancelTask (h : l.Stoppable cfg) {pc : LinkPc}
    (hstep : l.cancelTask cfg t pc = some l') : l'.Stoppable cfg := by
  cases pc with
  | stoppingReader child =>
      obtain ⟨-, rfl⟩ : l.childDone cfg child ∧ _ = l' := by simpa [cancelTask] using hstep
      exact stoppable_onReaderStopped h
  | joining | returned | raised => simp [cancelTask] at hstep
  | _ =>
      obtain rfl : _ = l' := by simpa [cancelTask] using hstep
      apply Stoppable.setPc
      · exact ⟨h.owns, h.ends⟩
      · simp

theorem stoppable_taskStep (h : l.Stoppable cfg) {step : LinkStep}
    (hstep : l.taskStep cfg now t step = some l') : l'.Stoppable cfg := by
  obtain ⟨k, -, ⟨-, hcancel⟩ | ⟨-, hresumes⟩⟩ := taskStep_cases hstep
  · apply stoppable_cancelTask ?_ hcancel
    exact h.setTask fun _ _ hpc => .inl hpc
  · cases hresumes with
    | begun | unsubscribed => exact h.setPc (by simp)
    | connects =>
        apply stoppable_connectLocked
        exact ⟨h.owns, h.ends⟩
    | connected => exact stoppable_onConnected h _
    | connectFailed | subscribeFailed =>
        apply stoppable_connectRaised
        exact ⟨h.owns, h.ends⟩
    | subscribed => exact stoppable_onSubscribed h _
    | tears =>
        apply stoppable_teardownLocked
        exact ⟨h.owns, h.ends⟩
    | readerStopped => exact stoppable_onReaderStopped h
    | disconnected => exact stoppable_onDisconnected h _
    | slept => exact stoppable_tick h
    | backedOff => exact stoppable_backedOff h
    | joined =>
        apply stoppable_beginTeardown
        exact ⟨h.owns, h.ends⟩

theorem stoppable_start (h : l.Stoppable cfg) (hstep : l.start cfg now = some l') :
    l'.Stoppable cfg := by
  cases starts_of_start hstep with
  | already => exact h
  | connects =>
      apply stoppable_beginConnect
      have hlink : (l.setLink .connecting).Stoppable cfg := ⟨h.owns, h.ends⟩
      exact hlink.spawn _ (by simp)

theorem stoppable_stop (h : l.Stoppable cfg) (hstep : l.stop cfg = some l') :
    l'.Stoppable cfg := by
  cases stops_of_stop hstep with
  | @cancels s =>
      have hasked : (l.setTask s fun k => { k with cancelled := !k.pc.finished }).Stoppable cfg :=
        h.setTask fun _ _ hpc => .inl hpc
      exact hasked.spawn _ (by simp)
  | tearsDown => exact stoppable_beginTeardown (h.spawn _ (by simp))

theorem stoppable_yieldLink (h : l.Stoppable cfg) (seconds : ℚ) :
    (l.yieldLink cfg now seconds).Stoppable cfg := by
  rw [yieldLink]
  split
  · exact h
  · apply stoppable_beginTeardown
    have hspawned := h.spawn { role := .yieldLink, pc := .teardownLock } (by simp)
    exact ⟨hspawned.owns, hspawned.ends⟩

theorem stoppable_powerOn (h : l.Stoppable cfg) : l.powerOn.Stoppable cfg := by
  refine ⟨h.owns, fun k' hk' child hchild => ?_⟩
  obtain ⟨k, hk, rfl⟩ := List.mem_map.mp hk'
  apply h.ends k hk child
  cases hpc : k.pc <;> simp_all

end Lease

end Bedjet.Service
