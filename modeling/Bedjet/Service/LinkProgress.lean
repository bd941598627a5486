import Bedjet.Service.LeaseSlot
import Bedjet.Service.LinkStopping
import Bedjet.Service.LinkYield

/-!
How a `yield_link` gets on. Whoever has the lock it waits for can give it back,
whatever the transport answers; then the one at the head of the queue goes on,
and the queue before the yield gets shorter.
-/

namespace Bedjet.Service

open Asyncio Device

namespace Lease

variable {cfg : Config} {now : ℚ} {l l' : Lease} {t w : ℕ} {pc : LinkPc}

/-! ### Nobody else takes a task out of the queue -/

theorem waiters_connectLocked (role : Role) :
    (l.connectLocked cfg now t role).lock.waiters = l.lock.waiters := by
  rw [connectLocked]
  split
  · rw [lock_connectReturned]
    rfl
  · rfl

theorem lock_beginConnect {role : Role} (hbusy : l.lock.isFree = false) :
    (l.beginConnect cfg now t role).lock = l.lock.enqueue t := by
  rw [beginConnect, hbusy]
  rfl

theorem mem_waiters_beginConnect (hw : w ∈ l.lock.waiters) (role : Role) :
    w ∈ (l.beginConnect cfg now t role).lock.waiters := by
  rw [beginConnect]
  split
  · rw [waiters_connectLocked]
    exact hw
  · exact List.mem_append_left [t] hw

theorem mem_waiters_beginTeardown (hw : w ∈ l.lock.waiters) :
    w ∈ (l.beginTeardown cfg t).lock.waiters := by
  rw [beginTeardown]
  split
  · rw [waiters_teardownLocked]
    exact hw
  · exact List.mem_append_left [t] hw

theorem lock_onReaderStopped : (l.onReaderStopped cfg t).lock = l.lock := by
  rw [onReaderStopped]
  split <;> rfl

theorem mem_waiters_onConnected (hw : w ∈ l.lock.waiters) (role : Role) :
    w ∈ (l.onConnected cfg now t role).lock.waiters := by
  rw [onConnected]
  dsimp only
  split
  · rw [linkUp, lock_connectReturned]
    exact hw
  · exact hw

theorem mem_waiters_teardownReturned (hw : w ∈ l.lock.waiters) (role : Role) :
    w ∈ (l.teardownReturned cfg now t role).lock.waiters := by
  cases role with
  | supervise =>
      apply mem_waiters_beginConnect
      exact hw
  | _ => exact hw

theorem mem_waiters_tick (hw : w ∈ l.lock.waiters) : w ∈ (l.tick cfg now t).lock.waiters := by
  rw [tick]
  split
  · exact hw
  · dsimp only
    split
    · exact hw
    · exact mem_waiters_beginTeardown hw

theorem mem_waiters_cancelTask (hne : w ≠ t) (hw : w ∈ l.lock.waiters) {pc : LinkPc}
    (hstep : l.cancelTask cfg t pc = some l') : w ∈ l'.lock.waiters := by
  cases pc with
  | stoppingReader child =>
      obtain ⟨-, rfl⟩ : l.childDone cfg child ∧ _ = l' := by simpa [cancelTask] using hstep
      rw [lock_onReaderStopped]
      exact hw
  | joining | returned | raised => simp [cancelTask] at hstep
  | connectLock | teardownLock =>
      obtain rfl : _ = l' := by simpa [cancelTask] using hstep
      exact (List.mem_erase_of_ne hne).mpr hw
  | _ =>
      obtain rfl : _ = l' := by simpa [cancelTask] using hstep
      exact hw

theorem mem_waiters_grant (hne : w ≠ t) (hw : w ∈ l.lock.waiters) (hgrants : l.lock.grants t) :
    w ∈ (l.lock.grant t).waiters := by
  simp only [Lock.grants, decide_eq_true_eq] at hgrants
  obtain ⟨rest, hwaiters⟩ := List.head?_eq_some_iff.mp hgrants.2
  simpa [Lock.grant, hwaiters, hne] using hw

/-- A coroutine that runs leaves the others in the queue. -/
theorem mem_waiters_taskStep (hne : w ≠ t) (hw : w ∈ l.lock.waiters) {step : LinkStep}
    (hstep : l.taskStep cfg now t step = some l') : w ∈ l'.lock.waiters := by
  obtain ⟨k, -, ⟨-, hcancel⟩ | ⟨-, hresumes⟩⟩ := taskStep_cases hstep
  · apply mem_waiters_cancelTask hne ?_ hcancel
    exact hw
  · cases hresumes with
    | begun | unsubscribed | backedOff => exact hw
    | connects hpc hgrants =>
        rw [waiters_connectLocked]
        exact mem_waiters_grant hne hw hgrants
    | connected => exact mem_waiters_onConnected hw _
    | connectFailed | subscribeFailed =>
        rw [lock_connectRaised]
        exact hw
    | subscribed =>
        rw [onSubscribed, linkUp, lock_connectReturned]
        exact hw
    | tears hpc hgrants =>
        rw [waiters_teardownLocked]
        exact mem_waiters_grant hne hw hgrants
    | readerStopped =>
        rw [lock_onReaderStopped]
        exact hw
    | disconnected =>
        apply mem_waiters_teardownReturned
        exact hw
    | slept => exact mem_waiters_tick hw
    | joined =>
        apply mem_waiters_beginTeardown
        exact hw

/-! ### A yield that waits for the lock is in the queue -/

/-- Task `t` is in the queue of the lock if it waits for it. -/
def Queues (t : ℕ) (l : Lease) : Prop :=
  ∀ k, l.tasks[t]? = some k → k.pc.queues → t ∈ l.lock.waiters

theorem queues_of_ran (h : Queues t l) (hyields : Yields t l.tasks) (hne : t ≠ w)
    (hran : Ran w l'.tasks l.tasks) (hwaiters : t ∈ l.lock.waiters → t ∈ l'.lock.waiters) :
    Queues t l' := by
  intro k' hk' hqueues
  obtain ⟨k, hk, -⟩ := hyields
  have hlt := (List.getElem?_eq_some_iff.mp hk).1
  rw [hran.others t hne hlt] at hk'
  exact hwaiters (h k' hk' hqueues)

/-- A task that is suspended where it was, as far as the queue goes. -/
theorem queues_of_pc {f : LinkTask → LinkTask} (h : Queues t l)
    (hf : ∀ k, (f k).pc.queues → k.pc.queues) (htask : l'.tasks[t]? = l.tasks[t]?.map f)
    (hwaiters : t ∈ l.lock.waiters → t ∈ l'.lock.waiters) : Queues t l' := by
  intro k' hk' hqueues
  rw [htask] at hk'
  obtain ⟨k, hk, rfl⟩ := Option.map_eq_some_iff.mp hk'
  exact hwaiters (h k hk (hf k hqueues))

theorem queues_setPc (hpc : pc.queues → t ∈ l.lock.waiters) : Queues t (l.setPc t pc) := by
  intro k hk hqueues
  rw [setPc, setTask, List.getElem?_modify_eq] at hk
  obtain ⟨k', -, rfl⟩ := Option.map_eq_some_iff.mp hk
  exact hpc hqueues

theorem queues_teardownLocked : Queues t (l.teardownLocked cfg t) := by
  rw [teardownLocked]
  split
  · exact queues_setPc (by simp [LinkPc.queues])
  · dsimp only
    split
    · split
      · exact queues_setPc (by simp [LinkPc.queues])
      · exact queues_setPc (by simp [LinkPc.queues])
    · split
      · split
        · exact queues_setPc (by simp [LinkPc.queues])
        · exact queues_setPc (by simp [LinkPc.queues])
      · exact queues_setPc (by simp [LinkPc.queues])

theorem queues_beginTeardown : Queues t (l.beginTeardown cfg t) := by
  rw [beginTeardown]
  split
  · exact queues_teardownLocked
  · apply queues_setPc
    intro _
    exact List.mem_append_right _ (List.mem_singleton_self t)

theorem queues_onReaderStopped : Queues t (l.onReaderStopped cfg t) := by
  rw [onReaderStopped]
  split
  · exact queues_setPc (by simp [LinkPc.queues])
  · exact queues_setPc (by simp [LinkPc.queues])

/-- The places of a `yield_link`. -/
theorem pc_of_fits {k : LinkTask} (hyields : k.yields) (hfits : k.pc.phase.fits k.role) :
    k.pc = .teardownLock ∨ (∃ child, k.pc = .stoppingReader child) ∨ k.pc = .unsubscribing ∨
      k.pc = .disconnecting ∨ k.pc = .returned := by
  simp only [LinkTask.yields, Bool.and_eq_true, decide_eq_true_eq] at hyields
  obtain ⟨⟨hrole, -⟩, hraised⟩ := hyields
  rw [hrole] at hfits
  cases hpc : k.pc <;> simp_all [LinkPc.phase, Phase.fits, Role.connects]

/-- Its own steps. -/
theorem queues_taskStep {k : LinkTask} (hk : l.tasks[t]? = some k) (hyields : k.yields)
    (hfits : k.pc.phase.fits k.role) {step : LinkStep}
    (hstep : l.taskStep cfg now t step = some l') : Queues t l' := by
  have hplace := pc_of_fits hyields hfits
  obtain ⟨hrole, hresumes⟩ := resumes_of_yields hk hyields hstep
  cases hresumes with
  | tears => exact queues_teardownLocked
  | readerStopped => exact queues_onReaderStopped
  | unsubscribed => exact queues_setPc (by simp [LinkPc.queues])
  | disconnected =>
      rw [hrole]
      apply queues_setPc
      simp [LinkPc.queues]
  | begun hpc | connects hpc | connected hpc | connectFailed hpc | subscribed hpc
  | subscribeFailed hpc | slept hpc | backedOff step hpc | joined hpc => simp [hpc] at hplace

/-- A `yield_link` that is called joins the queue, or takes the lock. -/
theorem queues_yieldLink {seconds : ℚ} (hpositive : 0 < seconds) :
    Queues l.tasks.length (l.yieldLink cfg now seconds) := by
  rw [yieldLink, if_neg (not_le.mpr hpositive)]
  exact queues_beginTeardown

theorem mem_waiters_yieldLink (hw : w ∈ l.lock.waiters) (seconds : ℚ) :
    w ∈ (l.yieldLink cfg now seconds).lock.waiters := by
  rw [yieldLink]
  split
  · exact hw
  · apply mem_waiters_beginTeardown
    exact hw

theorem mem_waiters_start (hw : w ∈ l.lock.waiters) (hstep : l.start cfg now = some l') :
    w ∈ l'.lock.waiters := by
  cases starts_of_start hstep with
  | already => exact hw
  | connects =>
      apply mem_waiters_beginConnect
      exact hw

theorem mem_waiters_stop (hw : w ∈ l.lock.waiters) (hstep : l.stop cfg = some l') :
    w ∈ l'.lock.waiters := by
  cases stops_of_stop hstep with
  | cancels => exact hw
  | tearsDown =>
      apply mem_waiters_beginTeardown
      exact hw

theorem queues_stop (h : Queues t l) (hyields : Yields t l.tasks) (hstep : l.stop cfg = some l') :
    Queues t l' := by
  have hmem (hw : t ∈ l.lock.waiters) : t ∈ l'.lock.waiters := mem_waiters_stop hw hstep
  have hlt : t < l.tasks.length := by
    obtain ⟨k, hk, -⟩ := hyields
    exact (List.getElem?_eq_some_iff.mp hk).1
  cases stops_of_stop hstep with
  | @cancels s =>
      let f (k : LinkTask) : LinkTask := { k with cancelled := !k.pc.finished }
      have htask : (l.tasks.modify s f ++ [{ role := .stop, pc := .joining s }])[t]? =
          l.tasks[t]?.map fun k => if s = t then f k else k := by
        rw [List.getElem?_append_left (by simpa using hlt), List.getElem?_modify]
        rfl
      apply queues_of_pc h ?_ htask hmem
      intro k hqueues
      split at hqueues <;> exact hqueues
  | tearsDown =>
      exact queues_of_ran h hyields hyields.ne_length
        ((ran_beginTeardown _).trans (ran_append l.tasks _)) hmem

theorem queues_powerOn (h : Queues t l) : Queues t l.powerOn := by
  have htask : l.powerOn.tasks[t]? = l.tasks[t]?.map _ := List.getElem?_map ..
  refine queues_of_pc h (fun k hqueues => ?_) htask fun hw => hw
  cases hpc : k.pc <;> simp_all [LinkPc.queues]

/-! ### The steps that lead on -/

/-- How many steps a coroutine that has the lock is from giving it back. -/
def hold (cfg : Config) (l : Lease) : LinkPc → ℕ
  | .stoppingReader child => if l.childDone cfg child then 3 else 4
  | .unsubscribing => 2
  | .connecting | .subscribing | .disconnecting => 1
  | _ => 0

/-- What is left until task `t` has had the lock: whoever has it gives it back,
and those before it in the queue have their turn. -/
def toGo (cfg : Config) (t : ℕ) (l : Lease) : ℕ :=
  5 * l.lock.place t +
    match l.lock.holder.bind (l.tasks[·]?) with
    | some k => l.hold cfg k.pc
    | none => 0

theorem hold_le (pc : LinkPc) : l.hold cfg pc ≤ 4 := by
  unfold hold
  split
  · split <;> omega
  all_goals omega

theorem toGo_le : l.toGo cfg t ≤ 5 * l.lock.place t + 4 := by
  unfold toGo
  split
  · rename_i k _
    have hbound : l.hold cfg k.pc ≤ 4 := hold_le k.pc
    omega
  · omega

theorem toGo_of_holder {k : LinkTask} (hholder : l.lock.holder = some w)
    (hk : l.tasks[w]? = some k) :
    l.toGo cfg t = 5 * l.lock.place t + l.hold cfg k.pc := by
  simp [toGo, hholder, hk]

theorem toGo_of_free (hholder : l.lock.holder = none) :
    l.toGo cfg t = 5 * l.lock.place t := by
  simp [toGo, hholder]

theorem toGo_of_released {k : LinkTask} (hholder : l.lock.holder = some w)
    (hk : l.tasks[w]? = some k) (hholds : 0 < l.hold cfg k.pc) (hfree : l'.lock.holder = none)
    (hplace : l'.lock.place t = l.lock.place t) : l'.toGo cfg t < l.toGo cfg t := by
  rw [toGo_of_free hfree, toGo_of_holder hholder hk, hplace]
  omega

/-- A connect that fails gives the lock up. -/
theorem toGo_connectRaised {k : LinkTask} {l₁ : Lease} (hholder : l.lock.holder = some w)
    (hk : l.tasks[w]? = some k) (hholds : 0 < l.hold cfg k.pc) (hlock : l₁.lock = l.lock)
    (backoff : ℚ) (role : Role) :
    (l₁.release.connectRaised now w backoff role).toGo cfg t < l.toGo cfg t := by
  apply toGo_of_released hholder hk hholds
  · rw [lock_connectRaised]
    rfl
  · rw [lock_connectRaised, release, hlock]
    rfl

theorem toGo_setPc {k : LinkTask} (hholder : l.lock.holder = some w) (hk : l.tasks[w]? = some k)
    (hlock : l'.lock = l.lock) (htasks : l'.tasks = l.tasks)
    (hless : l'.hold cfg pc < l.hold cfg k.pc) : (l'.setPc w pc).toGo cfg t < l.toGo cfg t := by
  have hk' : (l'.setPc w pc).tasks[w]? = some { k with pc } := by
    rw [setPc, setTask, htasks, List.getElem?_modify_eq, hk]
    rfl
  have hholder' : (l'.setPc w pc).lock.holder = some w := (congrArg Lock.holder hlock).trans hholder
  rw [toGo_of_holder hholder' hk', toGo_of_holder hholder hk]
  have hplace : (l'.setPc w pc).lock.place t = l.lock.place t := congrArg (Lock.place · t) hlock
  rw [hplace]
  exact Nat.add_lt_add_left hless _

/-- The reader has stopped: what remains is to let go of the transport. -/
theorem toGo_onReaderStopped {k : LinkTask} {child : ℕ} (hholder : l.lock.holder = some w)
    (hk : l.tasks[w]? = some k) (hpc : k.pc = .stoppingReader child)
    (hdone : l.childDone cfg child) : (l.onReaderStopped cfg w).toGo cfg t < l.toGo cfg t := by
  rw [onReaderStopped]
  split
  · apply toGo_setPc hholder hk
    · rfl
    · rfl
    · simp [hold, hpc, hdone]
  · apply toGo_setPc hholder hk
    · rfl
    · rfl
    · simp [hold, hpc, hdone]

/-- A cancelled coroutine that has the lock gives it back when it runs, or goes
on with its teardown. -/
theorem release_cancelled {k : LinkTask} (hholder : l.lock.holder = some w)
    (hk : l.tasks[w]? = some k) (hholds : k.pc.phase.holds) (hcancelled : k.cancelled)
    (hchild : ∀ child, k.pc = .stoppingReader child → l.childDone cfg child) :
    ∃ l', l.taskStep cfg now w .cancelled = some l' ∧ l'.toGo cfg t < l.toGo cfg t := by
  let l₁ : Lease := l.setTask w fun k => { k with cancelled := false }
  have hstep : l.taskStep cfg now w .cancelled = l₁.cancelTask cfg w k.pc := by
    simp [taskStep, hk, hcancelled, l₁]
  rw [hstep]
  cases hpc : k.pc with
  | connecting | subscribing | unsubscribing | disconnecting =>
      refine ⟨_, rfl, ?_⟩
      apply toGo_of_released hholder hk
      · simp [hold, hpc]
      · rfl
      · rfl
  | stoppingReader child =>
      have hdone := hchild child hpc
      have hdone₁ : l₁.childDone cfg child := hdone
      refine ⟨l₁.onReaderStopped cfg w, if_pos hdone₁, ?_⟩
      have hk₁ : l₁.tasks[w]? = some { k with cancelled := false } := by
        show (l.tasks.modify w _)[w]? = _
        rw [List.getElem?_modify_eq, hk]
        rfl
      have hsame : l₁.toGo cfg t = l.toGo cfg t := by
        rw [toGo_of_holder hholder hk, toGo_of_holder (l := l₁) hholder hk₁]
        rfl
      rw [← hsame]
      exact toGo_onReaderStopped (l := l₁) hholder hk₁ hpc hdone₁
  | _ => simp [hpc, LinkPc.phase, Phase.holds] at hholds

/-- Whoever has the lock can take a step towards giving it back. -/
theorem release_step {k : LinkTask} (hholder : l.lock.holder = some w)
    (hk : l.tasks[w]? = some k) (hholds : k.pc.phase.holds)
    (hchild : ∀ child, k.pc = .stoppingReader child → l.childDone cfg child)
    (hrole : k.role = .supervise → w ≠ t ∧ t ∈ l.lock.waiters) :
    ∃ step l', l.taskStep cfg now w step = some l' ∧ l'.toGo cfg t < l.toGo cfg t := by
  cases hcancelled : k.cancelled with
  | true =>
      obtain ⟨l', hl', hless⟩ := release_cancelled hholder hk hholds hcancelled hchild
      exact ⟨.cancelled, l', hl', hless⟩
  | false =>
      cases hpc : k.pc with
      | connecting =>
          -- the transport may fail
          let l₁ : Lease := { l with transport := { l.transport with isConnected := false } }
          refine ⟨.connectFailed false, l₁.release.connectRaised now w k.backoff k.role, ?_, ?_⟩
          · simp [taskStep, hk, hcancelled, hpc, l₁]
          apply toGo_connectRaised hholder hk
          · simp [hold, hpc]
          · rfl
      | subscribing =>
          refine ⟨.subscribeFailed, l.release.connectRaised now w k.backoff k.role, ?_, ?_⟩
          · simp [taskStep, hk, hcancelled, hpc]
          apply toGo_connectRaised hholder hk
          · simp [hold, hpc]
          · rfl
      | stoppingReader child =>
          have hdone := hchild child hpc
          refine ⟨.readerStopped, l.onReaderStopped cfg w, ?_, ?_⟩
          · simp [taskStep, hk, hcancelled, hpc, hdone]
          · exact toGo_onReaderStopped hholder hk hpc hdone
      | unsubscribing =>
          refine ⟨.unsubscribed, l.setPc w .disconnecting, ?_, ?_⟩
          · simp [taskStep, hk, hcancelled, hpc]
          apply toGo_setPc hholder hk
          · rfl
          · rfl
          · simp [hold, hpc]
      | disconnecting =>
          refine ⟨.disconnected, l.onDisconnected cfg now w k.role, ?_, ?_⟩
          · simp [taskStep, hk, hcancelled, hpc]
          obtain ⟨rest, hfree, hwaiters, hrest⟩ : ∃ rest,
              (l.onDisconnected cfg now w k.role).lock.holder = none ∧
                (l.onDisconnected cfg now w k.role).lock.waiters = l.lock.waiters ++ rest ∧
                t ∉ rest := by
            cases hkrole : k.role with
            | supervise =>
                -- the supervisor joins the queue behind the others
                obtain ⟨hne, hqueued⟩ := hrole hkrole
                have hbusy : l.lock.release.isFree = false := by
                  simp [Lock.isFree, Lock.release, List.ne_nil_of_mem hqueued]
                have hlock : (l.onDisconnected cfg now w .supervise).lock =
                    l.lock.release.enqueue w := lock_beginConnect hbusy
                rw [hlock]
                exact ⟨[w], rfl, rfl, by simpa using hne.symm⟩
            | _ => exact ⟨[], rfl, (List.append_nil _).symm, by simp⟩
          apply toGo_of_released hholder hk
          · simp [hold, hpc]
          · exact hfree
          · exact Lock.place_of_append hwaiters hrest
      | _ => simp [hpc, LinkPc.phase, Phase.holds] at hholds

/-- While nobody has the lock, the head of the queue can take its turn. -/
theorem grant_step (hfree : l.lock.holder = none) (horder : l.InOrder) (ht : t ∈ l.lock.waiters) :
    ∃ w step l', l.taskStep cfg now w step = some l' ∧ l'.toGo cfg t < l.toGo cfg t := by
  obtain ⟨w, rest, hwaiters⟩ := List.exists_cons_of_ne_nil (List.ne_nil_of_mem ht)
  obtain ⟨k, hk, hqueues⟩ := horder.waits w (by simp [hwaiters])
  have hless (l' : Lease) (htail : l'.lock.waiters = l.lock.waiters.tail) :
      l'.toGo cfg t < l.toGo cfg t := by
    have hplace := Lock.place_of_tail htail horder.nodup ht
    have hbound : l'.toGo cfg t ≤ 5 * l'.lock.place t + 4 := toGo_le
    rw [toGo_of_free hfree]
    omega
  cases hcancelled : k.cancelled with
  | true =>
      -- it gives up
      let l₁ : Lease := l.setTask w fun k => { k with cancelled := false }
      let l₂ : Lease := { l₁ with lock := l.lock.leave w }
      refine ⟨w, .cancelled, l₂.setPc w .raised, ?_, hless _ ?_⟩
      · have hcancel : l.taskStep cfg now w .cancelled = l₁.cancelTask cfg w k.pc := by
          simp [taskStep, hk, hcancelled, l₁]
        rw [hcancel]
        cases hpc : k.pc with
        | connectLock | teardownLock => rfl
        | _ => simp [hpc, LinkPc.queues] at hqueues
      · show l.lock.waiters.erase w = l.lock.waiters.tail
        simp [hwaiters]
  | false =>
      have hgrants : l.lock.grants w := by simp [Lock.grants, hfree, hwaiters]
      let l₁ : Lease := { l with lock := l.lock.grant w }
      cases hpc : k.pc with
      | connectLock =>
          refine ⟨w, .granted, l₁.connectLocked cfg now w k.role, ?_, hless _ ?_⟩
          · simp [taskStep, hk, hcancelled, hpc, hgrants, l₁]
          · rw [waiters_connectLocked]
            rfl
      | teardownLock =>
          refine ⟨w, .granted, l₁.teardownLocked cfg w, ?_, hless _ ?_⟩
          · simp [taskStep, hk, hcancelled, hpc, hgrants, l₁]
          · rw [waiters_teardownLocked]
            rfl
      | _ => simp [hpc, LinkPc.queues] at hqueues

end Lease

end Bedjet.Service
