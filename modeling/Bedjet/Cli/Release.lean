import Bedjet.Integrations.Bridge

/-!
How a daemon shuts down: it runs its closers one after the other, within a grace
period. When the period is over the closer in progress is cancelled, and unless it
suppresses that, the shutdown is abandoned.
-/

namespace Bedjet.Cli

open Asyncio Integrations

/-- `_SHUTDOWN_GRACE_S` -/
def shutdownGraceS : ℚ := 5 / 2

/-- The exceptions that a closer raises. -/
inductive CloserError
  | timeoutError
  /-- an `Exception` of any other kind -/
  | other
  deriving DecidableEq

/-- The cancellation by `asyncio.timeout`. -/
inductive Timer
  | armed
  /-- requested, and not raised yet -/
  | requested
  /-- the closer has suppressed it -/
  | spent
  deriving DecidableEq

/-- Where `_release` is. -/
inductive ReleasePc (α : Type*)
  | awaiting (closer : α) (rest : List α)
  /-- it has told that the link is released -/
  | released
  /-- it has told that the shutdown was abandoned -/
  | abandoned
  /-- what a closer raised has left it -/
  | raised

structure Release (α : Type*) where
  now : ℚ
  deadline : ℚ
  timer : Timer := .armed
  pc : ReleasePc α
  /-- the closers that were called, and those that returned, the first one first -/
  started : List α := []
  completed : List α := []

inductive ReleaseAction
  | pass (dt : ℚ)
  /-- the closer in progress returns or raises -/
  | returned
  | raised (e : CloserError)
  /-- the grace period is over -/
  | expired
  /-- the cancellation leaves the closer -/
  | interrupted
  /-- the closer suppresses it, and goes on -/
  | suppressed

namespace Release

variable {α : Type*}

/-- The loop over the closers, up to the next await. -/
def next (r : Release α) : List α → Release α
  | [] => { r with pc := .released }
  | closer :: rest =>
      { r with pc := .awaiting closer rest, started := r.started ++ [closer] }

/-- The `async with` raises a `TimeoutError` for the cancellation that it
requested; one raised by a closer is caught like it. -/
def leave (r : Release α) : CloserError → Release α
  | .timeoutError => { r with pc := .abandoned }
  | .other => { r with pc := .raised }

def step (r : Release α) : ReleaseAction → Option (Release α)
  | .pass dt => if 0 ≤ dt then some { r with now := r.now + dt } else none
  | .returned =>
      match r.pc with
      | .awaiting closer rest =>
          if r.timer = .requested then none
          else some ({ r with completed := r.completed ++ [closer] }.next rest)
      | _ => none
  | .raised e =>
      match r.pc with
      | .awaiting _ _ => some (r.leave e)
      | _ => none
  | .expired =>
      match r.pc with
      | .awaiting _ _ =>
          if r.timer = .armed ∧ r.deadline ≤ r.now then some { r with timer := .requested }
          else none
      | _ => none
  | .interrupted =>
      match r.pc with
      | .awaiting _ _ => if r.timer = .requested then some (r.leave .timeoutError) else none
      | _ => none
  | .suppressed =>
      match r.pc with
      | .awaiting _ _ => if r.timer = .requested then some { r with timer := .spent } else none
      | _ => none

def machine (α : Type*) : Machine (Release α) ReleaseAction where
  step r a := r.step a

/-- `_release(*closers)` is called. -/
def call (closers : List α) (now : ℚ) : Release α :=
  { now, deadline := now + shutdownGraceS, pc := .released : Release α }.next closers

/-- Whether it has returned or raised. -/
def finished (r : Release α) : Bool :=
  match r.pc with
  | .awaiting _ _ => false
  | .released | .abandoned | .raised => true

/-- Once it is over, all were called, unless the grace period is over too. -/
def Served (closers : List α) (r : Release α) : Prop :=
  r.finished → r.started = closers ∨ r.deadline ≤ r.now

/-- The closers are called in order, all of them unless the grace period is over,
and the link is reported as released only if all have returned. -/
structure Complete (closers : List α) (r : Release α) : Prop where
  order : r.started <+: closers
  all : Served closers r
  told : r.pc = .released → r.completed = closers

/-- No closer but the last raises within the grace period. -/
def Unbroken (r : Release α) : ReleaseAction → Prop
  | .raised _ => ∀ closer rest, r.pc = .awaiting closer rest → rest = [] ∨ r.deadline ≤ r.now
  | _ => True

/-- What holds of every release, whatever its closers do. -/
def Ordered (closers : List α) (r : Release α) : Prop :=
  match r.pc with
  | .awaiting closer rest => r.started ++ rest = closers ∧ r.completed ++ [closer] = r.started
  | .released => r.started = closers ∧ r.completed = closers
  | .abandoned | .raised => r.started <+: closers

/-- The cancellation comes when the grace period is over. -/
def Punctual (r : Release α) : Prop :=
  r.timer ≠ .armed → r.deadline ≤ r.now

variable {closers : List α} {r r' : Release α} {a : ReleaseAction}

/-! ### What a step can do -/

/-- It goes on to the next closer; the closer in progress ends it, with what it
raises or with the cancellation; or it is the clock or the cancellation, and
`_release` stays where it is. -/
inductive Moves (r : Release α) (a : ReleaseAction) : Release α → Prop
  | on (closer : α) (rest : List α) (hpc : r.pc = .awaiting closer rest) :
      Moves r a ({ r with completed := r.completed ++ [closer] }.next rest)
  | off (closer : α) (rest : List α) (e : CloserError) (hpc : r.pc = .awaiting closer rest)
      (hwhy : a = .raised e ∨ r.timer = .requested) : Moves r a (r.leave e)
  | stay (now : ℚ) (timer : Timer) (hnow : r.now ≤ now)
      (htimer : timer ≠ .armed → r.timer ≠ .armed ∨ r.deadline ≤ r.now) :
      Moves r a { r with now, timer }

theorem step_moves (h : r.step a = some r') : Moves r a r' := by
  cases a with
  | pass dt =>
      simp only [step, Option.ite_none_right_eq_some, Option.some.injEq] at h
      obtain ⟨hdt, rfl⟩ := h
      exact .stay (r.now + dt) r.timer (by linarith) fun harmed => .inl harmed
  | returned =>
      simp only [step] at h
      split at h
      · rename_i closer rest hpc
        simp only [Option.ite_none_left_eq_some, Option.some.injEq] at h
        obtain ⟨-, rfl⟩ := h
        exact .on closer rest hpc
      · simp at h
  | raised e =>
      simp only [step] at h
      split at h
      · rename_i closer rest hpc
        obtain rfl := Option.some.inj h
        exact .off closer rest e hpc (.inl rfl)
      · simp at h
  | expired =>
      simp only [step] at h
      split at h
      · simp only [Option.ite_none_right_eq_some, Option.some.injEq] at h
        obtain ⟨⟨-, hdue⟩, rfl⟩ := h
        exact .stay r.now .requested le_rfl fun _ => .inr hdue
      · simp at h
  | interrupted =>
      simp only [step] at h
      split at h
      · rename_i closer rest hpc
        simp only [Option.ite_none_right_eq_some, Option.some.injEq] at h
        obtain ⟨hrequested, rfl⟩ := h
        exact .off closer rest .timeoutError hpc (.inr hrequested)
      · simp at h
  | suppressed =>
      simp only [step] at h
      split at h
      · simp only [Option.ite_none_right_eq_some, Option.some.injEq] at h
        obtain ⟨hrequested, rfl⟩ := h
        exact .stay r.now .spent le_rfl fun _ => .inl (by simp [hrequested])
      · simp at h

/-! ### Every release -/

theorem ordered_next {rest : List α} (hstarted : r.started ++ rest = closers)
    (hcompleted : r.completed = r.started) : Ordered closers (r.next rest) := by
  cases rest with
  | nil =>
      have hall : r.started = closers := by simpa using hstarted
      exact ⟨hall, hcompleted.trans hall⟩
  | cons closer rest => exact ⟨by simpa [next] using hstarted, by simp [next, hcompleted]⟩

theorem ordered_leave {closer : α} {rest : List α} (h : Ordered closers r)
    (hpc : r.pc = .awaiting closer rest) (e : CloserError) : Ordered closers (r.leave e) := by
  simp only [Ordered, hpc] at h
  have hprefix : r.started <+: closers := ⟨rest, h.1⟩
  cases e with
  | timeoutError => exact hprefix
  | other => exact hprefix

theorem ordered_step (h : Ordered closers r) (hstep : r.step a = some r') :
    Ordered closers r' := by
  cases step_moves hstep with
  | on closer rest hpc =>
      simp only [Ordered, hpc] at h
      exact ordered_next h.1 h.2
  | off closer rest e hpc _ => exact ordered_leave h hpc e
  | stay => exact h

theorem ordered_call (closers : List α) (now : ℚ) : Ordered closers (call closers now) :=
  ordered_next rfl rfl

@[simp] theorem now_next (rest : List α) : (r.next rest).now = r.now := by
  cases rest <;> rfl

@[simp] theorem deadline_next (rest : List α) : (r.next rest).deadline = r.deadline := by
  cases rest <;> rfl

@[simp] theorem timer_next (rest : List α) : (r.next rest).timer = r.timer := by
  cases rest <;> rfl

@[simp] theorem now_leave (e : CloserError) : (r.leave e).now = r.now := by
  cases e <;> rfl

@[simp] theorem deadline_leave (e : CloserError) : (r.leave e).deadline = r.deadline := by
  cases e <;> rfl

@[simp] theorem timer_leave (e : CloserError) : (r.leave e).timer = r.timer := by
  cases e <;> rfl

@[simp] theorem started_leave (e : CloserError) : (r.leave e).started = r.started := by
  cases e <;> rfl

@[simp] theorem finished_leave (e : CloserError) : (r.leave e).finished := by
  cases e <;> rfl

theorem punctual_step (h : Punctual r) (hstep : r.step a = some r') : Punctual r' := by
  cases step_moves hstep with
  | on closer rest _ =>
      simp only [Punctual, timer_next, deadline_next, now_next]
      exact h
  | off _ _ e _ _ =>
      simp only [Punctual, timer_leave, deadline_leave, now_leave]
      exact h
  | stay now timer hnow htimer =>
      intro harmed
      obtain hearlier | hdue := htimer harmed
      · exact (h hearlier).trans hnow
      · exact hdue.trans hnow

theorem punctual_call (closers : List α) (now : ℚ) : Punctual (call closers now) := by
  simp [Punctual, call]

/-- Whatever the closers do, they are called in order, and what is told is right. -/
theorem complete_of_ordered (h : Ordered closers r) (hall : Served closers r) :
    Complete closers r := by
  unfold Ordered at h
  refine ⟨?_, hall, fun hpc => ?_⟩
  · split at h
    · exact ⟨_, h.1⟩
    · exact h.1 ▸ List.prefix_rfl
    · exact h
    · exact h
  · simp only [hpc] at h
    exact h.2

/-! ### Releases that no closer breaks off -/

theorem served_step (h : Served closers r) (hordered : Ordered closers r) (hpunctual : Punctual r)
    (hok : Unbroken r a) (hstep : r.step a = some r') : Served closers r' := by
  have hordered' := ordered_step hordered hstep
  cases step_moves hstep with
  | on closer rest hpc =>
      cases rest with
      | nil => exact fun _ => .inl hordered'.1
      | cons => exact fun hover => by simp [finished, next] at hover
  | off closer rest e hpc hwhy =>
      simp only [Ordered, hpc] at hordered
      simp only [Served, started_leave, deadline_leave, now_leave]
      intro _
      obtain rfl | hrequested := hwhy
      · obtain rfl | hdue := hok closer rest hpc
        · exact .inl (by simpa using hordered.1)
        · exact .inr hdue
      · exact .inr (hpunctual (by simp [hrequested]))
  | stay now timer hnow _ =>
      intro hover
      obtain hall | hdue := h hover
      · exact .inl hall
      · exact .inr (hdue.trans hnow)

/-- A closer that raises too early, with others to come, leaves them uncalled. -/
theorem not_complete_of_broken (h : Ordered closers r) (hbroken : ¬Unbroken r a)
    (hstep : r.step a = some r') : ¬Complete closers r' := by
  intro hcomplete
  cases a with
  | raised e =>
      simp only [Unbroken, not_forall, not_or, not_le] at hbroken
      obtain ⟨closer, rest, hpc, hrest, hearly⟩ := hbroken
      simp only [step, hpc] at hstep
      obtain rfl := Option.some.inj hstep
      simp only [Ordered, hpc] at h
      obtain hall | hdue := hcomplete.all (finished_leave e)
      · rw [started_leave] at hall
        exact hrest (List.append_right_eq_self.mp (h.1.trans hall.symm))
      · rw [deadline_leave, now_leave] at hdue
        exact absurd hdue (not_le.mpr hearly)
  | _ => exact hbroken trivial

/-- Every closer is called, in order, unless the grace period is over, and the
link is reported as released only if all of them returned: if and only if no
closer but the last raises before the grace period is over. -/
theorem release_complete_iff (closers : List α) (now : ℚ) {actions : List ReleaseAction}
    {r : Release α} (hrun : (machine α).run (call closers now) actions = some r) :
    (machine α).Always (Complete closers) (call closers now) actions ↔
      (machine α).Meets Unbroken (call closers now) actions := by
  constructor
  · exact Machine.meets_of_always (fun r a r' => ordered_step)
      (fun r a r' h _ hbroken hstep => not_complete_of_broken h hbroken hstep)
      (ordered_call closers now) hrun
  · refine Machine.always_of_meets
      (I := fun r => Ordered closers r ∧ Punctual r ∧ Served closers r) ?_ ?_ ?_
    · rintro r a r' ⟨hordered, hpunctual, hserved⟩ hok hstep
      exact ⟨ordered_step hordered hstep, punctual_step hpunctual hstep,
        served_step hserved hordered hpunctual hok hstep⟩
    · exact fun r h => complete_of_ordered h.1 h.2.2
    · refine ⟨ordered_call closers now, punctual_call closers now, fun hover => ?_⟩
      cases closers with
      | nil => exact .inl rfl
      | cons => simp [finished, call, next] at hover

end Release

/-! ### The closers of the daemons -/

inductive Closer
  /-- `runner.cleanup` -/
  | runnerCleanup
  /-- `_drain_bridge` -/
  | drainBridge
  /-- `session.stop` -/
  | sessionStop
  deriving DecidableEq

/-- `cmd_serve` -/
def serveClosers : List Closer := [.runnerCleanup, .sessionStop]

/-- `cmd_mqtt` -/
def mqttClosers : List Closer := [.drainBridge, .sessionStop]

/-- What `_drain_bridge` does when the task of the bridge has ended: it suppresses
its cancellation, and raises anything else. -/
def drainBridge : Leaving → ReleaseAction
  | .cancelled => .returned
  | .mqttError | .raised => .raised .other

namespace Release

/-- A bridge that is cancelled cleanly, and a session that stops in time. -/
theorem release_complete_iff_mqtt :
    (machine Closer).Always (Complete mqttClosers) (call mqttClosers 0)
      [.pass 1, drainBridge .cancelled, .returned] := by
  have hrun : ∃ r, (machine Closer).run (call mqttClosers 0)
      [.pass 1, drainBridge .cancelled, .returned] = some r := ⟨_, rfl⟩
  obtain ⟨r, hrun⟩ := hrun
  rw [release_complete_iff mqttClosers 0 hrun]
  simp [Machine.Meets, Unbroken, drainBridge]

/-- The bridge has died of an exception, and the session is not stopped. -/
theorem release_can_be_broken_off :
    ¬∀ (closers : List Closer) (now : ℚ) (actions : List ReleaseAction) (r : Release Closer),
      (machine Closer).run (call closers now) actions = some r →
        (machine Closer).Always (Complete closers) (call closers now) actions := by
  intro hall
  have hcomplete := hall mqttClosers 0 [drainBridge .raised] _ rfl
  have hended : Complete mqttClosers ((call mqttClosers 0).leave .other) := hcomplete.2 _ rfl
  obtain hstarted | hdue := hended.all rfl
  · exact absurd hstarted (by decide)
  · exact absurd hdue (by decide +kernel)

end Release

end Bedjet.Cli
