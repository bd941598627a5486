import Bedjet.Asyncio.Backoff
import Bedjet.Service.LinkTasks

/-!
The supervisor as a loop that retries. The signal is the adapter's power-on
event, an attempt is a call of `_connect`, and the wait after one that failed is
`_backoff_or_power_on`. What the other coroutines do to it is to clear the event
at most.
-/

namespace Bedjet.Service

open Asyncio Backoff

/-- Whether a supervisor suspended there is between two ticks. -/
def LinkPc.asleep : LinkPc → Bool
  | .sleeping _ => true
  | _ => false

/-- Where in its loop a supervisor is that is suspended there. -/
def LinkPc.retrying : LinkPc → Backoff.Phase ℚ
  | .connectLock | .connecting | .subscribing => .attempting
  | .backingOff wait => .waiting wait.due wait.woken
  | .returned | .raised => .ended
  | _ => .resting

namespace LinkTask

/-- The loop of a task; one that is yet to be created has not attempted
anything, and one that does not supervise never will. -/
def loop (cfg : Config) (now : ℚ) (power : Bool) : Option LinkTask → Loop ℚ
  | none => { now, signal := power, phase := .resting, interval := cfg.backoffInitial }
  | some k =>
      if k.role = .supervise then
        { now, signal := power, phase := k.pc.retrying, interval := k.backoff }
      else { now, signal := power, phase := .ended, interval := cfg.backoffInitial }

/-- What supervisor `k` did by a step that left it as `k'`, the newest first;
`connected` is whether a tick would find the transport connected. -/
def deeds (now : ℚ) (connected : Bool) (k : LinkTask) (step : Lease.LinkStep) (k' : LinkTask) :
    List (Deed ℚ) :=
  match k.pc, step with
  -- `_teardown` returned: the event is cleared and `_connect` is called, which
  -- may return at once
  | .disconnecting, .disconnected =>
      (if k'.pc.asleep then [.succeeded] else []) ++ [.armed now]
  | .connecting, .connectFailed _ | .subscribing, .subscribeFailed => [.failed now k.backoff]
  | .connectLock, _ | .connecting, _ | .subscribing, _ =>
      if k'.pc.asleep then [.succeeded] else []
  | .backingOff _, _ => if k'.pc.asleep then [.resumed now] else []
  | .sleeping _, .slept => if connected then [.idle] else []
  | _, _ => []

end LinkTask

namespace Lease

variable (cfg : Config) (now : ℚ)

/-- Whether a tick finds the transport connected. -/
def findsConnected (l : Lease) : Bool :=
  !l.yieldUntil.any (now < ·) && l.transport.isConnected

/-- The loop of task `t`. -/
def loop (l : Lease) (t : ℕ) : Loop ℚ :=
  LinkTask.loop cfg now l.transport.adapterPowerOn l.tasks[t]?

/-- What task `t` did by a step of its own from `l` to `l'`, if it supervises. -/
def deeds (t : ℕ) (l : Lease) (step : LinkStep) (l' : Lease) : List (Deed ℚ) :=
  match l.tasks[t]?, l'.tasks[t]? with
  | some k, some k' =>
      if k.role = .supervise then k.deeds now (l.findsConnected now) step k' else []
  | _, _ => []

/-- Task `t` is `k`, and the event is set or not. -/
structure Has (l : Lease) (t : ℕ) (k : LinkTask) (power : Bool) : Prop where
  task : l.tasks[t]? = some k
  power : l.transport.adapterPowerOn = power

variable {cfg now} {l l' : Lease} {t : ℕ} {k k' : LinkTask} {power power' : Bool}

theorem Has.loop (h : l.Has t k power) (cfg : Config) (now : ℚ) (hrole : k.role = .supervise) :
    l.loop cfg now t = { now, signal := power, phase := k.pc.retrying, interval := k.backoff } := by
  rw [Lease.loop, h.task, h.power, LinkTask.loop, if_pos hrole]

theorem Has.deeds (h : l.Has t k power) (hrole : k.role = .supervise) (h' : l'.Has t k' power')
    (step : LinkStep) :
    Lease.deeds now t l step l' = k.deeds now (l.findsConnected now) step k' := by
  rw [Lease.deeds, h.task, h'.task]
  exact if_pos hrole

/-! ### What a run of the supervisor leaves -/

theorem Has.setTask (h : l.Has t k power) (f : LinkTask → LinkTask) :
    (l.setTask t f).Has t (f k) power := by
  refine ⟨?_, h.power⟩
  show (l.tasks.modify t f)[t]? = some (f k)
  rw [List.getElem?_modify_eq, h.task]
  rfl

theorem Has.setPc (h : l.Has t k power) (pc : LinkPc) : (l.setPc t pc).Has t { k with pc } power :=
  h.setTask _

theorem Has.sleep (h : l.Has t k power) (cfg : Config) (now : ℚ) :
    (l.sleep cfg now t).Has t { k with pc := .sleeping (now + cfg.superviseInterval) } power :=
  h.setPc _

/-- An attempt goes on, or has succeeded. -/
inductive Tried (cfg : Config) (k k' : LinkTask) : Prop
  | goesOn (hrole : k'.role = k.role) (hphase : k'.pc.retrying = .attempting)
      (hasleep : k'.pc.asleep = false) (hbackoff : k'.backoff = k.backoff)
  | succeeded (hrole : k'.role = k.role) (hphase : k'.pc.retrying = .resting)
      (hasleep : k'.pc.asleep) (hbackoff : k'.backoff = cfg.backoffInitial)

theorem Has.connectReturned (h : l.Has t k power) (cfg : Config) (now : ℚ) :
    ∃ k', (l.connectReturned cfg now t .supervise).Has t k' power ∧ Tried cfg k k' :=
  ⟨_, (h.setTask _).sleep cfg now, .succeeded rfl rfl rfl rfl⟩

theorem Has.connectLocked (h : l.Has t k power) (cfg : Config) (now : ℚ) :
    ∃ k', (l.connectLocked cfg now t .supervise).Has t k' power ∧ Tried cfg k k' := by
  rw [Lease.connectLocked]
  split
  · have hreleased : l.release.Has t k power := ⟨h.task, h.power⟩
    exact hreleased.connectReturned cfg now
  · exact ⟨_, h.setPc .connecting, .goesOn rfl rfl rfl rfl⟩

theorem Has.beginConnect (h : l.Has t k power) (cfg : Config) (now : ℚ) :
    ∃ k', (l.beginConnect cfg now t .supervise).Has t k' power ∧ Tried cfg k k' := by
  rw [Lease.beginConnect]
  split
  · have htaken : Has { l with lock := l.lock.take t } t k power := ⟨h.task, h.power⟩
    exact htaken.connectLocked cfg now
  · have hqueued : Has { l with lock := l.lock.enqueue t } t k power := ⟨h.task, h.power⟩
    exact ⟨_, hqueued.setPc .connectLock, .goesOn rfl rfl rfl rfl⟩

theorem Has.onConnected (h : l.Has t k power) (cfg : Config) (now : ℚ) :
    ∃ k', (l.onConnected cfg now t .supervise).Has t k' power ∧ Tried cfg k k' := by
  rw [Lease.onConnected]
  dsimp only
  split
  · apply Has.connectReturned
    exact ⟨h.task, h.power⟩
  · refine ⟨{ k with pc := .subscribing }, ?_, .goesOn rfl rfl rfl rfl⟩
    apply Has.setPc
    exact ⟨h.task, h.power⟩

theorem Has.onSubscribed (h : l.Has t k power) (cfg : Config) (now : ℚ) :
    ∃ k', (l.onSubscribed cfg now t .supervise).Has t k' power ∧ Tried cfg k k' := by
  apply Has.connectReturned
  exact ⟨h.task, h.power⟩

/-- It goes on without having attempted anything. -/
structure Rests (k k' : LinkTask) : Prop where
  role : k'.role = k.role
  phase : k'.pc.retrying = .resting
  backoff : k'.backoff = k.backoff

theorem Has.teardownLocked (h : l.Has t k power) (cfg : Config) :
    ∃ k', (l.teardownLocked cfg t).Has t k' power ∧ Rests k k' := by
  have hrests (pc : LinkPc) (hpc : pc.retrying = .resting) : Rests k { k with pc } :=
    ⟨rfl, hpc, rfl⟩
  rw [Lease.teardownLocked]
  split
  · exact ⟨_, h.setPc _, hrests _ rfl⟩
  · dsimp only
    split
    · split
      · refine ⟨_, Has.setPc ?_ _, hrests _ rfl⟩
        exact ⟨h.task, h.power⟩
      · refine ⟨_, Has.setPc ?_ _, hrests _ rfl⟩
        exact ⟨h.task, h.power⟩
    · split
      · split
        · refine ⟨_, Has.setPc ?_ _, hrests _ rfl⟩
          exact ⟨h.task, h.power⟩
        · refine ⟨_, Has.setPc ?_ _, hrests _ rfl⟩
          exact ⟨h.task, h.power⟩
      · refine ⟨_, Has.setPc ?_ _, hrests _ rfl⟩
        exact ⟨h.task, h.power⟩

theorem Has.beginTeardown (h : l.Has t k power) (cfg : Config) :
    ∃ k', (l.beginTeardown cfg t).Has t k' power ∧ Rests k k' := by
  rw [Lease.beginTeardown]
  split
  · have htaken : Has { l with lock := l.lock.take t } t k power := ⟨h.task, h.power⟩
    exact htaken.teardownLocked cfg
  · have hqueued : Has { l with lock := l.lock.enqueue t } t k power := ⟨h.task, h.power⟩
    exact ⟨_, hqueued.setPc _, ⟨rfl, rfl, rfl⟩⟩

theorem Has.onReaderStopped (h : l.Has t k power) (cfg : Config) :
    ∃ k', (l.onReaderStopped cfg t).Has t k' power ∧ Rests k k' := by
  rw [Lease.onReaderStopped]
  split
  · exact ⟨_, h.setPc _, ⟨rfl, rfl, rfl⟩⟩
  · refine ⟨_, Has.setPc ?_ _, ⟨rfl, rfl, rfl⟩⟩
    exact ⟨h.task, h.power⟩

/-! ### The supervisor is such a loop -/

theorem Tried.runs (htried : Tried cfg k k') (hrole : k.role = .supervise)
    (h' : l'.Has t k' power) {start : Loop ℚ} {deeds : List (Deed ℚ)}
    (hruns : Backoff.Runs cfg.backoffInitial cfg.backoffMax start deeds
      { now, signal := power, phase := .attempting, interval := k.backoff }) :
    Backoff.Runs cfg.backoffInitial cfg.backoffMax start
      ((if k'.pc.asleep then [.succeeded] else []) ++ deeds) (l'.loop cfg now t) := by
  cases htried with
  | goesOn hrole' hphase hasleep hbackoff =>
      rw [h'.loop cfg now (hrole'.trans hrole), hphase, hbackoff, hasleep]
      exact hruns
  | succeeded hrole' hphase hasleep hbackoff =>
      rw [h'.loop cfg now (hrole'.trans hrole), hphase, hbackoff, hasleep]
      exact hruns.tail (.succeeds rfl)

theorem Rests.runs (hrests : Rests k k') (hrole : k.role = .supervise) (h : l.Has t k power)
    (hphase : k.pc.retrying = .resting) (h' : l'.Has t k' power) :
    Backoff.Runs cfg.backoffInitial cfg.backoffMax (l.loop cfg now t) [] (l'.loop cfg now t) := by
  rw [h.loop cfg now hrole, h'.loop cfg now (hrests.role.trans hrole), hphase, hrests.phase,
    hrests.backoff]
  exact .refl

theorem Has.backedOff (h : l.Has t k power) (cfg : Config) (now : ℚ) :
    (l.backedOff cfg now t).Has t { k with
      backoff := min (k.backoff * 2) cfg.backoffMax
      pc := .sleeping (now + cfg.superviseInterval) } power :=
  (h.setTask _).sleep cfg now

/-- The wait after a failed attempt is over. -/
theorem Has.resumed (h : l.Has t k power) (hrole : k.role = .supervise) {start : Loop ℚ}
    {deeds : List (Deed ℚ)} {due : ℚ} {woken : Bool} (hwhy : due ≤ now ∨ woken)
    (hruns : Backoff.Runs cfg.backoffInitial cfg.backoffMax start deeds
      { now, signal := power, phase := .waiting due woken, interval := k.backoff }) :
    Backoff.Runs cfg.backoffInitial cfg.backoffMax start ([.resumed now] ++ deeds)
      ((l.backedOff cfg now t).loop cfg now t) := by
  rw [(h.backedOff cfg now).loop cfg now hrole]
  exact hruns.tail (.resumes rfl hwhy)

/-- `_connect` raised. -/
theorem Has.connectRaised (h : l.Has t k power) (hrole : k.role = .supervise) {start : Loop ℚ}
    (hruns : Backoff.Runs cfg.backoffInitial cfg.backoffMax start []
      { now, signal := power, phase := .attempting, interval := k.backoff }) :
    ∃ k', (l.connectRaised now t k.backoff .supervise).Has t k' power ∧
      Backoff.Runs cfg.backoffInitial cfg.backoffMax start [.failed now k.backoff]
        ((l.connectRaised now t k.backoff .supervise).loop cfg now t) := by
  have hfails := hruns.tail (Moves.fails rfl)
  -- an event that is set by then ends the wait as soon as it begins
  have hhas : (l.connectRaised now t k.backoff .supervise).Has t _ power :=
    h.setPc (.backingOff { woken := l.transport.adapterPowerOn, due := now + k.backoff })
  refine ⟨_, hhas, ?_⟩
  rw [hhas.loop cfg now hrole, h.power]
  exact hfails

section

variable (h : l.Has t k power) (hrole : k.role = .supervise)
include h hrole

theorem Has.tried {step : LinkStep} (h' : l'.Has t k' power) (htried : Tried cfg k k')
    (hphase : k.pc.retrying = .attempting)
    (hdeeds : k.deeds now (l.findsConnected now) step k' =
      if k'.pc.asleep then [.succeeded] else []) :
    Backoff.Runs cfg.backoffInitial cfg.backoffMax (l.loop cfg now t) (Lease.deeds now t l step l')
      (l'.loop cfg now t) := by
  have hrefl : Backoff.Runs cfg.backoffInitial cfg.backoffMax (l.loop cfg now t) []
      { now, signal := power, phase := .attempting, interval := k.backoff } := by
    rw [h.loop cfg now hrole, hphase]
    exact .refl
  have hruns := htried.runs hrole h' hrefl
  rw [h.deeds hrole h', hdeeds]
  rwa [List.append_nil] at hruns

theorem Has.rests {step : LinkStep} (h' : l'.Has t k' power) (hrests : Rests k k')
    (hphase : k.pc.retrying = .resting)
    (hdeeds : k.deeds now (l.findsConnected now) step k' = []) :
    Backoff.Runs cfg.backoffInitial cfg.backoffMax (l.loop cfg now t) (Lease.deeds now t l step l')
      (l'.loop cfg now t) := by
  rw [h.deeds hrole h', hdeeds]
  exact hrests.runs hrole h hphase h'

end

theorem Has.tick (h : l.Has t k power) (hrole : k.role = .supervise) {due : ℚ}
    (hpc : k.pc = .sleeping due) :
    Backoff.Runs cfg.backoffInitial cfg.backoffMax (l.loop cfg now t)
      (Lease.deeds now t l .slept (l.tick cfg now t)) ((l.tick cfg now t).loop cfg now t) := by
  have hdeeds (k' : LinkTask) : k.deeds now (l.findsConnected now) .slept k' =
      if l.findsConnected now then [.idle] else [] := by
    simp only [LinkTask.deeds, hpc]
  rw [Lease.tick]
  split
  · rename_i hyielded
    refine h.rests hrole (h.sleep cfg now) ⟨rfl, rfl, rfl⟩ (by rw [hpc]; rfl) ?_
    rw [hdeeds]
    simp [findsConnected, hyielded]
  · rename_i hover
    dsimp only
    have hresumed : Has { l with yieldUntil := none } t k power := ⟨h.task, h.power⟩
    split
    · rename_i hconnected
      have hfinds : l.findsConnected now := by simp [findsConnected, hover, hconnected]
      have hlinked : Has ({ l with yieldUntil := none }.setLink .connected) t k power :=
        ⟨h.task, h.power⟩
      have hhas := (hlinked.setTask fun k => { k with backoff := cfg.backoffInitial }).sleep cfg now
      rw [h.deeds hrole hhas, hdeeds, if_pos hfinds, h.loop cfg now hrole, hhas.loop cfg now hrole,
        hpc]
      exact (Moves.idles rfl).runs
    · rename_i hconnected
      have hlost : Has ({ l with yieldUntil := none }.setLink .lost) t k power :=
        ⟨h.task, h.power⟩
      obtain ⟨k', h', hrests⟩ := hlost.beginTeardown cfg
      refine h.rests hrole h' hrests (by rw [hpc]; rfl) ?_
      rw [hdeeds]
      simp [findsConnected, hconnected]

/-- What the supervisor does up to its next suspension is what such a loop does. -/
theorem Resumes.runs {step : LinkStep} (hresumes : Resumes cfg now l t k step l')
    (h : l.Has t k power) (hrole : k.role = .supervise) :
    Backoff.Runs cfg.backoffInitial cfg.backoffMax (l.loop cfg now t) (Lease.deeds now t l step l')
      (l'.loop cfg now t) := by
  cases hresumes with
  | begun hpc =>
      exact h.rests hrole (h.sleep cfg now) ⟨rfl, rfl, rfl⟩ (by rw [hpc]; rfl)
        (by simp only [LinkTask.deeds, hpc])
  | connects hpc hgrants =>
      rw [hrole]
      have hgranted : Has { l with lock := l.lock.grant t } t k power := ⟨h.task, h.power⟩
      obtain ⟨k', h', htried⟩ := hgranted.connectLocked cfg now
      exact h.tried hrole h' htried (by rw [hpc]; rfl) (by simp only [LinkTask.deeds, hpc])
  | connected hpc =>
      rw [hrole]
      obtain ⟨k', h', htried⟩ := h.onConnected cfg now
      exact h.tried hrole h' htried (by rw [hpc]; rfl) (by simp only [LinkTask.deeds, hpc])
  | connectFailed hpc connected =>
      rw [hrole]
      let dropped : Lease :=
        { l with transport := { l.transport with isConnected := connected } }.release
      have hdropped : dropped.Has t k power := ⟨h.task, h.power⟩
      obtain ⟨k', h', hruns⟩ := hdropped.connectRaised hrole .refl
      rw [h.deeds hrole h', h.loop cfg now hrole, hpc]
      simp only [LinkTask.deeds, hpc]
      exact hruns
  | subscribed hpc =>
      rw [hrole]
      obtain ⟨k', h', htried⟩ := h.onSubscribed cfg now
      exact h.tried hrole h' htried (by rw [hpc]; rfl) (by simp only [LinkTask.deeds, hpc])
  | subscribeFailed hpc =>
      rw [hrole]
      have hreleased : l.release.Has t k power := ⟨h.task, h.power⟩
      obtain ⟨k', h', hruns⟩ := hreleased.connectRaised hrole .refl
      rw [h.deeds hrole h', h.loop cfg now hrole, hpc]
      simp only [LinkTask.deeds, hpc]
      exact hruns
  | tears hpc hgrants =>
      have hgranted : Has { l with lock := l.lock.grant t } t k power := ⟨h.task, h.power⟩
      obtain ⟨k', h', hrests⟩ := hgranted.teardownLocked cfg
      exact h.rests hrole h' hrests (by rw [hpc]; rfl) (by simp only [LinkTask.deeds, hpc])
  | readerStopped hpc hdone =>
      obtain ⟨k', h', hrests⟩ := h.onReaderStopped cfg
      exact h.rests hrole h' hrests (by rw [hpc]; rfl) (by simp only [LinkTask.deeds, hpc])
  | unsubscribed hpc =>
      exact h.rests hrole (h.setPc .disconnecting) ⟨rfl, rfl, rfl⟩ (by rw [hpc]; rfl)
        (by simp only [LinkTask.deeds, hpc])
  | disconnected hpc =>
      rw [hrole]
      let armed : Lease := { l with transport :=
        { l.transport with isConnected := false, adapterPowerOn := false } }.release
      have harmed : armed.Has t k false := ⟨h.task, rfl⟩
      obtain ⟨k', h', htried⟩ := harmed.beginConnect cfg now
      have harms : Backoff.Runs cfg.backoffInitial cfg.backoffMax (l.loop cfg now t) [.armed now]
          { now, signal := false, phase := .attempting, interval := k.backoff } := by
        rw [h.loop cfg now hrole, hpc]
        exact (Moves.arms rfl).runs
      have hruns := htried.runs hrole h' harms
      have hhas : (l.onDisconnected cfg now t .supervise).Has t k' false := h'
      rw [h.deeds hrole hhas]
      simp only [LinkTask.deeds, hpc]
      exact hruns
  | slept hpc hdue => exact h.tick hrole hpc
  | backedOff step hpc hwhy =>
      have hwaiting : Backoff.Runs cfg.backoffInitial cfg.backoffMax (l.loop cfg now t) []
          { now, signal := power, phase := k.pc.retrying, interval := k.backoff } := by
        rw [h.loop cfg now hrole]
        exact .refl
      rw [hpc] at hwaiting
      have hruns := h.resumed hrole (hwhy.imp (·.2) (·.2)) hwaiting
      rw [h.deeds hrole (h.backedOff cfg now)]
      simp only [LinkTask.deeds, hpc]
      exact hruns
  | joined hpc hended =>
      have hjoined : Has { l with supervisor := none } t k power := ⟨h.task, h.power⟩
      obtain ⟨k', h', hrests⟩ := hjoined.beginTeardown cfg
      exact h.rests hrole h' hrests (by rw [hpc]; rfl) (by simp only [LinkTask.deeds, hpc])

/-! ### Whoever runs -/

theorem step_of_cancelled {step : LinkStep} (h : l.taskStep cfg now t step = some l')
    (hk : l.tasks[t]? = some k) (hcancelled : k.cancelled) : step = .cancelled := by
  rw [taskStep, hk, Option.bind_eq_bind, Option.bind_some, if_pos hcancelled] at h
  cases step with
  | cancelled => rfl
  | _ => simp at h

/-- A supervisor whose cancellation is raised is over, unless it swallows it. -/
theorem Has.cancelled (h : l.Has t k power) (hrole : k.role = .supervise)
    (hcancel : (l.setTask t fun k => { k with cancelled := false }).cancelTask cfg t k.pc =
      some l') :
    Backoff.Runs cfg.backoffInitial cfg.backoffMax (l.loop cfg now t)
      (Lease.deeds now t l .cancelled l') (l'.loop cfg now t) := by
  have hset := h.setTask fun k => { k with cancelled := false }
  have hraised {l₁ : Lease} (h₁ : l₁.Has t { k with cancelled := false } power)
      (hl' : l' = l₁.setPc t .raised) :
      Backoff.Runs cfg.backoffInitial cfg.backoffMax (l.loop cfg now t)
        (Lease.deeds now t l .cancelled l') (l'.loop cfg now t) := by
    have h' := h₁.setPc .raised
    have hnone (connected : Bool) : k.deeds now connected .cancelled
        { k with pc := .raised, cancelled := false } = [] := by
      cases hpc : k.pc <;> simp [LinkTask.deeds, hpc, LinkPc.asleep]
    rw [hl', h.deeds hrole h', hnone, h.loop cfg now hrole, h'.loop cfg now hrole]
    exact Moves.ends.runs
  cases hpc : k.pc with
  | stoppingReader child =>
      rw [hpc] at hcancel
      obtain ⟨-, rfl⟩ : (l.setTask t _).childDone cfg child ∧ _ = l' := by
        simpa [Lease.cancelTask] using hcancel
      obtain ⟨k', h', hrests⟩ := hset.onReaderStopped cfg
      have hrests' : Rests k k' := ⟨hrests.role, hrests.phase, hrests.backoff⟩
      exact h.rests hrole h' hrests' (by rw [hpc]; rfl) (by simp only [LinkTask.deeds, hpc])
  | joining | returned | raised =>
      rw [hpc] at hcancel
      simp [Lease.cancelTask] at hcancel
  | connectLock | teardownLock =>
      rw [hpc] at hcancel
      obtain rfl : _ = l' := by simpa [Lease.cancelTask] using hcancel
      refine hraised ?_ rfl
      exact ⟨hset.task, hset.power⟩
  | disconnecting =>
      rw [hpc] at hcancel
      obtain rfl : _ = l' := by simpa [Lease.cancelTask] using hcancel
      refine hraised ?_ rfl
      exact ⟨hset.task, hset.power⟩
  | connecting | subscribing | unsubscribing =>
      rw [hpc] at hcancel
      obtain rfl : _ = l' := by simpa [Lease.cancelTask] using hcancel
      refine hraised ?_ rfl
      exact ⟨hset.task, hset.power⟩
  | scheduled | sleeping | backingOff =>
      rw [hpc] at hcancel
      obtain rfl : _ = l' := by simpa [Lease.cancelTask] using hcancel
      exact hraised hset rfl

/-- A loop is left alone but for the event. -/
theorem runs_of_power {o : Option LinkTask} (hpower : power' = power ∨ power' = false) :
    Backoff.Runs cfg.backoffInitial cfg.backoffMax (LinkTask.loop cfg now power o) []
      (LinkTask.loop cfg now power' o) := by
  rcases hpower with rfl | rfl
  · exact .refl
  · have hclear : LinkTask.loop cfg now false o =
        { LinkTask.loop cfg now power o with signal := false } := by
      cases o with
      | none => rfl
      | some k =>
          simp only [LinkTask.loop]
          split <;> rfl
    rw [hclear]
    exact Moves.clears.runs

section

variable {n : ℕ} (h : Edits cfg n l.book l'.book)
include h

theorem Edits.runs_others (hn : n < l.tasks.length) (hne : t ≠ n) :
    Backoff.Runs cfg.backoffInitial cfg.backoffMax (l.loop cfg now t) [] (l'.loop cfg now t) := by
  by_cases hlt : t < l.tasks.length
  · have hsame : l'.tasks[t]? = l.tasks[t]? := h.ran.others t hne hlt
    rw [Lease.loop, Lease.loop, hsame]
    exact runs_of_power h.power
  · -- what is created there has not run
    have hnone : l.tasks[t]? = none := List.getElem?_eq_none (by omega)
    have hloop (power : Bool) : LinkTask.loop cfg now power l'.tasks[t]? =
        LinkTask.loop cfg now power l.tasks[t]? := by
      rw [hnone]
      cases hk : l'.tasks[t]? with
      | none => rfl
      | some k =>
          rw [h.hired hn (show l.tasks.length ≤ t by omega) hk]
          rfl
    rw [Lease.loop, Lease.loop, hloop]
    exact runs_of_power h.power

theorem Edits.runs_self (hk : l.tasks[n]? = some k) (hrole : k.role ≠ .supervise) :
    Backoff.Runs cfg.backoffInitial cfg.backoffMax (l.loop cfg now n) [] (l'.loop cfg now n) := by
  obtain ⟨k', hk', hrole'⟩ := h.role hk
  have htask : l'.tasks[n]? = some k' := hk'
  have hloop (power : Bool) : LinkTask.loop cfg now power (some k') =
      LinkTask.loop cfg now power (some k) := by
    simp only [LinkTask.loop, hrole', if_neg hrole]
  rw [Lease.loop, Lease.loop, hk, htask, hloop]
  exact runs_of_power h.power

end

/-- What a coroutine that runs is to the loop of task `t`. -/
theorem runs_taskStep {n : ℕ} {step : LinkStep} (h : l.taskStep cfg now n step = some l') (t : ℕ) :
    Backoff.Runs cfg.backoffInitial cfg.backoffMax (l.loop cfg now t)
      (if n = t then deeds now t l step l' else []) (l'.loop cfg now t) := by
  have hedits : Edits cfg n l.book l'.book := Edits.taskStep h
  obtain ⟨k, hk, hcases⟩ := taskStep_cases h
  have hlt := (List.getElem?_eq_some_iff.mp hk).1
  by_cases hnt : n = t
  · subst hnt
    rw [if_pos rfl]
    obtain ⟨k', hk', hrole'⟩ := hedits.role hk
    have htask : l'.tasks[n]? = some k' := hk'
    by_cases hrole : k.role = .supervise
    · have hhas : l.Has n k l.transport.adapterPowerOn := ⟨hk, rfl⟩
      rcases hcases with ⟨hcancelled, hcancel⟩ | ⟨-, hresumes⟩
      · obtain rfl := step_of_cancelled h hk hcancelled
        exact hhas.cancelled hrole hcancel
      · exact hresumes.runs hhas hrole
    · have hnone : deeds now n l step l' = [] := by
        rw [deeds, hk, htask]
        exact if_neg hrole
      rw [hnone]
      exact hedits.runs_self hk hrole
  · rw [if_neg hnt]
    exact hedits.runs_others hlt (Ne.symm hnt)

/-! ### The calls on a session -/

theorem runs_spawn (l : Lease) {role : Role} (hrole : role ≠ .supervise) (pc : LinkPc) (t : ℕ) :
    Backoff.Runs cfg.backoffInitial cfg.backoffMax (l.loop cfg now t) []
      ((l.spawn role pc).loop cfg now t) := by
  show Backoff.Runs _ _ _ [] (LinkTask.loop cfg now l.transport.adapterPowerOn (l.tasks ++ [_])[t]?)
  rcases lt_trichotomy t l.tasks.length with hlt | rfl | hgt
  · rw [List.getElem?_append_left hlt]
    exact .refl
  · -- a task that does not supervise never attempts anything
    rw [List.getElem?_concat_length, Lease.loop, List.getElem?_eq_none le_rfl]
    simp only [LinkTask.loop, if_neg hrole]
    exact Moves.ends.runs
  · rw [Lease.loop, List.getElem?_eq_none hgt.le,
      List.getElem?_eq_none (by rw [List.length_append, List.length_singleton]; omega)]
    exact .refl

/-- A coroutine is called and runs. -/
theorem runs_called (role : Role) (pc : LinkPc) (hrole : role ≠ .supervise)
    (h : Edits cfg l.tasks.length (l.spawn role pc).book l'.book) (t : ℕ) :
    Backoff.Runs cfg.backoffInitial cfg.backoffMax (l.loop cfg now t) [] (l'.loop cfg now t) := by
  have hspawn : Backoff.Runs cfg.backoffInitial cfg.backoffMax (l.loop cfg now t) []
      ((l.spawn role pc).loop cfg now t) := runs_spawn l hrole pc t
  have hlength : l.tasks.length < (l.spawn role pc).tasks.length := length_spawn l role pc
  by_cases ht : t = l.tasks.length
  · subst ht
    exact hspawn.trans (h.runs_self (List.getElem?_concat_length) hrole)
  · exact hspawn.trans (h.runs_others hlength ht)

theorem loop_setCancelled (l : Lease) (s : ℕ) (f : LinkTask → Bool) (t : ℕ) :
    (l.setTask s fun k => { k with cancelled := f k }).loop cfg now t = l.loop cfg now t := by
  show LinkTask.loop cfg now _ (l.tasks.modify s _)[t]? = LinkTask.loop cfg now _ _
  rw [List.getElem?_modify]
  cases l.tasks[t]? with
  | none => rfl
  | some k =>
      simp only [Option.map_eq_map, Option.map_some]
      split <;> rfl

theorem runs_start (h : l.start cfg now = some l') (t : ℕ) :
    Backoff.Runs cfg.backoffInitial cfg.backoffMax (l.loop cfg now t) [] (l'.loop cfg now t) := by
  cases starts_of_start h with
  | already => exact .refl
  | connects =>
      refine runs_called .start .connectLock (by simp) ?_ t
      apply Edits.beginConnect
      exact .refl

theorem runs_stop (h : l.stop cfg = some l') (t : ℕ) :
    Backoff.Runs cfg.backoffInitial cfg.backoffMax (l.loop cfg now t) [] (l'.loop cfg now t) := by
  cases stops_of_stop h with
  | @cancels s =>
      rw [← loop_setCancelled l s (fun k => !k.pc.finished) t]
      exact runs_spawn _ (by simp) _ t
  | tearsDown =>
      refine runs_called .stop .teardownLock (by simp) ?_ t
      apply Edits.beginTeardown
      exact .refl

theorem runs_yieldLink (l : Lease) (seconds : ℚ) (t : ℕ) :
    Backoff.Runs cfg.backoffInitial cfg.backoffMax (l.loop cfg now t) []
      ((l.yieldLink cfg now seconds).loop cfg now t) := by
  rw [yieldLink]
  split
  · exact .refl
  · refine runs_called .yieldLink .teardownLock (by simp) ?_ t
    apply Edits.beginTeardown
    exact .refl

theorem loop_powerOn (l : Lease) (t : ℕ) :
    l.powerOn.loop cfg now t =
      { l.loop cfg now t with signal := true, phase := (l.loop cfg now t).phase.wake } := by
  show LinkTask.loop cfg now true (l.tasks.map _)[t]? = _
  rw [List.getElem?_map, Lease.loop]
  cases l.tasks[t]? with
  | none => rfl
  | some k =>
      obtain ⟨role, pc, cancelled, backoff⟩ := k
      cases role with
      | supervise => cases pc <;> rfl
      | start | yieldLink | stop => cases pc <;> rfl

end Lease

end Bedjet.Service
