import Bedjet.Service.Intakes
import Bedjet.Service.Resuming

/-!
What the link coroutines do to the reader: they start and stop it and cancel its
tasks, but they hear nothing and leave no more fragments to complete than there
were.
-/

namespace Bedjet.Service

open Asyncio Device

namespace Lease

variable (cfg : Config) (now : ℚ) (l : Lease) (t : ℕ)

@[simp] theorem reader_setPc (pc : LinkPc) : (l.setPc t pc).reader = l.reader := rfl

@[simp] theorem reader_setTask (f : LinkTask → LinkTask) : (l.setTask t f).reader = l.reader := rfl

@[simp] theorem reader_setLink (link : LinkState) : (l.setLink link).reader = l.reader := rfl

@[simp] theorem reader_release : l.release.reader = l.reader := rfl

@[simp] theorem reader_sleep : (l.sleep cfg now t).reader = l.reader := rfl

@[simp] theorem reader_spawn (role : Role) (pc : LinkPc) :
    (l.spawn role pc).reader = l.reader := rfl

@[simp] theorem reader_connectReturned (role : Role) :
    (l.connectReturned cfg now t role).reader = l.reader := by
  cases role <;> rfl

@[simp] theorem reader_connectRaised (backoff : ℚ) (role : Role) :
    (l.connectRaised now t backoff role).reader = l.reader := by
  cases role <;> rfl

@[simp] theorem reader_connectLocked (role : Role) :
    (l.connectLocked cfg now t role).reader = l.reader := by
  rw [connectLocked]
  split <;> simp

@[simp] theorem reader_beginConnect (role : Role) :
    (l.beginConnect cfg now t role).reader = l.reader := by
  rw [beginConnect]
  split <;> simp

@[simp] theorem reader_linkUp (role : Role) : (l.linkUp cfg now t role).reader = l.reader := by
  simp [linkUp]

theorem follows_onConnected (role : Role) :
    (l.onConnected cfg now t role).reader.Follows l.reader := by
  rw [onConnected]
  dsimp only
  split
  · rw [reader_linkUp]
    exact .of_eq rfl rfl
  · exact .of_eq rfl rfl

theorem follows_onSubscribed (role : Role) :
    (l.onSubscribed cfg now t role).reader.Follows l.reader := by
  rw [onSubscribed, reader_linkUp]
  exact .of_eq rfl rfl

@[simp] theorem reader_teardownReturned (role : Role) :
    (l.teardownReturned cfg now t role).reader = l.reader := by
  cases role <;> simp [teardownReturned]

theorem follows_teardownLocked : (l.teardownLocked cfg t).reader.Follows l.reader := by
  rw [teardownLocked]
  dsimp only
  split
  · rfl
  · split
    · -- poll mode: the poll loop is cancelled
      split
      · exact .of_eq rfl rfl
      · exact .of_eq rfl rfl
    · -- notify mode: so is the follow-up read in flight
      split
      · split
        · exact .of_eq rfl rfl
        · exact (Reader.follows_cancelCompletion _ _).trans (.of_eq rfl rfl)
      · exact .of_eq rfl rfl

theorem follows_beginTeardown : (l.beginTeardown cfg t).reader.Follows l.reader := by
  rw [beginTeardown]
  split
  · exact follows_teardownLocked cfg _ t
  · rfl

theorem follows_onReaderStopped : (l.onReaderStopped cfg t).reader.Follows l.reader := by
  rw [onReaderStopped]
  split
  · rfl
  · exact .of_eq rfl rfl

theorem follows_onDisconnected (role : Role) :
    (l.onDisconnected cfg now t role).reader.Follows l.reader := by
  simp [onDisconnected]

theorem follows_tick : (l.tick cfg now t).reader.Follows l.reader := by
  rw [tick]
  split
  · rfl
  · dsimp only
    split
    · rfl
    · exact follows_beginTeardown cfg _ t

variable {cfg now l t}

theorem follows_cancelTask {pc : LinkPc} {l' : Lease} (h : l.cancelTask cfg t pc = some l') :
    l'.reader.Follows l.reader := by
  cases pc with
  | stoppingReader child =>
      obtain ⟨-, rfl⟩ : l.childDone cfg child ∧ _ = l' := by simpa [cancelTask] using h
      exact follows_onReaderStopped cfg l t
  | joining | returned | raised => simp [cancelTask] at h
  | _ =>
      obtain rfl : _ = l' := by simpa [cancelTask] using h
      rfl

theorem follows_taskStep {step : LinkStep} {l' : Lease}
    (h : l.taskStep cfg now t step = some l') : l'.reader.Follows l.reader := by
  obtain ⟨k, -, ⟨-, hcancel⟩ | ⟨-, hresumes⟩⟩ := taskStep_cases h
  · exact follows_cancelTask (l := l.setTask t _) hcancel
  · cases hresumes with
    | begun | unsubscribed | backedOff => rfl
    | connects | connectFailed | subscribeFailed => simp
    | connected => exact follows_onConnected cfg now l t _
    | subscribed => exact follows_onSubscribed cfg now l t _
    | tears => exact follows_teardownLocked cfg _ t
    | readerStopped => exact follows_onReaderStopped cfg l t
    | disconnected => exact follows_onDisconnected cfg now l t _
    | slept => exact follows_tick cfg now l t
    | joined => exact follows_beginTeardown cfg _ t

theorem follows_start {l' : Lease} (h : l.start cfg now = some l') :
    l'.reader.Follows l.reader := by
  cases starts_of_start h with
  | already => rfl
  | connects => simp

theorem follows_stop {l' : Lease} (h : l.stop cfg = some l') : l'.reader.Follows l.reader := by
  cases stops_of_stop h with
  | cancels => rfl
  | tearsDown => exact follows_beginTeardown cfg _ _

theorem follows_yieldLink (seconds : ℚ) :
    (l.yieldLink cfg now seconds).reader.Follows l.reader := by
  rw [yieldLink]
  split
  · rfl
  · exact follows_beginTeardown cfg _ _

end Lease

end Bedjet.Service
