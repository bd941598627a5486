import Bedjet.Service.Deciding

/-!
A dry run beside the real command. The flag is looked at in one place, after
every check and before the write: so the two wait for the same readings, raise
the same exceptions, and where one would write the other returns the payload.
-/

namespace Bedjet.Service

open Python Protocol Device Asyncio
open Encode (EncodeError)

/-- The same arguments with `dry_run=False`. -/
def Order.real (order : Order) : Order :=
  { order with dryRun := false }

def Pc.real : Pc → Pc
  | .before order wait => .before order.real wait
  | pc => pc

/-- The same command with `dry_run=False`, as long as it has not decided. -/
def Command.real (c : Command) : Command :=
  { c with dryRun := false, pc := c.pc.real }

theorem Pc.mapWait_real (f : Wait → Wait) (pc : Pc) : pc.real.mapWait f = (pc.mapWait f).real := by
  cases pc <;> rfl

@[simp] theorem Pc.unlooked_real (pc : Pc) : pc.real.unlooked = pc.unlooked := by
  cases pc <;> rfl

/-- `CommandRefused`, `AlreadySatisfied` and `CommandError` -/
def Raised.refusal : Raised → Bool
  | .refused _ | .alreadySatisfied _ | .encode (.command _) => true
  | .encode (.conversion _) | .unverified _ _ | .assertion => false

/-- What a dry run and the real command do in the segment in which they decide. -/
inductive Mirrors (shared : Shared) : Segment → Segment → Prop
  | raises {segment : Segment} {e : Raised} (hpc : segment.pc = .ended (.raised e))
      (hshared : segment.shared = shared) (hnone : segment.writes = []) :
      Mirrors shared segment segment
  | sends {dry real : Segment} {result : CommandResult} {order : Order} {before : Sample}
      (hdry : dry.pc = .ended (.returned result)) (hshared : dry.shared = shared)
      (hnone : dry.writes = []) (hreal : real.pc = .writing order before false)
      (hpayload : result.payload = order.payload) (hwrites : real.writes = [order.payload]) :
      Mirrors shared dry real

namespace Mirrors

variable {shared : Shared} {dry real : Segment}

@[simp] theorem writes_raises (shared : Shared) (e : Raised) :
    (Segment.raises shared e).writes = [] := rfl

theorem writes_after_based (segment : Segment) (sample : Sample) :
    (segment.after (.based sample)).writes = segment.writes := by
  simp [Segment.writes, Segment.after]

theorem raises_same (shared : Shared) (e : Raised) :
    Mirrors shared (Segment.raises shared e) (Segment.raises shared e) :=
  .raises rfl rfl rfl

theorem after (h : Mirrors shared dry real) (sample : Sample) :
    Mirrors shared (dry.after (.based sample)) (real.after (.based sample)) := by
  cases h with
  | raises hpc hshared hnone =>
      exact .raises hpc hshared (by rw [writes_after_based, hnone])
  | sends hdry hshared hnone hreal hpayload hwrites =>
      exact .sends hdry hshared (by rw [writes_after_based, hnone]) hreal hpayload
        (by rw [writes_after_based, hwrites])

theorem not_early (h : Mirrors shared dry real) : dry.pc.early = false := by
  cases h with
  | raises hpc => simp [hpc, Pc.early]
  | sends hdry => simp [hdry, Pc.early]

end Mirrors

section

variable {settleTimeout now : ℚ} {shared : Shared} {before : Sample}

theorem proceed_mirrors {order : Order} (hdry : order.dryRun) :
    Mirrors shared (proceed order shared before) (proceed order.real shared before) := by
  rw [proceed, proceed]
  split
  · exact (Mirrors.raises_same _ _).after before
  · split
    · rename_i hgoal
      rw [if_pos (show order.real.goal.satisfied before.state = true from hgoal)]
      exact (Mirrors.raises_same _ _).after before
    · rename_i hgoal
      rw [if_neg (show ¬order.real.goal.satisfied before.state = true from hgoal),
        if_neg (show ¬order.real.dryRun = true from Bool.false_ne_true)]
      exact .sends rfl rfl rfl rfl rfl rfl

theorem sendVerified_mirrors {order : Order} (hdry : order.dryRun)
    (hlatest : shared.latest = some before) :
    Mirrors shared (sendVerified settleTimeout now order shared)
      (sendVerified settleTimeout now order.real shared) := by
  simp only [sendVerified, hlatest]
  exact proceed_mirrors hdry

theorem from_mirrors (adjustment : Adjustment) (hlatest : shared.latest = some before) :
    Mirrors shared (adjustment.from settleTimeout now true shared before)
      (adjustment.from settleTimeout now false shared before) := by
  cases adjustment with
  | temperature celsius =>
      apply Mirrors.after
      rw [setTemperatureFrom, setTemperatureFrom]
      split
      · exact .raises_same _ _
      · split
        · exact .raises_same _ _
        · split
          · exact .raises_same _ _
          · split
            · exact .raises_same _ _
            · exact sendVerified_mirrors rfl hlatest
  | fan percent =>
      apply Mirrors.after
      rw [setFanPercentFrom, setFanPercentFrom]
      split
      · exact .raises_same _ _
      · split
        · exact .raises_same _ _
        · split
          · exact .raises_same _ _
          · exact sendVerified_mirrors rfl hlatest

/-- A command that is resumed decides, or has decided before, unless its wait
only looks at the event. -/
theorem Runs.late {c : Command} {why : Wakeup} {segment : Segment}
    (h : Runs settleTimeout now c shared (some why) segment) (hwhy : why ≠ .looked) :
    segment.pc.early = false := by
  cases h with
  | decides hpc hdecides => cases hdecides <;> rfl
  | looks => exact absurd rfl hwhy
  | misses => rfl
  | linkFails => rfl
  | returns hpc hsettles => cases hsettles <;> rfl
  | settles hpc hwhy hsettles => cases hsettles <;> rfl

/-- Called, a dry run waits for a reading as the real command does, or decides as
it does. -/
inductive Rehearses (shared : Shared) : Segment → Segment → Prop
  | waits {segment : Segment} (hearly : segment.pc.early) (hquiet : segment.events = []) :
      Rehearses shared segment { segment with pc := segment.pc.real }
  | decides {dry real : Segment} (h : Mirrors shared dry real) : Rehearses shared dry real

theorem sendVerified_rehearses {order : Order} (hdry : order.dryRun) :
    Rehearses shared (sendVerified settleTimeout now order shared)
      (sendVerified settleTimeout now order.real shared) := by
  cases hlatest : shared.latest with
  | none =>
      simp only [sendVerified, hlatest]
      exact .waits rfl rfl
  | some before => exact .decides (sendVerified_mirrors hdry hlatest)

theorem begin_rehearses (request : Request) :
    Rehearses shared (request.begin settleTimeout now true shared)
      (request.begin settleTimeout now false shared) := by
  cases request with
  | off => exact sendVerified_rehearses rfl
  | mode operand =>
      rw [Request.begin, Request.begin, setMode, setMode]
      split
      · exact .decides (.raises_same _ _)
      · split
        · exact .decides (.raises_same _ _)
        · exact sendVerified_rehearses rfl
  | adjust adjustment =>
      rw [Request.begin, Request.begin, beginAdjustment, beginAdjustment]
      cases hlatest : shared.latest with
      | none => exact .waits rfl rfl
      | some before => exact .decides (from_mirrors adjustment hlatest)

/-- Resumed before it has decided, it decides as the real command does. -/
theorem resume_mirrors {c : Command} {why : Wakeup} {dry : Segment} (hdry : c.dryRun)
    (hsound : c.Sound) (hearly : c.pc.early) (hwhy : why ≠ .looked)
    (h : c.pc.resume settleTimeout now c.dryRun shared why = some dry) :
    ∃ real, c.real.pc.resume settleTimeout now false shared why = some real ∧
      Mirrors shared dry real := by
  rw [hdry] at h
  cases hpc : c.pc with
  | fresh => simp [hpc] at h
  | writing => simp [hpc, Pc.early] at hearly
  | settling => simp [hpc, Pc.early] at hearly
  | ended => simp [hpc, Pc.early] at hearly
  | baseline adjustment wait =>
      have hreal : c.real.pc = .baseline adjustment wait := by simp [Command.real, hpc, Pc.real]
      rw [hreal]
      cases why with
      | looked => exact absurd rfl hwhy
      | woken =>
          obtain ⟨hwoken, rfl⟩ : wait.woken ∧ _ = dry := by simpa [hpc, Pc.resume] using h
          refine ⟨onWoken shared fun sample =>
            adjustment.from settleTimeout now false shared sample,
            by simp [Pc.resume, hwoken], ?_⟩
          cases hlatest : shared.latest with
          | none =>
              simp only [onWoken, hlatest]
              exact .raises_same _ _
          | some before =>
              simp only [onWoken, hlatest]
              exact from_mirrors adjustment hlatest
      | timedOut =>
          obtain ⟨hdue, rfl⟩ : (wait.looked ∧ wait.due ≤ now) ∧ _ = dry := by
            simpa [hpc, Pc.resume] using h
          exact ⟨.raises shared (silence settleTimeout), by simp [Pc.resume, hdue],
            .raises_same _ _⟩
      | writeReturned => simp [hpc, Pc.resume] at h
      | writeFailed => simp [hpc, Pc.resume] at h
  | before order wait =>
      have hreal : c.real.pc = .before order.real wait := by simp [Command.real, hpc, Pc.real]
      obtain ⟨horder, -⟩ : order.dryRun = c.dryRun ∧
          ∀ base, c.request.Orders base order.payload order.goal := by
        simpa [Command.Sound, hpc] using hsound
      rw [hreal]
      cases why with
      | looked => exact absurd rfl hwhy
      | woken =>
          obtain ⟨hwoken, rfl⟩ : wait.woken ∧ _ = dry := by simpa [hpc, Pc.resume] using h
          refine ⟨onWoken shared (proceed order.real shared), by simp [Pc.resume, hwoken], ?_⟩
          cases hlatest : shared.latest with
          | none =>
              simp only [onWoken, hlatest]
              exact .raises_same _ _
          | some before =>
              simp only [onWoken, hlatest]
              exact proceed_mirrors (horder.trans hdry)
      | timedOut =>
          obtain ⟨hdue, rfl⟩ : (wait.looked ∧ wait.due ≤ now) ∧ _ = dry := by
            simpa [hpc, Pc.resume] using h
          exact ⟨.raises shared (silence settleTimeout), by simp [Pc.resume, hdue],
            .raises_same _ _⟩
      | writeReturned => simp [hpc, Pc.resume] at h
      | writeFailed => simp [hpc, Pc.resume] at h

end

end Bedjet.Service
