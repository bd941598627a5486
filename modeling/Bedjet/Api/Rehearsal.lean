import Bedjet.Api.Adoption
import Bedjet.Api.CallRuns
import Bedjet.Api.Deciding
import Bedjet.Api.Parsing
import Bedjet.Service.Rehearsal

/-!
A dry run of a command beside the real one, on the same service and under the
same schedule.
-/

namespace Bedjet.Api

open Python Protocol Device Service Asyncio
open Encode (EncodeError)

/-! ### What ends a command before it writes -/

/-- On this reading no conversion fails: an adjustment of a running unit has an
argument it can work with. -/
def Convertible (request : Request) (before : Sample) : Prop :=
  ∀ adjustment, request = .adjust adjustment → adjustment.Applies before → Fits request

section

variable {settleTimeout now : ℚ} {shared : Shared} {before : Sample} {dryRun : Bool}
  {adjustment : Adjustment}

theorem raises_of_order {e : EncodeError} (h : adjustment.order dryRun before = .error e) :
    Request.Raises (.adjust adjustment) e := by
  cases adjustment with
  | temperature celsius =>
      cases hsnap : Encode.snapTargetC celsius with
      | error e' =>
          obtain rfl : e' = e := by
            simpa [Adjustment.order, hsnap, bind, Except.bind] using h
          exact .target hsnap
      | ok rounded =>
          cases hset : Encode.setTemperature rounded before.packet.minTempC
              before.packet.maxTempC with
          | error e' =>
              obtain rfl : e' = e := by
                simpa [Adjustment.order, hsnap, hset, bind, Except.bind] using h
              exact .temperature hsnap hset
          | ok payload =>
              simp [Adjustment.order, hsnap, hset, bind, Except.bind, pure, Except.pure] at h
  | fan percent =>
      cases hsnap : Encode.snapFanPercent percent with
      | error e' =>
          obtain rfl : e' = e := by
            simpa [Adjustment.order, hsnap, bind, Except.bind] using h
          exact .percent hsnap
      | ok snapped =>
          cases hset : Encode.setFanPercent snapped with
          | error e' => exact absurd hset (Encode.setFanPercent_ne_error hsnap _)
          | ok payload =>
              simp [Adjustment.order, hsnap, hset, bind, Except.bind, pure, Except.pure] at h

/-- An argument that cannot be worked with fails in a conversion. -/
theorem order_of_not_fits (hfits : ¬Fits (.adjust adjustment)) (dryRun : Bool) (before : Sample) :
    ∃ e, adjustment.order dryRun before = .error (.conversion e) := by
  cases adjustment with
  | temperature celsius =>
      rw [fits_target_iff, Bool.not_eq_true] at hfits
      obtain ⟨e, he⟩ := Encode.snapTargetC_unconverted hfits
      exact ⟨e, by simp [Adjustment.order, he, bind, Except.bind]⟩
  | fan percent =>
      have hdigits : ¬percent.natAbs < 10 ^ 4300 := hfits
      have hsnap := Encode.snapFanPercent_unwritten hdigits
      exact ⟨.value, by simp [Adjustment.order, hsnap, bind, Except.bind]⟩

theorem proceed_refusal {order : Order} {e : Raised}
    (h : (proceed order shared before).pc = .ended (.raised e)) : e.refusal := by
  rw [proceed] at h
  split at h
  · obtain rfl : _ = e := by simpa [Segment.raises, Segment.after] using h
    rfl
  · split at h
    · obtain rfl : _ = e := by simpa [Segment.raises, Segment.after] using h
      rfl
    · split at h
      · simp [Segment.returns, Segment.after] at h
      · simp at h

/-- Where an adjustment does not apply, it is refused. -/
theorem from_of_not_applies (happlies : ¬adjustment.Applies before) {e : Raised}
    (h : (adjustment.from settleTimeout now dryRun shared before).pc = .ended (.raised e)) :
    e.refusal := by
  cases adjustment with
  | temperature celsius =>
      rw [Adjustment.from, setTemperatureFrom] at h
      split at h
      · obtain rfl : _ = e := by simpa [Segment.raises, Segment.after] using h
        rfl
      · rename_i hon
        split at h
        · obtain rfl : _ = e := by simpa [Segment.raises, Segment.after] using h
          rfl
        · rename_i hbounds
          refine absurd ⟨not_not.mp hon, ?_, ?_⟩ happlies <;>
            simp_all [Option.isSome_iff_ne_none]
  | fan percent =>
      rw [Adjustment.from, setFanPercentFrom] at h
      split at h
      · obtain rfl : _ = e := by simpa [Segment.raises, Segment.after] using h
        rfl
      · rename_i hon
        exact absurd (not_not.mp hon) happlies

theorem from_refusal (hlatest : shared.latest = some before)
    (hconvertible : Convertible (.adjust adjustment) before) {e : Raised}
    (h : (adjustment.from settleTimeout now dryRun shared before).pc = .ended (.raised e)) :
    e.refusal := by
  by_cases happlies : adjustment.Applies before
  · rw [Adjustment.from_eq happlies hlatest] at h
    split at h
    · rename_i error horder
      obtain ⟨message, rfl⟩ :=
        command_of_raises (hconvertible _ rfl happlies) (raises_of_order horder)
      obtain rfl : _ = e := by simpa [Segment.raises, Segment.after] using h
      rfl
    · exact proceed_refusal h
  · exact from_of_not_applies happlies h

theorem from_converts (hlatest : shared.latest = some before)
    (hconvertible : ¬Convertible (.adjust adjustment) before) :
    ∃ e, (adjustment.from settleTimeout now dryRun shared before).pc =
      .ended (.raised (.encode (.conversion e))) := by
  simp only [Convertible, not_forall] at hconvertible
  obtain ⟨adjustment', hsame, happlies, hfits⟩ := hconvertible
  obtain rfl : adjustment = adjustment' := by simpa using hsame
  obtain ⟨e, horder⟩ := order_of_not_fits hfits dryRun before
  refine ⟨e, ?_⟩
  rw [Adjustment.from_eq happlies hlatest, horder]
  rfl

/-! ### Called, and woken -/

theorem begin_refusal {request : Request}
    (hconvertible : ∀ before, shared.latest = some before → Convertible request before) {e : Raised}
    (h : (request.begin settleTimeout now dryRun shared).pc = .ended (.raised e)) : e.refusal := by
  have hsend {order : Order}
      (h : (sendVerified settleTimeout now order shared).pc = .ended (.raised e)) : e.refusal := by
    rw [sendVerified] at h
    split at h
    · exact proceed_refusal h
    · simp [awaitState] at h
  cases request with
  | off => exact hsend h
  | mode operand =>
      rw [Request.begin, setMode] at h
      split at h
      · obtain rfl : _ = e := by simpa [Segment.raises] using h
        rfl
      · split at h
        · obtain rfl : _ = e := by simpa [Segment.raises] using h
          rfl
        · exact hsend h
  | adjust adjustment =>
      rw [Request.begin, beginAdjustment] at h
      split at h
      · rename_i before hlatest
        exact from_refusal hlatest (hconvertible before hlatest) h
      · simp [awaitState] at h

theorem begin_converts {request : Request} (hlatest : shared.latest = some before)
    (hconvertible : ¬Convertible request before) :
    ∃ e, (request.begin settleTimeout now dryRun shared).pc =
      .ended (.raised (.encode (.conversion e))) := by
  cases request with
  | off => exact absurd (fun adjustment h => by simp at h) hconvertible
  | mode operand => exact absurd (fun adjustment h => by simp at h) hconvertible
  | adjust adjustment =>
      rw [Request.begin, beginAdjustment, hlatest]
      exact from_converts hlatest hconvertible

theorem resume_refusal {c : Command} {why : Wakeup} {segment : Segment} (hsound : c.Sound)
    (hearly : c.pc.early)
    (hfinds : c.pc.woken → ∃ before, shared.latest = some before ∧ Convertible c.request before)
    (h : c.pc.resume settleTimeout now dryRun shared why = some segment) {e : Raised}
    (hpc : segment.pc = .ended (.raised e)) : e.refusal := by
  by_cases hlooked : why = .looked
  · subst hlooked
    obtain ⟨hunlooked, rfl⟩ : c.pc.unlooked ∧ _ = segment := by simpa using h
    rw [Pc.mapWait_eq_ended] at hpc
    simp [hpc, Pc.unlooked] at hunlooked
  cases hc : c.pc with
  | fresh => simp [hc] at h
  | writing => simp [hc, Pc.early] at hearly
  | settling => simp [hc, Pc.early] at hearly
  | ended => simp [hc, Pc.early] at hearly
  | baseline adjustment wait =>
      have hrequest : c.request = .adjust adjustment := by simpa [Command.Sound, hc] using hsound
      cases why with
      | looked => exact absurd rfl hlooked
      | woken =>
          obtain ⟨hwoken, rfl⟩ : wait.woken ∧ _ = segment := by simpa [hc, Pc.resume] using h
          obtain ⟨before, hlatest, hconvertible⟩ := hfinds (by simpa [hc, Pc.woken] using hwoken)
          rw [hrequest] at hconvertible
          simp only [onWoken, hlatest] at hpc
          exact from_refusal hlatest hconvertible hpc
      | timedOut =>
          obtain ⟨-, rfl⟩ : (wait.looked ∧ wait.due ≤ now) ∧ _ = segment := by
            simpa [hc, Pc.resume] using h
          obtain rfl : _ = e := by simpa [Segment.raises] using hpc
          rfl
      | writeReturned => simp [hc, Pc.resume] at h
      | writeFailed => simp [hc, Pc.resume] at h
  | before order wait =>
      cases why with
      | looked => exact absurd rfl hlooked
      | woken =>
          obtain ⟨hwoken, rfl⟩ : wait.woken ∧ _ = segment := by simpa [hc, Pc.resume] using h
          obtain ⟨before, hlatest, -⟩ := hfinds (by simpa [hc, Pc.woken] using hwoken)
          simp only [onWoken, hlatest] at hpc
          exact proceed_refusal hpc
      | timedOut =>
          obtain ⟨-, rfl⟩ : (wait.looked ∧ wait.due ≤ now) ∧ _ = segment := by
            simpa [hc, Pc.resume] using h
          obtain rfl : _ = e := by simpa [Segment.raises] using hpc
          rfl
      | writeReturned => simp [hc, Pc.resume] at h
      | writeFailed => simp [hc, Pc.resume] at h

/-- A command that was woken and finds no reading, or one on which a conversion
fails, ends with an exception that is no refusal. -/
theorem resume_fails {c : Command} (hsound : c.Sound) (hearly : c.pc.early) (hwoken : c.pc.woken)
    (hfails : ¬∃ before, shared.latest = some before ∧ Convertible c.request before) :
    ∃ segment e, c.pc.resume settleTimeout now dryRun shared .woken = some segment ∧
      segment.pc = .ended (.raised e) ∧ e.refusal = false := by
  cases hc : c.pc with
  | fresh => simp [hc, Pc.woken] at hwoken
  | writing => simp [hc, Pc.early] at hearly
  | settling => simp [hc, Pc.early] at hearly
  | ended => simp [hc, Pc.early] at hearly
  | baseline adjustment wait =>
      have hrequest : c.request = .adjust adjustment := by simpa [Command.Sound, hc] using hsound
      have hset : wait.woken := by simpa [hc, Pc.woken] using hwoken
      refine ⟨onWoken shared fun sample =>
        adjustment.from settleTimeout now dryRun shared sample, ?_⟩
      cases hlatest : shared.latest with
      | none => exact ⟨.assertion, by simp [Pc.resume, hset], by simp [onWoken, hlatest,
          Segment.raises], rfl⟩
      | some before =>
          have hconvertible : ¬Convertible (.adjust adjustment) before := fun h =>
            hfails ⟨before, hlatest, hrequest ▸ h⟩
          obtain ⟨e, hpc⟩ : ∃ e, (adjustment.from settleTimeout now dryRun shared before).pc =
              .ended (.raised (.encode (.conversion e))) := from_converts hlatest hconvertible
          exact ⟨.encode (.conversion e), by simp [Pc.resume, hset], by simpa [onWoken, hlatest],
            rfl⟩
  | before order wait =>
      have hset : wait.woken := by simpa [hc, Pc.woken] using hwoken
      refine ⟨onWoken shared (proceed order shared), ?_⟩
      cases hlatest : shared.latest with
      | none => exact ⟨.assertion, by simp [Pc.resume, hset], by simp [onWoken, hlatest,
          Segment.raises], rfl⟩
      | some before =>
          -- an adjustment is not here, and nothing else converts its arguments
          refine absurd ⟨before, hlatest, fun adjustment hrequest _ => ?_⟩ hfails
          exact absurd hc (hsound.not_before hrequest)

end

end Bedjet.Api
