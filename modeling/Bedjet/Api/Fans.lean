import Bedjet.Api.CallRuns
import Bedjet.Api.Deciding

/-!
A fan speed from the request to the wire. The API snaps it to a step and the
commander snaps it again, which changes nothing; so the step the API settles on
is the one that is sent, or found.
-/

namespace Bedjet.Api

open Python Protocol Device Service Asyncio
open Encode (opcodeFan fanPercentToStep fanPercentMin fanPercentMax snapFanPercent setFanPercent)

/-- What the API makes of a fan speed that it snaps to step `b`. -/
def resolvedFan (b : UInt8) : Resolved where
  request := .adjust (.fan (fanStepToPercent b.toNat))
  description := "fan " ++ toString (fanStepToPercent b.toNat) ++ "%"

/-- What the commander sends, describes and verifies for it. -/
def fanOrder (b : UInt8) (dryRun : Bool) : Order where
  payload := [opcodeFan, b]
  description := "fan -> " ++ toString (fanStepToPercent b.toNat) ++ "%"
  goal := .fan (fanStepToPercent b.toNat)
  dryRun

/-! ### What the API and the commander make of a fan speed -/

/-- The API resolves a fan speed in range. -/
theorem resolve_setFan {percent : ℤ} (hlo : fanPercentMin ≤ percent)
    (hhi : percent ≤ fanPercentMax) :
    ∃ b : UInt8, (b.toNat : ℤ) = fanPercentToStep percent ∧ b.toNat ≤ 19 ∧
      (ApiRequest.setFan percent).resolve = .ok (resolvedFan b) := by
  have hsnap : snapFanPercent percent = .ok (fanStepToPercent (fanPercentToStep percent)) :=
    Encode.snapFanPercent_iff.mpr ⟨⟨hlo, hhi⟩, rfl⟩
  obtain ⟨b, hb, hrange, -, -⟩ := Encode.setFanPercent_of_snapped hsnap
  refine ⟨b, hb, hrange, ?_⟩
  rw [ApiRequest.resolve, hsnap, ← hb]
  rfl

/-- Any other is refused, if it can be written out. -/
theorem resolve_setFan_refused {percent : ℤ} (hdigits : percent.natAbs < 10 ^ 4300)
    (hout : ¬(fanPercentMin ≤ percent ∧ percent ≤ fanPercentMax)) :
    ∃ message, (ApiRequest.setFan percent).resolve = .error (.refused message) := by
  have hsnaps := Encode.percentSnaps percent
  rw [ApiRequest.resolve]
  generalize snapFanPercent percent = result at hsnaps ⊢
  cases hsnaps with
  | snapped hrange => exact absurd hrange hout
  | outside _ _ message => exact ⟨message, rfl⟩
  | unwritten hlong => exact absurd hdigits hlong

/-- Snapping a step changes nothing. -/
theorem snapFanPercent_step {b : UInt8} (hb : b.toNat ≤ 19) :
    snapFanPercent (fanStepToPercent b.toNat) = .ok (fanStepToPercent b.toNat) := by
  have hindex : fanPercentToStep (fanStepToPercent b.toNat) = b.toNat := by
    rw [← Encode.index_fanPercents, ← Encode.point_fanPercents,
      Encode.fanPercents.index_point nearest_roundHalfEven]
  refine Encode.snapFanPercent_iff.mpr ⟨?_, by rw [hindex]⟩
  simp only [fanStepToPercent, fanPercentMin, fanPercentMax, fanPercentBase, fanPercentStep,
    fanStepMax]
  omega

/-- The commander orders the step it was given. -/
theorem order_fan {b : UInt8} (hb : b.toNat ≤ 19) (dryRun : Bool) (base : Sample) :
    (Adjustment.fan (fanStepToPercent b.toNat)).order dryRun base = .ok (fanOrder b dryRun) := by
  have hsnap := snapFanPercent_step hb
  obtain ⟨b', -, -, hsame, hset⟩ := Encode.setFanPercent_of_snapped hsnap
  have hbyte : b = b' := by
    have hstep : (b.toNat : ℤ) = b'.toNat := fanStepToPercent_injective hsame
    exact UInt8.toNat_inj.mp (by exact_mod_cast hstep)
  subst hbyte
  simp [Adjustment.order, hsnap, hset, bind, Except.bind, pure, Except.pure, fanOrder]

namespace System

variable {cfg : Config} {s s₁ t : System} {request : ApiRequest} {dryRun : Bool} {call : ApiCall}

/-- A call that was made in some state, and where the service has got to since. -/
def Asked (cfg : Config) (request : ApiRequest) (dryRun : Bool) (t : System) (call : ApiCall) :
    Prop :=
  ∃ s s₁ actions, Reachable cfg s ∧ (machine cfg).step s (.call request dryRun) = some s₁ ∧
    (machine cfg).run s₁ actions = some t ∧ t.calls[s.calls.length]? = some call

/-- A call that the API refuses begins no command, so that nothing is written for
it, and its answer is the refusal. -/
theorem Asked.refused {refusal : ApiAnswer} (h : Asked cfg request dryRun t call)
    (hresolve : request.resolve = .error refusal) :
    call.command = none ∧ call.answer = some refusal := by
  obtain ⟨s, s₁, actions, hreach, hstep, hrun, hcall⟩ := h
  cases begins_of_step hstep with
  | @refused refusal' hrefusal hbegan =>
      obtain rfl : refusal = refusal' := Except.error.inj (hresolve.symm.trans hrefusal)
      obtain ⟨call', hcall', hcontinues⟩ := call_run hbegan (hreach.step hstep).sound hrun
      obtain rfl : call = call' := Option.some.inj (hcall.symm.trans hcall')
      rw [hcontinues.answered rfl]
      exact ⟨rfl, rfl⟩
  | unavailable hresolved => simp [hresolve] at hresolved
  | commands hresolved => simp [hresolve] at hresolved

/-- What a call for a fan speed has come to, once its command has based itself
on a reading of a running unit. -/
theorem Asked.judged {b : UInt8} {n : ℕ} {base : Sample} (h : Asked cfg request dryRun t call)
    (hresolve : request.resolve = .ok (resolvedFan b)) (hb : b.toNat ≤ 19)
    (hcommand : call.command = some n) (hbased : .command n (.based base) ∈ t.trace)
    (hrunning : base.state.power = .on) :
    ∃ c, t.commander.commands[n]? = some c ∧ call.Told c ∧
      Judged (.ok (fanOrder b call.dryRun)) base (writesOf n t.trace) c.pc := by
  obtain ⟨s, s₁, actions, hreach, hstep, hrun, hcall⟩ := h
  have hreach' := (hreach.step hstep).run hrun
  obtain ⟨resolved, c, hresolved, -, hc, hrequest, htold⟩ :=
    command_of_call hreach hstep hrun hcall hcommand
  obtain rfl : resolvedFan b = resolved := Except.ok.inj (hresolve.symm.trans hresolved)
  have hjudged := hreach'.decided n c _ base hc hrequest hbased hrunning
  rw [htold.1, order_fan hb] at hjudged
  exact ⟨c, hc, htold, hjudged⟩

end System

end Bedjet.Api
