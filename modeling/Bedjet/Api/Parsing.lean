import Bedjet.Api.Fans

/-!
What the API does with an argument that it cannot parse: where every conversion
succeeds it refuses it, and otherwise an exception of the language leaves it.
-/

namespace Bedjet.Api

open Python Protocol Device Service

/-- The conversions of the arguments succeed: a single target is a finite double
when doubled, and a percentage can be written out. -/
def ApiRequest.Converts : ApiRequest → Prop
  | .setTemperature (some target) none => (target.lift (· * tempScale)).isFinite
  | .setTemperature none (some target) =>
      ((fahrenheitToC target).lift (· * tempScale)).isFinite
  | .setFan percent => percent.natAbs < 10 ^ 4300
  | .setTemperature _ _ | .setMode _ | .turnOff => True

theorem resolveTarget_escaped {target : Double}
    (h : (target.lift (· * tempScale)).isFinite = false) :
    ∃ e, resolveTarget target = .error (.escaped (.encode (.conversion e))) := by
  obtain ⟨e, he⟩ := Encode.snapTargetC_unconverted h
  exact ⟨e, by simp [resolveTarget, he, ofEncodeError]⟩

namespace ApiRequest

theorem converts_iff_of_single {celsius fahrenheit : Option Double} {target : Double}
    (h : singleTarget celsius fahrenheit = some target) :
    (setTemperature celsius fahrenheit).Converts ↔ (target.lift (· * tempScale)).isFinite := by
  rcases singleTarget_cases h with ⟨rfl, rfl⟩ | ⟨given, rfl, rfl, rfl⟩ <;> rfl

theorem converts_of_not_single {celsius fahrenheit : Option Double}
    (h : singleTarget celsius fahrenheit = none) :
    (setTemperature celsius fahrenheit).Converts := by
  cases celsius <;> cases fahrenheit <;> trivial

theorem refused_of_converts {request : ApiRequest} {answer : ApiAnswer}
    (h : request.Converts) (herror : request.resolve = .error answer) :
    ∃ message, answer = .refused message := by
  have hresolves := request.resolves
  rw [herror] at hresolves
  cases hresolves with
  | refused detail => exact ⟨detail, rfl⟩
  | targetRaises hsingle hsnap =>
      obtain ⟨message, rfl⟩ := Encode.error_snapTargetC ((converts_iff_of_single hsingle).mp h) hsnap
      exact ⟨message, rfl⟩
  | fanRaises hsnap =>
      obtain ⟨message, rfl⟩ := Encode.error_snapFanPercent h hsnap
      exact ⟨message, rfl⟩

theorem escapes_of_not_converts {request : ApiRequest} (h : ¬request.Converts) :
    ∃ e, request.resolve = .error (.escaped (.encode (.conversion e))) := by
  cases request with
  | turnOff => exact absurd trivial h
  | setMode mode => exact absurd trivial h
  | setTemperature celsius fahrenheit =>
      cases hsingle : singleTarget celsius fahrenheit with
      | none => exact absurd (converts_of_not_single hsingle) h
      | some target =>
          rw [converts_iff_of_single hsingle, Bool.not_eq_true] at h
          rw [resolve_of_single hsingle]
          exact resolveTarget_escaped h
  | setFan percent =>
      have hdigits : ¬percent.natAbs < 10 ^ 4300 := h
      have hsnap := Encode.snapFanPercent_unwritten hdigits
      exact ⟨.value, by simp [resolve, hsnap, ofEncodeError]⟩

end ApiRequest

end Bedjet.Api
