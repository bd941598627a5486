import Bedjet.Api.Fans

/-!
What the API tells a client that it may ask for, and what it then accepts.
-/

namespace Bedjet.Api

open Python Protocol Device Service
open Encode (fanPercentToStep fanPercentMin fanPercentMax snapFanPercent snapTargetC halfDegrees)

/-- The limits of this build; the device's own are on every snapshot. -/
structure Capabilities where
  address : String
  modes : List String
  fanPercentMin : ℤ
  fanPercentMax : ℤ
  fanPercentStep : ℤ
  temperatureStepC : ℚ
  /-- a sanity envelope, not a permitted range -/
  absoluteMinC : ℚ
  absoluteMaxC : ℚ

/-- `BedJetAPI.capabilities` -/
def capabilities (address : String) : Capabilities where
  address := address
  modes := availableModes
  fanPercentMin := Encode.fanPercentMin
  fanPercentMax := Encode.fanPercentMax
  fanPercentStep := Protocol.fanPercentStep
  temperatureStepC := 1 / tempScale
  absoluteMinC := Protocol.absoluteMinC
  absoluteMaxC := Protocol.absoluteMaxC

/-! ### Modes -/

theorem ofName_eq_some_iff {key : List Char} {mode : CommandMode} :
    CommandMode.ofName key = some mode ↔ mode.name.toList = key := by
  constructor
  · intro h
    simpa using List.find?_some h
  · rintro rfl
    cases mode <;> decide

theorem upper_lower_name {mode : CommandMode} (hmode : mode ∈ unlockedModes) :
    upper (lower mode.name).toList = mode.name.toList := by
  simp only [unlockedModes, List.mem_cons, List.not_mem_nil, or_false] at hmode
  rcases hmode with rfl | rfl | rfl | rfl <;> decide +kernel

theorem mem_availableModes {name : String} :
    name ∈ availableModes ↔ ∃ mode ∈ unlockedModes, lower mode.name = name := by
  simp [availableModes]

/-- A mode is accepted just if it is one of those listed, whatever the case of its
letters and the space around it. -/
theorem resolve_setMode_iff {mode : String} :
    (∃ resolved, (ApiRequest.setMode mode).resolve = .ok resolved) ↔
      ∃ name ∈ availableModes, upper (strip mode) = upper name.toList := by
  have hlisted : (∃ name ∈ availableModes, upper (strip mode) = upper name.toList) ↔
      ∃ m ∈ unlockedModes, CommandMode.ofName (upper (strip mode)) = some m := by
    constructor
    · rintro ⟨name, hname, hsame⟩
      obtain ⟨m, hm, rfl⟩ := mem_availableModes.mp hname
      exact ⟨m, hm, ofName_eq_some_iff.mpr (by rw [hsame, upper_lower_name hm])⟩
    · rintro ⟨m, hm, hof⟩
      refine ⟨lower m.name, mem_availableModes.mpr ⟨m, hm, rfl⟩, ?_⟩
      rw [upper_lower_name hm, ofName_eq_some_iff.mp hof]
  rw [hlisted, ApiRequest.resolve]
  cases hof : CommandMode.ofName (upper (strip mode)) with
  | none => simp
  | some m => by_cases hm : m ∈ unlockedModes <;> simp [hm]

/-! ### Fan speeds and targets -/

theorem resolve_setFan_iff {percent : ℤ} :
    (∃ resolved, (ApiRequest.setFan percent).resolve = .ok resolved) ↔
      fanPercentMin ≤ percent ∧ percent ≤ fanPercentMax := by
  rw [ApiRequest.resolve]
  cases hsnap : snapFanPercent percent with
  | error e =>
      refine iff_of_false (by simp) fun hrange => ?_
      have hok := Encode.snapFanPercent_iff.mpr ⟨hrange, rfl⟩
      simp [hsnap] at hok
  | ok snapped => exact iff_of_true ⟨_, rfl⟩ (Encode.snapFanPercent_iff.mp hsnap).1

/-- What a target in either unit is resolved to. -/
theorem resolveTarget_iff {target : Double} {resolved : Resolved} :
    resolveTarget target = .ok resolved ↔ ∃ snapped, snapTargetC target = .ok snapped ∧
      resolved = { request := .adjust (.temperature (.finite snapped))
                   description := "target " ++ fixed 1 snapped ++ "C" } := by
  rw [resolveTarget]
  cases snapTargetC target with
  | error e => simp
  | ok snapped => simp [eq_comm]

/-- A fan speed in range is resolved to the nearest of the steps. -/
theorem resolve_setFan_step {percent : ℤ} {resolved : Resolved}
    (h : (ApiRequest.setFan percent).resolve = .ok resolved) :
    ∃ k : ℤ, resolved.request = .adjust (.fan (fanPercentMin + fanPercentStep * k)) ∧
      2 * |fanPercentMin + fanPercentStep * k - percent| ≤ fanPercentStep := by
  have hnear := Encode.fanPercents.abs_snap_sub_le nearest_roundHalfEven (percent : ℚ)
  rw [Rounding.Grid.snap, Encode.index_fanPercents, Encode.point_fanPercents,
    show Encode.fanPercents.step = ((fanPercentStep : ℤ) : ℚ) from rfl,
    le_div_iff₀ two_pos] at hnear
  obtain ⟨hlo, hhi⟩ := resolve_setFan_iff.mp ⟨resolved, h⟩
  rw [ApiRequest.resolve, Encode.snapFanPercent_iff.mpr ⟨⟨hlo, hhi⟩, rfl⟩] at h
  obtain rfl := Except.ok.inj h
  refine ⟨fanPercentToStep percent, rfl, ?_⟩
  rw [mul_comm]
  exact_mod_cast hnear

/-- A step is what it is resolved to. -/
theorem resolve_setFan_point {k : ℤ} (hlo : 0 ≤ k)
    (hhi : fanPercentMin + fanPercentStep * k ≤ fanPercentMax) :
    ∃ description, (ApiRequest.setFan (fanPercentMin + fanPercentStep * k)).resolve =
      .ok ⟨.adjust (.fan (fanPercentMin + fanPercentStep * k)), description⟩ := by
  have hindex : fanPercentToStep (fanPercentMin + fanPercentStep * k) = k := by
    show fanPercentToStep (fanStepToPercent k) = k
    rw [← Encode.index_fanPercents, ← Encode.point_fanPercents,
      Encode.fanPercents.index_point nearest_roundHalfEven]
  have hsnap := Encode.snapFanPercent_iff.mpr
    ⟨⟨by simp only [fanPercentMin, fanPercentStep]; omega, hhi⟩, rfl⟩
  rw [ApiRequest.resolve, hsnap, hindex]
  exact ⟨_, rfl⟩

/-- A target is resolved to a multiple of the step, which a byte can hold. -/
theorem resolve_setTemperature_step {celsius fahrenheit : Option Double} {resolved : Resolved}
    (h : (ApiRequest.setTemperature celsius fahrenheit).resolve = .ok resolved) :
    ∃ k : ℕ, k ≤ 0xFF ∧
      resolved.request = .adjust (.temperature (.finite (k * (1 / tempScale)))) := by
  obtain ⟨target, htarget⟩ : ∃ target, resolveTarget target = .ok resolved := by
    cases celsius <;> cases fahrenheit <;> simp [ApiRequest.resolve] at h <;> exact ⟨_, h⟩
  obtain ⟨snapped, hsnap, rfl⟩ := resolveTarget_iff.mp htarget
  obtain ⟨raw, hraw, rfl⟩ := Encode.snapTargetC_iff.mp hsnap
  obtain ⟨hlo, hhi⟩ := Encode.targetRaw_eq_ok hraw
  refine ⟨raw.toNat, by omega, ?_⟩
  have hcast : ((raw.toNat : ℕ) : ℚ) = raw := by exact_mod_cast Int.toNat_of_nonneg hlo
  rw [Encode.point_halfDegrees, hcast, mul_one_div]

/-- Such a multiple is what it is resolved to. -/
theorem resolve_setTemperature_point {k : ℕ} (hk : k ≤ 0xFF) :
    ∃ description,
      (ApiRequest.setTemperature (some (.finite (k * (1 / tempScale)))) none).resolve =
        .ok ⟨.adjust (.temperature (.finite (k * (1 / tempScale)))), description⟩ := by
  have hlo : 0 ≤ (k : ℤ) := by omega
  have hhi : (k : ℤ) ≤ 0xFF := by omega
  have hraw := Encode.targetRaw_snapped hlo hhi
  have hpoint : (k : ℚ) * (1 / tempScale) = halfDegrees.point k := by
    rw [Encode.point_halfDegrees, mul_one_div, Int.cast_natCast]
  rw [← Encode.point_halfDegrees] at hraw
  have hsnap := Encode.snapTargetC_iff.mpr ⟨(k : ℤ), hraw, rfl⟩
  have htarget := resolveTarget_iff.mpr ⟨_, hsnap, rfl⟩
  rw [hpoint]
  exact ⟨_, htarget⟩

/-! ### What a client may rely on -/

/-- What is listed is what is accepted. -/
structure Capabilities.Honest (c : Capabilities) : Prop where
  modes : ∀ mode, (∃ resolved, (ApiRequest.setMode mode).resolve = .ok resolved) ↔
    ∃ name ∈ c.modes, upper (strip mode) = upper name.toList
  fan : ∀ percent, (∃ resolved, (ApiRequest.setFan percent).resolve = .ok resolved) ↔
    c.fanPercentMin ≤ percent ∧ percent ≤ c.fanPercentMax
  /-- it is taken to the nearest step -/
  fanStep : ∀ percent resolved, (ApiRequest.setFan percent).resolve = .ok resolved →
    ∃ k : ℤ, resolved.request = .adjust (.fan (c.fanPercentMin + c.fanPercentStep * k)) ∧
      2 * |c.fanPercentMin + c.fanPercentStep * k - percent| ≤ c.fanPercentStep
  /-- a step is taken as it is -/
  fanPoint : ∀ k : ℤ, 0 ≤ k → c.fanPercentMin + c.fanPercentStep * k ≤ c.fanPercentMax →
    ∃ description, (ApiRequest.setFan (c.fanPercentMin + c.fanPercentStep * k)).resolve =
      .ok ⟨.adjust (.fan (c.fanPercentMin + c.fanPercentStep * k)), description⟩
  targetStep : ∀ celsius fahrenheit resolved,
    (ApiRequest.setTemperature celsius fahrenheit).resolve = .ok resolved →
      ∃ k : ℕ, k ≤ 0xFF ∧
        resolved.request = .adjust (.temperature (.finite (k * c.temperatureStepC)))
  targetPoint : ∀ k : ℕ, k ≤ 0xFF → ∃ description,
    (ApiRequest.setTemperature (some (.finite (k * c.temperatureStepC))) none).resolve =
      .ok ⟨.adjust (.temperature (.finite (k * c.temperatureStepC))), description⟩

/-- A mode is accepted just if it is listed and a fan speed just if it is in range; speeds
and targets are taken to the steps that are listed, and a step is taken as it is. -/
theorem capabilities_are_honest (address : String) : (capabilities address).Honest where
  modes _ := resolve_setMode_iff
  fan _ := resolve_setFan_iff
  fanStep _ _ := resolve_setFan_step
  fanPoint _ := resolve_setFan_point
  targetStep _ _ _ := resolve_setTemperature_step
  targetPoint _ := resolve_setTemperature_point

end Bedjet.Api
