import Bedjet.Protocol.Encode
import Bedjet.Rounding.Grid

/-!
What the wire can carry lies on two grids: half degrees from zero, and steps of
five percent from five. The encoders snap to them, and what they send is the
index of the point.
-/

namespace Bedjet.Protocol.Encode

open Python Rounding

/-! ### Targets -/

def halfDegrees : Grid ℚ where
  base := 0
  step := 1 / 2
  pos := by norm_num

theorem point_halfDegrees (n : ℤ) : halfDegrees.point n = n / tempScale := by
  rw [Grid.point, halfDegrees, tempScale]
  ring

theorem index_halfDegrees (celsius : ℚ) :
    halfDegrees.index roundHalfEven celsius = roundHalfEven (celsius * tempScale) := by
  rw [Grid.index, halfDegrees, tempScale]
  congr 1
  ring

/-- A target whose double is finite is encoded to its index, if that is a byte. -/
theorem targetRaw_finite {celsius : ℚ} (hlo : -Double.overflowBound < celsius * tempScale)
    (hhi : celsius * tempScale < Double.overflowBound) {raw : ℤ} :
    targetRaw (.finite celsius) = .ok raw ↔
      (0 ≤ raw ∧ raw ≤ 0xFF) ∧ halfDegrees.index roundHalfEven celsius = raw := by
  rw [targetRaw, Double.lift, Double.ofRat_of_lt hlo hhi, index_halfDegrees]
  simp only [Double.round]
  constructor
  · intro h
    split at h
    · rename_i hrange
      obtain rfl := Except.ok.inj h
      exact ⟨hrange, rfl⟩
    · simp at h
  · rintro ⟨hrange, rfl⟩
    rw [if_pos hrange]

/-- What a target is snapped to is the value of the byte it is encoded to. -/
theorem snapTargetC_iff {celsius : Double} {rounded : ℚ} :
    snapTargetC celsius = .ok rounded ↔
      ∃ raw : ℤ, targetRaw celsius = .ok raw ∧ rounded = halfDegrees.point raw := by
  simp only [point_halfDegrees]
  cases hraw : targetRaw celsius with
  | error e => simp [snapTargetC, hraw, bind, Except.bind]
  | ok raw => simp [snapTargetC, hraw, bind, Except.bind, pure, Except.pure, eq_comm]

/-- A byte on the wire, as the index it is. -/
theorem toNat_ofNat_toNat {raw : ℤ} (hlo : 0 ≤ raw) (hhi : raw ≤ 0xFF) :
    ((UInt8.ofNat raw.toNat).toNat : ℤ) = raw := by
  rw [UInt8.toNat_ofNat']
  omega

/-- Snapping a target that was snapped changes nothing. -/
theorem snapTargetC_snapped {celsius : Double} {rounded : ℚ}
    (hsnap : snapTargetC celsius = .ok rounded) : snapTargetC (.finite rounded) = .ok rounded := by
  obtain ⟨raw, hraw, rfl⟩ := snapTargetC_iff.mp hsnap
  obtain ⟨hlo, hhi⟩ := targetRaw_eq_ok hraw
  refine snapTargetC_iff.mpr ⟨raw, ?_, rfl⟩
  rw [point_halfDegrees]
  exact targetRaw_snapped hlo hhi

/-- A target that was snapped is sent as the byte of its value, if it lies
within bounds. -/
theorem setTemperature_of_snapped {celsius : Double} {rounded low high : ℚ}
    (hsnap : snapTargetC celsius = .ok rounded) (hlow : low ≤ rounded) (hhigh : rounded ≤ high) :
    ∃ b : UInt8, targetRaw celsius = .ok b.toNat ∧ rounded = tempByteToC b.toNat ∧
      setTemperature rounded (some low) (some high) = .ok [opcodeTemperature, b] := by
  obtain ⟨raw, hraw, rfl⟩ := snapTargetC_iff.mp hsnap
  obtain ⟨hlo, hhi⟩ := targetRaw_eq_ok hraw
  have hbyte := toNat_ofNat_toNat hlo hhi
  have hvalue : tempByteToC (UInt8.ofNat raw.toNat).toNat = halfDegrees.point raw := by
    have hcast : ((UInt8.ofNat raw.toNat).toNat : ℚ) = raw := by exact_mod_cast hbyte
    rw [tempByteToC, point_halfDegrees, hcast]
  refine ⟨UInt8.ofNat raw.toNat, by rw [hbyte, hraw], hvalue.symm, ?_⟩
  rw [point_halfDegrees] at hlow hhigh ⊢
  simp only [setTemperature, if_pos (And.intro hlow hhigh), targetRaw_snapped hlo hhi]
  rfl

theorem setTemperature_ok_iff {celsius : Double} {rounded : ℚ} {minC maxC : Option ℚ}
    {payload : Bytes} (hsnap : snapTargetC celsius = .ok rounded) :
    setTemperature rounded minC maxC = .ok payload ↔
      ∃ (b : UInt8) (low high : ℚ), payload = [opcodeTemperature, b] ∧
        rounded = tempByteToC b.toNat ∧ minC = some low ∧ maxC = some high ∧ low ≤ rounded ∧
        rounded ≤ high := by
  constructor
  · intro h
    cases minC with
    | none => simp [setTemperature] at h
    | some low =>
        cases maxC with
        | none => simp [setTemperature] at h
        | some high =>
            by_cases hbounds : low ≤ rounded ∧ rounded ≤ high
            · obtain ⟨b, -, hvalue, hset⟩ := setTemperature_of_snapped hsnap hbounds.1 hbounds.2
              obtain rfl := Except.ok.inj (h.symm.trans hset)
              exact ⟨b, low, high, rfl, hvalue, rfl, rfl, hbounds⟩
            · simp [setTemperature, hbounds] at h
  · rintro ⟨b, low, high, rfl, hvalue, rfl, rfl, hlow, hhigh⟩
    obtain ⟨b', -, hvalue', hset⟩ := setTemperature_of_snapped hsnap hlow hhigh
    obtain rfl : b' = b := by
      rw [hvalue, tempByteToC, tempByteToC, tempScale] at hvalue'
      apply UInt8.toNat_inj.mp
      have hcast : (b.toNat : ℚ) = b'.toNat := by linarith
      exact_mod_cast hcast.symm
    exact hset

/-! ### Fan percentages -/

def fanPercents : Grid ℚ where
  base := fanPercentBase
  step := fanPercentStep
  pos := by norm_num

theorem point_fanPercents (step : ℤ) : fanPercents.point step = fanStepToPercent step := by
  rw [Grid.point, fanPercents, fanStepToPercent]
  push_cast
  ring

theorem index_fanPercents (percent : ℤ) :
    fanPercents.index roundHalfEven percent = fanPercentToStep percent := by
  rw [Grid.index, fanPercents, fanPercentToStep]
  push_cast
  rfl

/-- A percentage is accepted just if it is in range. -/
theorem snapFanPercent_iff {percent snapped : ℤ} :
    snapFanPercent percent = .ok snapped ↔
      (fanPercentMin ≤ percent ∧ percent ≤ fanPercentMax) ∧
        snapped = fanStepToPercent (fanPercentToStep percent) := by
  constructor
  · intro h
    have hsnaps := percentSnaps percent
    rw [h] at hsnaps
    cases hsnaps with
    | snapped hrange => exact ⟨hrange, rfl⟩
  · rintro ⟨hrange, rfl⟩
    simp only [snapFanPercent, checkFanPercent, if_pos hrange]
    rfl

/-- The steps of the percentages in range. -/
theorem fanPercentToStep_range {percent : ℤ} (hlo : fanPercentMin ≤ percent)
    (hhi : percent ≤ fanPercentMax) :
    fanStepMin ≤ fanPercentToStep percent ∧ fanPercentToStep percent ≤ fanStepMax := by
  rw [← index_fanPercents]
  constructor
  · apply fanPercents.le_index nearest_roundHalfEven
    rw [point_fanPercents]
    exact_mod_cast hlo
  · apply fanPercents.index_le nearest_roundHalfEven
    rw [point_fanPercents]
    exact_mod_cast hhi

/-- A snapped percentage is sent as the step it was snapped to. -/
theorem setFanPercent_of_snapped {percent snapped : ℤ}
    (hsnap : snapFanPercent percent = .ok snapped) :
    ∃ b : UInt8, (b.toNat : ℤ) = fanPercentToStep percent ∧ b.toNat ≤ 19 ∧
      snapped = fanStepToPercent b.toNat ∧ setFanPercent snapped = .ok [opcodeFan, b] := by
  obtain ⟨⟨hlo, hhi⟩, rfl⟩ := snapFanPercent_iff.mp hsnap
  obtain ⟨hstepLo, hstepHi⟩ := fanPercentToStep_range hlo hhi
  generalize fanPercentToStep percent = step at *
  have hbyte : ((UInt8.ofNat step.toNat).toNat : ℤ) = step :=
    toNat_ofNat_toNat hstepLo (by simp at hstepHi; omega)
  have hrange : fanPercentMin ≤ fanStepToPercent step ∧ fanStepToPercent step ≤ fanPercentMax := by
    simp only [fanStepToPercent, fanPercentMin, fanPercentMax, fanPercentBase, fanPercentStep,
      fanStepMin, fanStepMax] at *
    omega
  have hindex : fanPercentToStep (fanStepToPercent step) = step := by
    rw [← index_fanPercents, ← point_fanPercents, fanPercents.index_point nearest_roundHalfEven]
  refine ⟨UInt8.ofNat step.toNat, hbyte, by simp at hstepHi; omega, by rw [hbyte], ?_⟩
  have hcheck : checkFanPercent (fanStepToPercent step) = .ok () := by
    rw [checkFanPercent, if_pos hrange]
  simp only [setFanPercent, hcheck, hindex]
  show setFanStep step = _
  rw [setFanStep, if_pos ⟨hstepLo, hstepHi⟩]
  rfl

theorem setFanPercent_ne_error {percent snapped : ℤ}
    (hsnap : snapFanPercent percent = .ok snapped) (e : EncodeError) :
    setFanPercent snapped ≠ .error e := by
  obtain ⟨b, -, -, -, hset⟩ := setFanPercent_of_snapped hsnap
  simp [hset]

end Bedjet.Protocol.Encode
