import Bedjet.Protocol.Constants

/-!
Command encoding: builds byte strings, sends nothing. Out-of-range requests
raise rather than clamp.
-/

namespace Bedjet.Protocol.Encode

open Python

def opcodeButton : UInt8 := 0x01
def opcodeTemperature : UInt8 := 0x03
def opcodeFan : UInt8 := 0x07

/-- What the encoders raise. `CommandError` is the module's own exception; the
conversions inside raise the exceptions of the language. -/
inductive EncodeError
  | command (message : String)
  | conversion (error : ConversionError)

/-- `bytes([opcode, operand])` of an operand known to fit. -/
def frame (opcode : UInt8) (operand : ℤ) : Bytes :=
  [opcode, UInt8.ofNat operand.toNat]

def setMode (mode : CommandMode) : Bytes :=
  frame opcodeButton mode.value

def turnOff : Bytes :=
  setMode .off

/-- Set fan speed by step index. -/
def setFanStep (step : ℤ) : Except EncodeError Bytes :=
  if fanStepMin ≤ step ∧ step ≤ fanStepMax then .ok (frame opcodeFan step)
  else match decimal step with
    | .ok text => .error (.command ("fan step " ++ text ++ " outside " ++ toString fanStepMin ++
        "-" ++ toString fanStepMax))
    | .error e => .error (.conversion e)

abbrev fanPercentMin : ℤ := fanPercentBase
abbrev fanPercentMax : ℤ := fanPercentBase + fanStepMax * fanPercentStep

/-- `_check_fan_percent`: reject out-of-range rather than snapping inward. -/
def checkFanPercent (percent : ℤ) : Except EncodeError Unit :=
  if fanPercentMin ≤ percent ∧ percent ≤ fanPercentMax then .ok ()
  else match decimal percent with
    | .ok text => .error (.command ("fan " ++ text ++ "% is outside the supported " ++
        toString fanPercentMin ++ "-" ++ toString fanPercentMax ++ "% range"))
    | .error e => .error (.conversion e)

/-- `_fan_percent_to_step`: nearest step index for an in-range percent. -/
def fanPercentToStep (percent : ℤ) : ℤ :=
  roundHalfEven ((percent - fanPercentMin : ℤ) / (fanPercentStep : ℤ) : ℚ)

/-- The percent the device will actually adopt. -/
def snapFanPercent (percent : ℤ) : Except EncodeError ℤ := do
  checkFanPercent percent
  return fanStepToPercent (fanPercentToStep percent)

def setFanPercent (percent : ℤ) : Except EncodeError Bytes := do
  checkFanPercent percent
  setFanStep (fanPercentToStep percent)

/-- `_target_raw`: the wire byte for a target temperature. -/
def targetRaw (celsius : Double) : Except EncodeError ℤ :=
  match (celsius.lift (· * tempScale)).round with
  | .error e => .error (.conversion e)
  | .ok raw =>
      if 0 ≤ raw ∧ raw ≤ 0xFF then .ok raw
      else .error (.command ("target " ++ fixedDouble 1 celsius ++ "C does not fit in one byte"))

/-- The target the device will actually be asked for: `celsius` on the wire's
half-degree grid. -/
def snapTargetC (celsius : Double) : Except EncodeError ℚ := do
  let raw ← targetRaw celsius
  return raw / tempScale

/-- Set the target temperature, within the bounds the device reported. The
caller of this function in the program always passes both bounds and a snapped,
hence finite, target. -/
def setTemperature (celsius : ℚ) (minC maxC : Option ℚ) : Except EncodeError Bytes :=
  match minC, maxC with
  | some low, some high =>
      if low ≤ celsius ∧ celsius ≤ high then do
        let raw ← targetRaw (.finite celsius)
        return frame opcodeTemperature raw
      else .error (.command ("target " ++ fixed 1 celsius ++ "C is outside the " ++
        fixed 1 low ++ "-" ++ fixed 1 high ++ "C range the device reports for its current mode"))
  | _, _ => .error (.command ("device-reported bounds are required. Read them from the current " ++
      "status packet (min_temp_c/max_temp_c) — they change with the mode, so a hardcoded range " ++
      "is both wrong and unsafe (RL-013)."))

/-! ### What the encoders accept -/

theorem targetRaw_eq_ok {celsius : Double} {raw : ℤ} (h : targetRaw celsius = .ok raw) :
    0 ≤ raw ∧ raw ≤ 0xFF := by
  rw [targetRaw] at h
  split at h
  · simp at h
  · split at h
    · rename_i hrange
      obtain rfl := Except.ok.inj h
      exact hrange
    · simp at h

/-- What snapping a target comes to. -/
inductive TargetSnaps (celsius : Double) : Except EncodeError ℚ → Prop
  | snapped {raw : ℤ} (hround : (celsius.lift (· * tempScale)).round = .ok raw)
      (hrange : 0 ≤ raw ∧ raw ≤ 0xFF) : TargetSnaps celsius (.ok (raw / tempScale))
  | misfits {raw : ℤ} (hround : (celsius.lift (· * tempScale)).round = .ok raw)
      (message : String) : TargetSnaps celsius (.error (.command message))
  | unconverted {e : ConversionError} (hround : (celsius.lift (· * tempScale)).round = .error e) :
      TargetSnaps celsius (.error (.conversion e))

theorem targetSnaps (celsius : Double) : TargetSnaps celsius (snapTargetC celsius) := by
  cases hround : (celsius.lift (· * tempScale)).round with
  | error e =>
      simp only [snapTargetC, targetRaw, hround]
      exact .unconverted hround
  | ok raw =>
      by_cases hrange : 0 ≤ raw ∧ raw ≤ 0xFF
      · simp only [snapTargetC, targetRaw, hround, if_pos hrange]
        exact .snapped hround hrange
      · simp only [snapTargetC, targetRaw, hround, if_neg hrange]
        exact .misfits hround _

theorem overflowBound_gt : (0xFF : ℚ) < Double.overflowBound := by
  have h : (0xFF : ℕ) < 2 ^ 1024 - 2 ^ 970 := by decide +kernel
  have hcast : ((0xFF : ℕ) : ℚ) < Double.overflowBound := Nat.cast_lt.mpr h
  simpa using hcast

/-- A target on the grid is encoded as it is. -/
theorem targetRaw_snapped {raw : ℤ} (hlo : 0 ≤ raw) (hhi : raw ≤ 0xFF) :
    targetRaw (.finite (raw / tempScale)) = .ok raw := by
  have hlo' : -Double.overflowBound < (raw : ℚ) := by
    have h0 : (0 : ℚ) ≤ raw := by exact_mod_cast hlo
    linarith [overflowBound_gt]
  have hhi' : (raw : ℚ) < Double.overflowBound := by
    have h255 : (raw : ℚ) ≤ 0xFF := by exact_mod_cast hhi
    linarith [overflowBound_gt]
  have hscale : (raw : ℚ) / tempScale * tempScale = raw := by
    rw [tempScale]
    ring
  simp [targetRaw, Double.lift, hscale, Double.ofRat_of_lt hlo' hhi', Double.round, hlo, hhi]

/-- A percentage in range has few digits. -/
theorem digits_of_range {percent : ℤ} (h : fanPercentMin ≤ percent ∧ percent ≤ fanPercentMax) :
    percent.natAbs < 10 ^ 4300 := by
  have hlong (digits : ℕ) (hdigits : 100 < digits) : 100 < 10 ^ digits :=
    hdigits.trans (Nat.lt_pow_self (by decide))
  have hlarge := hlong 4300 (by decide)
  generalize 10 ^ 4300 = bound at hlarge ⊢
  simp only [fanPercentMin, fanPercentMax, fanPercentBase, fanPercentStep, fanStepMax] at h
  omega

/-- What snapping a percentage comes to. -/
inductive PercentSnaps (percent : ℤ) : Except EncodeError ℤ → Prop
  | snapped (hrange : fanPercentMin ≤ percent ∧ percent ≤ fanPercentMax) :
      PercentSnaps percent (.ok (fanStepToPercent (fanPercentToStep percent)))
  | outside (hrange : ¬(fanPercentMin ≤ percent ∧ percent ≤ fanPercentMax))
      (hdigits : percent.natAbs < 10 ^ 4300) (message : String) :
      PercentSnaps percent (.error (.command message))
  | unwritten (hdigits : ¬percent.natAbs < 10 ^ 4300) :
      PercentSnaps percent (.error (.conversion .value))

theorem percentSnaps (percent : ℤ) : PercentSnaps percent (snapFanPercent percent) := by
  by_cases hrange : fanPercentMin ≤ percent ∧ percent ≤ fanPercentMax
  · simp only [snapFanPercent, checkFanPercent, if_pos hrange]
    exact .snapped hrange
  · by_cases hdigits : percent.natAbs < 10 ^ 4300
    · simp only [snapFanPercent, checkFanPercent, if_neg hrange, decimal, if_pos hdigits]
      exact .outside hrange hdigits _
    · simp only [snapFanPercent, checkFanPercent, if_neg hrange, decimal, if_neg hdigits]
      exact .unwritten hdigits

/-! ### How the encoders fail

On an argument that can be doubled, or written out, every failure is the
module's own exception. -/

theorem error_snapTargetC {celsius : Double} (hfinite : (celsius.lift (· * tempScale)).isFinite)
    {e : EncodeError} (h : snapTargetC celsius = .error e) : ∃ message, e = .command message := by
  have hsnaps := targetSnaps celsius
  rw [h] at hsnaps
  cases hsnaps with
  | misfits _ message => exact ⟨message, rfl⟩
  | unconverted hround => simp [Double.round_error_iff.mp ⟨_, hround⟩] at hfinite

/-- Any other fails in the conversion. -/
theorem snapTargetC_unconverted {celsius : Double}
    (h : (celsius.lift (· * tempScale)).isFinite = false) :
    ∃ e, snapTargetC celsius = .error (.conversion e) := by
  obtain ⟨e, he⟩ := Double.round_error_iff.mpr h
  exact ⟨e, by simp [snapTargetC, targetRaw, he, bind, Except.bind]⟩

theorem isFinite_of_snapTargetC {celsius : Double} {rounded : ℚ}
    (h : snapTargetC celsius = .ok rounded) : (celsius.lift (· * tempScale)).isFinite := by
  rw [← Bool.not_eq_false]
  intro hno
  obtain ⟨e, he⟩ := snapTargetC_unconverted hno
  simp [he] at h

theorem error_setTemperature {celsius : Double} {rounded : ℚ} {minC maxC : Option ℚ}
    {e : EncodeError} (hsnap : snapTargetC celsius = .ok rounded)
    (h : setTemperature rounded minC maxC = .error e) : ∃ message, e = .command message := by
  have hsnaps := targetSnaps celsius
  rw [hsnap] at hsnaps
  cases hsnaps with
  | snapped _ hrange =>
      unfold setTemperature at h
      split at h
      · split at h
        · simp [targetRaw_snapped hrange.1 hrange.2, bind, Except.bind, pure, Except.pure] at h
        · exact ⟨_, (Except.error.inj h).symm⟩
      · exact ⟨_, (Except.error.inj h).symm⟩

theorem error_snapFanPercent {percent : ℤ} (hdigits : percent.natAbs < 10 ^ 4300)
    {e : EncodeError} (h : snapFanPercent percent = .error e) :
    ∃ message, e = .command message := by
  have hsnaps := percentSnaps percent
  rw [h] at hsnaps
  cases hsnaps with
  | outside _ _ message => exact ⟨message, rfl⟩
  | unwritten hlong => exact absurd hdigits hlong

theorem snapFanPercent_unwritten {percent : ℤ} (hdigits : ¬percent.natAbs < 10 ^ 4300) :
    snapFanPercent percent = .error (.conversion .value) := by
  have hrange : ¬(fanPercentMin ≤ percent ∧ percent ≤ fanPercentMax) :=
    fun h => hdigits (digits_of_range h)
  simp only [snapFanPercent, checkFanPercent, if_neg hrange, decimal, if_neg hdigits]
  rfl

end Bedjet.Protocol.Encode
