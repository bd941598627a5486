import Bedjet.Protocol.Snapping

/-!
The commands as a format. The encoders write two or three bytes, and no two requests
for different things are written alike: what was asked for, on the grid of the wire, can
be read back from the bytes.
-/

namespace Bedjet.Protocol.Encode

open Python Rounding

def opcodeTimer : UInt8 := 0x02

/-- Button and preset operands of the `0x01` command. -/
inductive Button | fanUp | fanDown | tempUp | tempDown | presetM1 | presetM2 | presetM3
  deriving DecidableEq

def Button.value : Button → ℕ
  | fanUp => 0x10
  | fanDown => 0x11
  | tempUp => 0x12
  | tempDown => 0x13
  | presetM1 => 0x20
  | presetM2 => 0x21
  | presetM3 => 0x22

def press (button : Button) : Bytes :=
  frame opcodeButton button.value

/-- `f"{n:02d}"` -/
def twoDigits (n : ℤ) : Except ConversionError String :=
  if 0 ≤ n then (decimal n).map fun _ => padded 2 n.toNat else decimal n

/-- Set the run timer, within the maximum the device reported. -/
def setTimer (hours minutes : ℤ) (maxRuntimeS : Option ℤ := none) : Except EncodeError Bytes :=
  if ¬(0 ≤ hours ∧ hours ≤ 23) ∨ ¬(0 ≤ minutes ∧ minutes ≤ 59) then
    match decimal hours, twoDigits minutes with
    | .ok hours, .ok minutes => .error (.command ("invalid timer " ++ hours ++ ":" ++ minutes))
    | .error e, _ | _, .error e => .error (.conversion e)
  else
    let frame := .ok [opcodeTimer, UInt8.ofNat hours.toNat, UInt8.ofNat minutes.toNat]
    match maxRuntimeS with
    | none => frame
    | some limit =>
        if hours * 3600 + minutes * 60 ≤ limit then frame
        else match decimal (limit.fdiv 60) with
          | .ok limit => .error (.command ("timer " ++ toString hours ++ ":" ++
              padded 2 minutes.toNat ++ " exceeds the " ++ limit ++
              " minute maximum the device reports for its current mode"))
          | .error e => .error (.conversion e)

/-! ### What is asked for -/

/-- A call of one of the encoders. -/
inductive Call
  | setMode (mode : CommandMode)
  | press (button : Button)
  | setFanStep (step : ℤ)
  | setFanPercent (percent : ℤ)
  | setTemperature (celsius : ℚ) (minC maxC : Option ℚ)
  | setTimer (hours minutes : ℤ) (maxRuntimeS : Option ℤ)

def Call.encode : Call → Except EncodeError Bytes
  | .setMode mode => .ok (Encode.setMode mode)
  | .press button => .ok (Encode.press button)
  | .setFanStep step => Encode.setFanStep step
  | .setFanPercent percent => Encode.setFanPercent percent
  | .setTemperature celsius minC maxC => Encode.setTemperature celsius minC maxC
  | .setTimer hours minutes maxRuntimeS => Encode.setTimer hours minutes maxRuntimeS

/-- What a device is to do. -/
inductive Order
  | mode (mode : CommandMode)
  | button (button : Button)
  | fan (percent : ℤ)
  | target (celsius : ℚ)
  | timer (hours minutes : ℤ)
  deriving DecidableEq

/-- What a call asks for, on the grids of the wire. -/
def Call.asks : Call → Except EncodeError Order
  | .setMode mode => .ok (.mode mode)
  | .press button => .ok (.button button)
  | .setFanStep step => .ok (.fan (fanStepToPercent step))
  | .setFanPercent percent => (snapFanPercent percent).map .fan
  | .setTemperature celsius _ _ => (snapTargetC (.finite celsius)).map .target
  | .setTimer hours minutes _ => .ok (.timer hours minutes)

def buttons : List Button :=
  [.fanUp, .fanDown, .tempUp, .tempDown, .presetM1, .presetM2, .presetM3]

/-- What the `0x01` command carries: a mode or a button. -/
def readOperand (operand : ℕ) : Option Order :=
  match CommandMode.members.find? (·.value = operand) with
  | some mode => some (.mode mode)
  | none => (buttons.find? (·.value = operand)).map .button

/-- How a device that knows the format reads a write. -/
def Order.read : Bytes → Option Order
  | [opcode, operand] =>
      if opcode = opcodeButton then readOperand operand.toNat
      else if opcode = opcodeFan then some (.fan (fanStepToPercent operand.toNat))
      else if opcode = opcodeTemperature then some (.target (tempByteToC operand.toNat))
      else none
  | [opcode, hours, minutes] =>
      if opcode = opcodeTimer then some (.timer hours.toNat minutes.toNat) else none
  | _ => none

/-- The one way to write an order. -/
def Order.write : Order → Bytes
  | .mode m => Encode.setMode m
  | .button b => Encode.press b
  | .fan percent => frame opcodeFan (fanPercentToStep percent)
  | .target celsius => frame opcodeTemperature (roundHalfEven (celsius * tempScale))
  | .timer hours minutes => [opcodeTimer, UInt8.ofNat hours.toNat, UInt8.ofNat minutes.toNat]

/-! ### The format -/

/-- What is written is what is asked for, in its one way, and is read as that. -/
structure Carries (asked : Except EncodeError Order) (payload : Bytes) : Prop where
  written : ∃ order, asked = .ok order ∧ payload = order.write
  read : (Order.read payload).map Except.ok = some asked

theorem Carries.of (order : Order) (h : Order.read order.write = some order) :
    Carries (.ok order) order.write where
  written := ⟨order, rfl, rfl⟩
  read := by rw [h]; rfl

theorem read_fan {step : ℤ} (hlo : fanStepMin ≤ step) (hhi : step ≤ fanStepMax) :
    Carries (.ok (.fan (fanStepToPercent step))) (frame opcodeFan step) := by
  have hindex : fanPercentToStep (fanStepToPercent step) = step := by
    rw [← index_fanPercents, ← point_fanPercents, fanPercents.index_point nearest_roundHalfEven]
  have hbyte := toNat_ofNat_toNat hlo (by simp at hhi; omega)
  have hwrite : (Order.fan (fanStepToPercent step)).write = frame opcodeFan step := by
    rw [Order.write, hindex]
  rw [← hwrite]
  refine .of _ ?_
  rw [hwrite, frame, Order.read, if_neg (by decide), if_pos rfl, hbyte]

theorem read_target {raw : ℤ} (hlo : 0 ≤ raw) (hhi : raw ≤ 0xFF) :
    Carries (.ok (.target (halfDegrees.point raw))) (frame opcodeTemperature raw) := by
  have hbyte := toNat_ofNat_toNat hlo hhi
  have hvalue : tempByteToC (UInt8.ofNat raw.toNat).toNat = halfDegrees.point raw := by
    have hcast : ((UInt8.ofNat raw.toNat).toNat : ℚ) = raw := by exact_mod_cast hbyte
    rw [tempByteToC, point_halfDegrees, hcast]
  have hwrite : (Order.target (halfDegrees.point raw)).write = frame opcodeTemperature raw := by
    rw [Order.write, ← index_halfDegrees, halfDegrees.index_point nearest_roundHalfEven]
  rw [← hwrite]
  refine .of _ ?_
  rw [hwrite, frame, Order.read, if_neg (by decide), if_neg (by decide), if_pos rfl, hvalue]

theorem read_timer {hours minutes : ℤ} (hhours : 0 ≤ hours ∧ hours ≤ 23)
    (hminutes : 0 ≤ minutes ∧ minutes ≤ 59) :
    Carries (.ok (.timer hours minutes)) (Order.timer hours minutes).write := by
  refine .of _ ?_
  rw [Order.write, Order.read, if_pos rfl, toNat_ofNat_toNat hhours.1 (by omega),
    toNat_ofNat_toNat hminutes.1 (by omega)]

theorem carries_encode {call : Call} {payload : Bytes} (h : call.encode = .ok payload) :
    Carries call.asks payload := by
  cases call with
  | setMode mode =>
      obtain rfl := Except.ok.inj h
      exact .of (.mode mode) (by cases mode <;> rfl)
  | press button =>
      obtain rfl := Except.ok.inj h
      exact .of (.button button) (by cases button <;> rfl)
  | setFanStep step =>
      simp only [Call.encode, setFanStep] at h
      split at h
      · rename_i hrange
        obtain rfl := Except.ok.inj h
        exact read_fan hrange.1 hrange.2
      · split at h <;> simp at h
  | setFanPercent percent =>
      simp only [Call.encode, setFanPercent, checkFanPercent] at h
      by_cases hrange : fanPercentMin ≤ percent ∧ percent ≤ fanPercentMax
      · have hsnap := snapFanPercent_iff.mpr ⟨hrange, rfl⟩
        have hstep := fanPercentToStep_range hrange.1 hrange.2
        rw [if_pos hrange] at h
        obtain rfl : frame opcodeFan (fanPercentToStep percent) = payload := by
          simpa [bind, Except.bind, setFanStep, hstep] using h
        rw [Call.asks, hsnap]
        exact read_fan hstep.1 hstep.2
      · rw [if_neg hrange] at h
        split at h <;> simp [bind, Except.bind] at h
  | setTemperature celsius minC maxC =>
      simp only [Call.encode, setTemperature] at h
      split at h
      · split at h
        · cases hraw : targetRaw (.finite celsius) with
          | error e => simp [hraw, bind, Except.bind] at h
          | ok raw =>
              obtain ⟨hlo, hhi⟩ := targetRaw_eq_ok hraw
              have hsnap := snapTargetC_iff.mpr ⟨raw, hraw, rfl⟩
              obtain rfl : frame opcodeTemperature raw = payload := by
                simpa [hraw, bind, Except.bind, pure, Except.pure] using h
              rw [Call.asks, hsnap]
              exact read_target hlo hhi
        · simp at h
      · simp at h
  | setTimer hours minutes maxRuntimeS =>
      simp only [Call.encode, setTimer] at h
      split at h
      · split at h <;> simp at h
      · rename_i hvalid
        obtain ⟨hhours, hminutes⟩ :
            (0 ≤ hours ∧ hours ≤ 23) ∧ (0 ≤ minutes ∧ minutes ≤ 59) := by
          simpa [not_or] using hvalid
        have hpayload : (Order.timer hours minutes).write = payload := by
          split at h
          · exact Except.ok.inj h
          · split at h
            · exact Except.ok.inj h
            · split at h <;> simp at h
        rw [← hpayload]
        exact read_timer hhours hminutes

/-- Whatever the encoders accept can be read back from what they write, on the grid of
the wire; so two calls write the same bytes just if they ask for the same thing. -/
theorem encoded_commands_are_unambiguous {call call' : Call} {payload payload' : Bytes}
    (h : call.encode = .ok payload) (h' : call'.encode = .ok payload') :
    (Order.read payload).map Except.ok = some call.asks ∧
      (payload = payload' ↔ call.asks = call'.asks) := by
  have hcarries := carries_encode h
  have hcarries' := carries_encode h'
  refine ⟨hcarries.read, ?_, ?_⟩
  · rintro rfl
    exact Option.some.inj (hcarries.read.symm.trans hcarries'.read)
  · intro hasks
    obtain ⟨order, horder, rfl⟩ := hcarries.written
    obtain ⟨order', horder', rfl⟩ := hcarries'.written
    obtain rfl : order = order' := Except.ok.inj (horder.symm.trans (hasks.trans horder'))
    rfl

theorem encoded_commands_are_unambiguous_timer :
    (Call.setTimer 1 30 none).asks = (Call.setTimer 1 30 (some 36000)).asks := by
  have hfree : (Call.setTimer 1 30 none).encode = .ok [0x02, 1, 30] := by rfl
  have hlimited : (Call.setTimer 1 30 (some 36000)).encode = .ok [0x02, 1, 30] := by rfl
  exact (encoded_commands_are_unambiguous hfree hlimited).2.mp rfl

end Bedjet.Protocol.Encode
