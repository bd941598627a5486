import Bedjet.Python.Text

/-!
Protocol constants: the layout of a status packet, the two mode enumerations,
the encodings of temperature and fan speed, and the checksum.
-/

namespace Bedjet.Protocol

open Python

/-! ### Status packet layout -/

namespace Offset

@[simp] abbrev isPartial : ℕ := 0
@[simp] abbrev packetFormat : ℕ := 1
@[simp] abbrev payloadLength : ℕ := 2
@[simp] abbrev packetType : ℕ := 3
@[simp] abbrev timeHours : ℕ := 4
@[simp] abbrev timeMinutes : ℕ := 5
@[simp] abbrev timeSeconds : ℕ := 6
@[simp] abbrev actualTemp : ℕ := 7
@[simp] abbrev targetTemp : ℕ := 8
@[simp] abbrev mode : ℕ := 9
@[simp] abbrev fanStep : ℕ := 10
@[simp] abbrev maxRuntimeHours : ℕ := 11
@[simp] abbrev maxRuntimeMinutes : ℕ := 12
@[simp] abbrev minTemp : ℕ := 13
@[simp] abbrev maxTemp : ℕ := 14
@[simp] abbrev turboElapsed : ℕ := 15
@[simp] abbrev ambientTemp : ℕ := 17
@[simp] abbrev shutdownReason : ℕ := 18
@[simp] abbrev updatePhase : ℕ := 26
@[simp] abbrev flags : ℕ := 27
@[simp] abbrev sequenceStep : ℕ := 28
@[simp] abbrev notifyCode : ℕ := 29

end Offset

@[simp] abbrev headerLength : ℕ := 4

/-- `UNKNOWN_REGION`: bytes 19 to 25. -/
@[simp] abbrev unknownRegionStart : ℕ := 19
@[simp] abbrev unknownRegionStop : ℕ := 26

@[simp] abbrev minStatusLength : ℕ := 11

@[simp] abbrev packetFormatV3Home : ℕ := 0x56
@[simp] abbrev packetFormatDebug : ℕ := 0x05
@[simp] abbrev packetTypeStatus : ℕ := 0x01
@[simp] abbrev packetTypeDebug : ℕ := 0x02

/-- Mode as reported in a status packet. Not the same enumeration as
`CommandMode`: cool and turbo are swapped, and every shared value means
something else. -/
inductive StatusMode | standby | heat | turbo | cool | dry
  deriving DecidableEq

namespace StatusMode

def value : StatusMode → ℕ
  | standby => 0x00
  | heat => 0x01
  | turbo => 0x02
  | cool => 0x04
  | dry => 0x05

def name : StatusMode → String
  | standby => "STANDBY"
  | heat => "HEAT"
  | turbo => "TURBO"
  | cool => "COOL"
  | dry => "DRY"

/-- The members in the order of their definition. -/
def members : List StatusMode := [standby, heat, turbo, cool, dry]

/-- `StatusMode(raw)`, with `none` for its `ValueError`. -/
def ofValue : ℕ → Option StatusMode
  | 0x00 => some standby
  | 0x01 => some heat
  | 0x02 => some turbo
  | 0x04 => some cool
  | 0x05 => some dry
  | _ => none

theorem ofValue_eq_some_iff {raw : ℕ} {mode : StatusMode} :
    ofValue raw = some mode ↔ raw = mode.value := by
  constructor
  · intro h
    unfold ofValue at h
    split at h <;> cases h <;> rfl
  · rintro rfl
    cases mode <;> rfl

end StatusMode

/-- `STATUS_MODE_PREDICTION.get(raw)` -/
def statusModePrediction : ℕ → Option String
  | 0x03 => some ("extended heat (predicted by the ordering that correctly predicted dry; " ++
      "still never observed)")
  | _ => none

/-- Mode operand of the `0x01` command. -/
inductive CommandMode | off | cool | heat | turbo | dry | extendedHeat
  deriving DecidableEq

namespace CommandMode

def value : CommandMode → ℕ
  | off => 0x01
  | cool => 0x02
  | heat => 0x03
  | turbo => 0x04
  | dry => 0x05
  | extendedHeat => 0x06

def name : CommandMode → String
  | off => "OFF"
  | cool => "COOL"
  | heat => "HEAT"
  | turbo => "TURBO"
  | dry => "DRY"
  | extendedHeat => "EXTENDED_HEAT"

def members : List CommandMode := [off, cool, heat, turbo, dry, extendedHeat]

/-- `CommandMode[name]`, with `none` for its `KeyError`. -/
def ofName (key : List Char) : Option CommandMode :=
  members.find? fun mode => mode.name.toList = key

end CommandMode

/-! ### Encodings -/

def tempScale : ℚ := 2

/-- `ABSOLUTE_MIN_C` and `ABSOLUTE_MAX_C`, the sanity envelope. -/
def absoluteMinC : ℚ := 5
def absoluteMaxC : ℚ := 50

@[simp] abbrev fanStepMin : ℤ := 0
@[simp] abbrev fanStepMax : ℤ := 19
@[simp] abbrev fanPercentBase : ℤ := 5
@[simp] abbrev fanPercentStep : ℤ := 5

def fanStepToPercent (step : ℤ) : ℤ :=
  fanPercentBase + fanPercentStep * step

theorem fanStepToPercent_injective {step step' : ℤ}
    (h : fanStepToPercent step = fanStepToPercent step') : step = step' := by
  simp only [fanStepToPercent, fanPercentBase, fanPercentStep] at h
  omega

def tempByteToC (raw : ℕ) : ℚ :=
  raw / tempScale

theorem tempByteToC_injective {raw raw' : ℕ} (h : tempByteToC raw = tempByteToC raw') :
    raw = raw' := by
  simpa [tempByteToC, tempScale] using h

/-- Exact conversion, for display only. -/
def cToF (celsius : ℚ) : ℚ :=
  celsius * 9 / 5 + 32

/-! ### Checksum -/

/-- `sum(packet)` -/
def byteSum (packet : Bytes) : ℕ :=
  (packet.map UInt8.toNat).sum

/-- `compute_checksum`: the checksum byte for `body`, the packet up to but
excluding the checksum itself. -/
def computeChecksum (body : Bytes) : UInt8 :=
  UInt8.ofNat (-(byteSum body : ℤ) % 256).toNat

/-- Whether a whole packet, checksum byte included, sums to zero mod 256. -/
def verifyChecksum (packet : Bytes) : Bool :=
  !packet.isEmpty && byteSum packet % 256 = 0

end Bedjet.Protocol
