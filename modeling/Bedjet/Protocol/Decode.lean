import Bedjet.Protocol.Packets

/-!
Status packet decoding: bytes in, a `StatusPacket` out, never an exception. A
short, corrupt or unexpected packet decodes as far as it can and reports the
rest as anomalies.
-/

namespace Bedjet.Protocol

open Python

/-- `_u8` -/
def u8 (data : Bytes) (offset : ℕ) : Option ℕ :=
  data[offset]?.map UInt8.toNat

/-- `_u16_be` -/
def u16Be (data : Bytes) (offset : ℕ) : Option ℕ := do
  let high ← u8 data offset
  let low ← u8 data (offset + 1)
  return high * 256 + low

/-- `_decode_temp` -/
def decodeTemp (data : Bytes) (offset : ℕ) : Option ℚ :=
  (u8 data offset).map tempByteToC

/-- `_max_runtime` -/
def maxRuntime (data : Bytes) : Option ℕ := do
  let hours ← u8 data Offset.maxRuntimeHours
  let minutes ← u8 data Offset.maxRuntimeMinutes
  return hours * 3600 + minutes * 60

def timeRemaining (data : Bytes) : Option ℕ := do
  let hours ← u8 data Offset.timeHours
  let minutes ← u8 data Offset.timeMinutes
  let seconds ← u8 data Offset.timeSeconds
  return hours * 3600 + minutes * 60 + seconds

/-- The fan percentage of an in-range step; an out-of-range step has none. -/
def decodeFanPercent (data : Bytes) : Option ℤ := do
  let step ← u8 data Offset.fanStep
  if fanStepMin ≤ step ∧ (step : ℤ) ≤ fanStepMax then some (fanStepToPercent step) else none

/-- The integrity check, made when the declared number of bytes is there. -/
def decodeChecksum (data : Bytes) : Option Bool := do
  let declared ← u8 data Offset.payloadLength
  if declared + headerLength ≤ data.length then
    some (verifyChecksum (data.take (declared + headerLength)))
  else none

/-! ### Anomalies

Each check of `decode_status` that reports instead of raising, in the order in
which the reports are appended. -/

def formatAnomalies (data : Bytes) : List String :=
  match u8 data Offset.packetFormat with
  | some format =>
      if format ≠ packetFormatV3Home ∧ format ≠ packetFormatDebug then
        ["unexpected packet format 0x" ++ hexByte format ++ " at offset " ++
          toString Offset.packetFormat]
      else []
  | none => []

def lengthAnomalies (data : Bytes) : List String :=
  match u8 data Offset.payloadLength with
  | some declared =>
      if data.length < declared + headerLength then
        ["incomplete packet: header declares " ++ toString (declared + headerLength) ++
          " bytes, got " ++ toString data.length]
      else []
  | none => []

def timeAnomalies (data : Bytes) : List String :=
  match u8 data Offset.timeHours, u8 data Offset.timeMinutes, u8 data Offset.timeSeconds with
  | some hours, some minutes, some seconds =>
      if 59 < minutes ∨ 59 < seconds then
        ["implausible time remaining " ++ padded 2 hours ++ ":" ++ padded 2 minutes ++ ":" ++
          padded 2 seconds]
      else []
  | _, _, _ => []

def envelopeAnomaly (label : String) : Option ℚ → List String
  | some value =>
      if absoluteMinC ≤ value ∧ value ≤ absoluteMaxC then []
      else
        [label ++ " temperature " ++ fixed 1 value ++ "C is outside the sanity envelope " ++
          fixed 1 absoluteMinC ++ "-" ++ fixed 1 absoluteMaxC ++
          "C — this looks like a decode error, not a device setting"]
  | none => []

def targetAnomalies (data : Bytes) : List String :=
  match decodeTemp data Offset.targetTemp, decodeTemp data Offset.minTemp,
      decodeTemp data Offset.maxTemp with
  | some target, some low, some high =>
      if low ≤ target ∧ target ≤ high then []
      else
        ["target " ++ fixed 1 target ++
          "C is outside the range the device reports for this mode (" ++ fixed 1 low ++ "-" ++
          fixed 1 high ++ "C)"]
  | _, _, _ => []

def modeAnomalies (data : Bytes) : List String :=
  match u8 data Offset.mode with
  | some raw =>
      match StatusMode.ofValue raw with
      | some _ => []
      | none =>
          let known := ", ".intercalate (StatusMode.members.map fun m =>
            "0x" ++ hexByte m.value ++ " " ++ lower m.name)
          let hint := match statusModePrediction raw with
            | some guess => " Predicted to be " ++ guess ++ ", but that is untested."
            | none => ""
          ["status mode 0x" ++ hexByte raw ++ " not yet verified (known: " ++ known ++ ")." ++
            hint ++ " Capture this mode from the vendor app to identify it — do NOT assume the " ++
            "command-mode table applies here, it has cool and turbo swapped (RL-013)."]
  | none => []

def fanAnomalies (data : Bytes) : List String :=
  match u8 data Offset.fanStep with
  | some step =>
      if fanStepMin ≤ step ∧ (step : ℤ) ≤ fanStepMax then []
      else
        ["fan step " ++ toString step ++ " outside documented range " ++ toString fanStepMin ++
          "-" ++ toString fanStepMax ++ " (scaling is contested — see RL-002)"]
  | none => []

def checksumAnomalies (data : Bytes) : List String :=
  match u8 data Offset.payloadLength with
  | some declared =>
      if declared + headerLength ≤ data.length then
        let whole := data.take (declared + headerLength)
        if verifyChecksum whole then []
        else
          ["checksum mismatch: packet sums to 0x" ++ hexByte (byteSum whole % 256) ++
            ", expected 0x00. The packet is corrupt or mis-reassembled — do not trust its fields."]
      else []
  | none => []

/-! ### The decoder -/

/-- What `decode_status` returns below the minimum length: the header fields
only. -/
def decodeShort (data : Bytes) : StatusPacket where
  raw := data
  header := data.take headerLength
  isPartial := (u8 data Offset.isPartial).any (· ≠ 0)
  packetFormat := u8 data Offset.packetFormat
  packetType := u8 data Offset.packetType
  declaredLength := u8 data Offset.payloadLength
  anomalies := formatAnomalies data ++ lengthAnomalies data ++
    ["packet too short: " ++ toString data.length ++ " bytes (need >= " ++
      toString minStatusLength ++ ")"]

/-- What `decode_status` returns from the minimum length on. -/
def decodeFields (data : Bytes) : StatusPacket where
  raw := data
  header := data.take headerLength
  isPartial := (u8 data Offset.isPartial).any (· ≠ 0)
  packetFormat := u8 data Offset.packetFormat
  packetType := u8 data Offset.packetType
  declaredLength := u8 data Offset.payloadLength
  timeRemainingS := timeRemaining data
  actualTempC := decodeTemp data Offset.actualTemp
  targetTempC := decodeTemp data Offset.targetTemp
  ambientTempC := decodeTemp data Offset.ambientTemp
  mode := (u8 data Offset.mode).bind StatusMode.ofValue
  modeRaw := u8 data Offset.mode
  fanStep := u8 data Offset.fanStep
  fanPercent := decodeFanPercent data
  minTempC := decodeTemp data Offset.minTemp
  maxTempC := decodeTemp data Offset.maxTemp
  turboElapsedS := u16Be data Offset.turboElapsed
  maxRuntimeS := maxRuntime data
  checksumOk := decodeChecksum data
  shutdownReason := u8 data Offset.shutdownReason
  updatePhase := u8 data Offset.updatePhase
  flags := u8 data Offset.flags
  sequenceStep := u8 data Offset.sequenceStep
  notifyCode := u8 data Offset.notifyCode
  unknownRegion := (data.take unknownRegionStop).drop unknownRegionStart
  anomalies := formatAnomalies data ++ lengthAnomalies data ++ timeAnomalies data ++
    envelopeAnomaly "actual" (decodeTemp data Offset.actualTemp) ++
    envelopeAnomaly "target" (decodeTemp data Offset.targetTemp) ++
    envelopeAnomaly "ambient" (decodeTemp data Offset.ambientTemp) ++
    targetAnomalies data ++ modeAnomalies data ++ fanAnomalies data ++ checksumAnomalies data

/-- Decode a (reassembled) BedJet status packet. -/
def decodeStatus (data : Bytes) : StatusPacket :=
  if data.isEmpty then { raw := [], header := [], anomalies := ["empty packet"] }
  else if data.length < minStatusLength then decodeShort data
  else decodeFields data

/-- Whether `data` plausibly begins a status packet. -/
def looksLikePacketStart (data : Bytes) : Bool :=
  match u8 data Offset.packetFormat with
  | some format => format = packetFormatV3Home ∨ format = packetFormatDebug
  | none => false

/-- Join a first notification with the follow-up read. -/
def reassemble (first remainder : Bytes) : Bytes :=
  first ++ remainder

end Bedjet.Protocol
