import Bedjet.Protocol.Decode

/-!
The device model: what the layers above may know about a BedJet, free of bytes
and offsets.
-/

namespace Bedjet.Device

open Python Protocol

/-- Whether the unit is running. `unknown` is a real, common state. -/
inductive Power | on | off | unknown
  deriving DecidableEq

def Power.value : Power → String
  | .on => "on"
  | .off => "off"
  | .unknown => "unknown"

structure BedJetState where
  available : Bool := false
  power : Power := .unknown
  mode : Option StatusMode := none
  targetTempC : Option ℚ := none
  actualTempC : Option ℚ := none
  ambientTempC : Option ℚ := none
  fanPercent : Option ℤ := none
  timeRemainingS : Option ℕ := none
  sequenceStep : Option ℕ := none
  minTargetC : Option ℚ := none
  maxTargetC : Option ℚ := none
  maxRuntimeS : Option ℕ := none
  errors : List String := []

namespace BedJetState

/-- The power a status mode implies: standby is off, every other verified mode
is on, and an unrecognised one stays unknown. -/
def powerOf : Option StatusMode → Power
  | some .standby => .off
  | some _ => .on
  | none => .unknown

def fromStatus (packet : StatusPacket) (available : Bool := true) : BedJetState where
  available := available
  power := powerOf packet.mode
  mode := packet.mode
  targetTempC := packet.targetTempC
  actualTempC := packet.actualTempC
  ambientTempC := packet.ambientTempC
  fanPercent := packet.fanPercent
  timeRemainingS := packet.timeRemainingS
  sequenceStep := packet.sequenceStep
  minTargetC := packet.minTempC
  maxTargetC := packet.maxTempC
  maxRuntimeS := packet.maxRuntimeS
  errors := packet.anomalies

/-- Whether `fanPercent` is merely a remembered setting. -/
def fanIsStale (s : BedJetState) : Bool :=
  s.power = .off && s.fanPercent.isSome

/-- One-line human summary. -/
def describe (s : BedJetState) : String :=
  if !s.available then "unavailable (no BLE link)"
  else
    let part {α : Type} (value : Option α) (text : α → String) : List String :=
      (value.map text).toList
    let inBoth (label : String) (celsius : ℚ) : String :=
      label ++ "=" ++ fixed 1 celsius ++ "C/" ++ fixed 0 (cToF celsius) ++ "F"
    let lastSet := if s.power = .off then " (last set)" else ""
    "  ".intercalate <|
      ["power=" ++ s.power.value] ++
      part s.mode (fun mode => "mode=" ++ lower mode.name) ++
      part s.actualTempC (inBoth "actual") ++
      part s.targetTempC (inBoth "target") ++
      part s.ambientTempC (fun celsius => "ambient=" ++ fixed 1 celsius ++ "C") ++
      part s.fanPercent (fun percent => "fan=" ++ toString percent ++ "%" ++ lastSet) ++
      part (s.timeRemainingS.filter (· ≠ 0)) (fun remaining =>
        "remaining=" ++ toString (remaining / 3600) ++ ":" ++
          padded 2 (remaining % 3600 / 60) ++ ":" ++ padded 2 (remaining % 60)) ++
      if s.errors.isEmpty then [] else ["anomalies=" ++ toString s.errors.length]

end BedJetState

end Bedjet.Device
