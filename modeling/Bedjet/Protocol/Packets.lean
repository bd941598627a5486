import Bedjet.Protocol.Constants

/-!
A `StatusPacket` describes what the wire said, not what the device means. Every
field is optional: a truncated or unexpected packet decodes as far as it can and
records the rest in `anomalies`.
-/

namespace Bedjet.Protocol

open Python

structure StatusPacket where
  /-- The exact bytes decoded. -/
  raw : Bytes
  /-- Bytes 0 to 3 verbatim. -/
  header : Bytes
  isPartial : Bool := false
  packetFormat : Option ℕ := none
  packetType : Option ℕ := none
  /-- Header byte 2: payload bytes following the 4-byte header. -/
  declaredLength : Option ℕ := none
  timeRemainingS : Option ℕ := none
  actualTempC : Option ℚ := none
  targetTempC : Option ℚ := none
  ambientTempC : Option ℚ := none
  mode : Option StatusMode := none
  modeRaw : Option ℕ := none
  fanStep : Option ℕ := none
  fanPercent : Option ℤ := none
  minTempC : Option ℚ := none
  maxTempC : Option ℚ := none
  maxRuntimeS : Option ℕ := none
  turboElapsedS : Option ℕ := none
  /-- `none` when the packet is too short to tell. -/
  checksumOk : Option Bool := none
  shutdownReason : Option ℕ := none
  updatePhase : Option ℕ := none
  flags : Option ℕ := none
  sequenceStep : Option ℕ := none
  notifyCode : Option ℕ := none
  unknownRegion : Bytes := []
  anomalies : List String := []

namespace StatusPacket

/-- Full packet size the header declares, header included. -/
def expectedTotal (p : StatusPacket) : Option ℕ :=
  p.declaredLength.map (· + headerLength)

/-- Whether we hold the whole packet: the length byte decides this, not the
partial flag. -/
def isComplete (p : StatusPacket) : Bool :=
  match p.expectedTotal with
  | none => false
  | some total => total ≤ p.raw.length

/-- Whether this packet's fields may be believed. -/
def isTrustworthy (p : StatusPacket) : Bool :=
  p.checksumOk == some true && p.isComplete

end StatusPacket

end Bedjet.Protocol
