import Bedjet.Service.Session

/-!
The wire vocabulary: what an adapter may say about a BedJet, in strings,
numbers and booleans.
-/

namespace Bedjet.Api

open Python Protocol Device Service

/-- `round(q, 1)` -/
def roundTenth (q : ℚ) : ℚ :=
  roundHalfEven (q * 10) / 10

/-- `_f` -/
def fahrenheit (celsius : Option ℚ) : Option ℚ :=
  celsius.map fun c => roundTenth (cToF c)

structure DeviceSnapshot where
  link : String
  available : Bool
  stale : Bool
  readingAgeS : Option ℚ
  power : String
  mode : Option String
  targetTempC : Option ℚ
  targetTempF : Option ℚ
  actualTempC : Option ℚ
  actualTempF : Option ℚ
  ambientTempC : Option ℚ
  ambientTempF : Option ℚ
  fanPercent : Option ℤ
  fanIsStale : Bool
  timeRemainingS : Option ℕ
  minTargetC : Option ℚ
  maxTargetC : Option ℚ
  maxRuntimeS : Option ℕ
  anomalies : List String

def DeviceSnapshot.fromSession (snapshot : SessionSnapshot) : DeviceSnapshot :=
  let reading := snapshot.reading.getD {}
  { link := snapshot.link.value
    available := snapshot.available
    stale := snapshot.stale
    readingAgeS := snapshot.readingAgeS.map roundTenth
    power := reading.power.value
    mode := reading.mode.map fun m => lower m.name
    targetTempC := reading.targetTempC
    targetTempF := fahrenheit reading.targetTempC
    actualTempC := reading.actualTempC
    actualTempF := fahrenheit reading.actualTempC
    ambientTempC := reading.ambientTempC
    ambientTempF := fahrenheit reading.ambientTempC
    fanPercent := reading.fanPercent
    fanIsStale := reading.fanIsStale
    timeRemainingS := reading.timeRemainingS
    minTargetC := reading.minTargetC
    maxTargetC := reading.maxTargetC
    maxRuntimeS := reading.maxRuntimeS
    anomalies := reading.errors }

/-- The result of asking the device to do something. `sent` is the hex of the
bytes put on the wire, or `none` when nothing was sent. -/
structure CommandOutcome where
  ok : Bool
  changed : Bool
  detail : String
  sent : Option String
  dryRun : Bool
  before : DeviceSnapshot
  after : DeviceSnapshot

end Bedjet.Api
