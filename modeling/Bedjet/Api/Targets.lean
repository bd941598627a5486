import Bedjet.Api.CallRuns
import Bedjet.Api.Deciding
import Bedjet.Api.PacketType

/-!
A target temperature from the request to the wire. The API snaps it to half
degrees and the commander snaps it again, then compares it with bounds that are
half degrees themselves: so snapping moves it by a quarter degree at most, never
across a bound, and the second time not at all.
-/

namespace Bedjet.Api

open Python Protocol Device Service Asyncio
open Encode (opcodeTemperature targetRaw snapTargetC halfDegrees)

/-- `set_temperature(celsius=...)` -/
def askFor (celsius : ℚ) : ApiRequest :=
  .setTemperature (some (.finite celsius)) none

/-- What the API makes of a target that is encoded to `b`. -/
def resolvedTarget (b : UInt8) : Resolved where
  request := .adjust (.temperature (.finite (tempByteToC b.toNat)))
  description := "target " ++ fixed 1 (tempByteToC b.toNat) ++ "C"

/-- What the commander sends, describes and verifies for it. -/
def targetOrder (b : UInt8) (dryRun : Bool) : Order where
  payload := [opcodeTemperature, b]
  description := "target -> " ++ fixed 1 (tempByteToC b.toNat) ++ "C (" ++
    fixed 1 (cToF (tempByteToC b.toNat)) ++ "F)"
  goal := .target (tempByteToC b.toNat)
  dryRun

/-! ### What the API and the commander make of a target -/

theorem point_toNat (b : UInt8) : halfDegrees.point b.toNat = tempByteToC b.toNat := by
  rw [Encode.point_halfDegrees, tempByteToC]
  norm_cast

/-- A byte reports a point of the grid. -/
theorem exists_point_of_decodeTemp {d : Bytes} {offset : ℕ} {celsius : ℚ}
    (h : decodeTemp d offset = some celsius) :
    ∃ b : UInt8, celsius = halfDegrees.point b.toNat := by
  obtain ⟨raw, hraw, rfl⟩ := Option.map_eq_some_iff.mp h
  obtain ⟨b, -, rfl⟩ := Option.map_eq_some_iff.mp hraw
  exact ⟨b, (point_toNat b).symm⟩

/-- The bounds a packet reports are points of the grid. -/
theorem exists_point_of_bounds {d : Bytes} {low high : ℚ}
    (hlow : (decodeStatus d).minTempC = some low) (hhigh : (decodeStatus d).maxTempC = some high) :
    (∃ b : UInt8, low = halfDegrees.point b.toNat) ∧
      ∃ b : UInt8, high = halfDegrees.point b.toNat := by
  rw [decodeStatus] at hlow hhigh
  split at hlow
  · simp at hlow
  · split at hlow
    · simp [decodeShort] at hlow
    · rename_i hne hshort
      rw [if_neg hne, if_neg hshort] at hhigh
      exact ⟨exists_point_of_decodeTemp hlow, exists_point_of_decodeTemp hhigh⟩

theorem exists_byte {celsius : Double} {raw : ℤ} (h : targetRaw celsius = .ok raw) :
    ∃ b : UInt8, raw = b.toNat := by
  obtain ⟨hlo, hhi⟩ := Encode.targetRaw_eq_ok h
  exact ⟨UInt8.ofNat raw.toNat, (Encode.toNat_ofNat_toNat hlo hhi).symm⟩

/-- The API resolves a target that can be encoded. -/
theorem resolve_askFor {celsius : ℚ} {b : UInt8} (h : targetRaw (.finite celsius) = .ok b.toNat) :
    (askFor celsius).resolve = .ok (resolvedTarget b) := by
  have hsnap : snapTargetC (.finite celsius) = .ok (tempByteToC b.toNat) :=
    Encode.snapTargetC_iff.mpr ⟨b.toNat, h, (point_toNat b).symm⟩
  show resolveTarget (.finite celsius) = _
  rw [resolveTarget, hsnap]
  rfl

theorem resolved_of_askFor {celsius : ℚ} {resolved : Resolved}
    (h : (askFor celsius).resolve = .ok resolved) :
    ∃ b : UInt8, targetRaw (.finite celsius) = .ok b.toNat ∧ resolved = resolvedTarget b := by
  cases hraw : targetRaw (.finite celsius) with
  | error e =>
      have herror : snapTargetC (.finite celsius) = .error e := by
        simp [snapTargetC, hraw, bind, Except.bind]
      have hresolve : resolveTarget (.finite celsius) = .ok resolved := h
      simp [resolveTarget, herror] at hresolve
  | ok raw =>
      obtain ⟨b, rfl⟩ := exists_byte hraw
      exact ⟨b, rfl, Except.ok.inj (h.symm.trans (resolve_askFor hraw))⟩

theorem snapTargetC_byte (b : UInt8) :
    snapTargetC (.finite (tempByteToC b.toNat)) = .ok (tempByteToC b.toNat) := by
  have hraw : targetRaw (.finite (tempByteToC b.toNat)) = .ok b.toNat := by
    have hlt := b.toNat_lt
    rw [← point_toNat, Encode.point_halfDegrees]
    exact Encode.targetRaw_snapped (by omega) (by omega)
  exact Encode.snapTargetC_iff.mpr ⟨b.toNat, hraw, (point_toNat b).symm⟩

section

variable {b : UInt8} {dryRun : Bool} {base : Sample} {low high : ℚ}

/-- Within the bounds the commander orders the target it was given. -/
theorem order_of_bounds (hlow : base.packet.minTempC = some low)
    (hhigh : base.packet.maxTempC = some high) (hle : low ≤ tempByteToC b.toNat)
    (hge : tempByteToC b.toNat ≤ high) :
    (Adjustment.temperature (.finite (tempByteToC b.toNat))).order dryRun base =
      .ok (targetOrder b dryRun) := by
  have hset : Encode.setTemperature (tempByteToC b.toNat) base.packet.minTempC
      base.packet.maxTempC = .ok [opcodeTemperature, b] :=
    (Encode.setTemperature_ok_iff (snapTargetC_byte b)).mpr
      ⟨b, low, high, rfl, rfl, hlow, hhigh, hle, hge⟩
  simp [Adjustment.order, snapTargetC_byte, hset, bind, Except.bind, pure, Except.pure,
    targetOrder]

/-- Outside of them it fails to. -/
theorem order_of_out_of_bounds (hlow : base.packet.minTempC = some low)
    (hhigh : base.packet.maxTempC = some high)
    (hout : tempByteToC b.toNat < low ∨ high < tempByteToC b.toNat) :
    ∃ message, (Adjustment.temperature (.finite (tempByteToC b.toNat))).order dryRun base =
      .error (.command message) := by
  cases hset : Encode.setTemperature (tempByteToC b.toNat) base.packet.minTempC
      base.packet.maxTempC with
  | error e =>
      obtain ⟨message, rfl⟩ := Encode.error_setTemperature (snapTargetC_byte b) hset
      exact ⟨message, by simp [Adjustment.order, snapTargetC_byte, hset, bind, Except.bind]⟩
  | ok payload =>
      obtain ⟨-, low', high', -, -, hlow', hhigh', hle, hge⟩ :=
        (Encode.setTemperature_ok_iff (snapTargetC_byte b)).mp hset
      obtain rfl : low' = low := Option.some.inj (hlow'.symm.trans hlow)
      obtain rfl : high' = high := Option.some.inj (hhigh'.symm.trans hhigh)
      rcases hout with hout | hout
      · exact absurd hle (not_le.mpr hout)
      · exact absurd hge (not_le.mpr hout)

end

/-! ### Decisions on a target -/

namespace System

/-- A call for a target, made in some state, whose command has based itself on a
reading of a running unit that reports its bounds. -/
structure Weighed (cfg : Config) (celsius : ℚ) (t : System) (call : ApiCall) (n : ℕ)
    (base : Sample) (low high : ℚ) : Prop where
  run : ∃ s s₁ dryRun actions, Reachable cfg s ∧
    (machine cfg).step s (.call (askFor celsius) dryRun) = some s₁ ∧
    (machine cfg).run s₁ actions = some t ∧ t.calls[s.calls.length]? = some call
  command : call.command = some n
  based : .command n (.based base) ∈ t.trace
  running : base.state.power = .on
  low : base.packet.minTempC = some low
  high : base.packet.maxTempC = some high

/-- What snapping owes to a target. -/
structure SnapsSafely (celsius : ℚ) : Prop where
  /-- the API turns it down by a refusal, and only if no bounds admit it -/
  refused : ∀ answer, (askFor celsius).resolve = .error answer →
    (∃ message, answer = .refused message) ∧
      ∀ d low high, (decodeStatus d).minTempC = some low → (decodeStatus d).maxTempC = some high →
        ¬(low ≤ celsius ∧ celsius ≤ high)
  /-- the value described is the value encoded -/
  resolved : ∀ resolved, (askFor celsius).resolve = .ok resolved →
    ∃ b : UInt8, targetRaw (.finite celsius) = .ok b.toNat ∧ resolved = resolvedTarget b
  twice : ∀ rounded, snapTargetC (.finite celsius) = .ok rounded →
    snapTargetC (.finite rounded) = .ok rounded
  monotone : ∀ celsius' raw raw', celsius ≤ celsius' → targetRaw (.finite celsius) = .ok raw →
    targetRaw (.finite celsius') = .ok raw' → raw ≤ raw'
  /-- within the bounds it is not turned down, and the nearest half degree is
  sent, described and verified, which is within the bounds too -/
  accepted : ∀ cfg t call n base low high, Weighed cfg celsius t call n base low high →
    low ≤ celsius → celsius ≤ high →
      ∃ b : UInt8, targetRaw (.finite celsius) = .ok b.toNat ∧
        |tempByteToC b.toNat - celsius| ≤ 1 / 4 ∧
        low ≤ tempByteToC b.toNat ∧ tempByteToC b.toNat ≤ high ∧
        (∀ message, call.answer ≠ some (.refused message)) ∧
        (∀ payload ∈ writesOf n t.trace, payload = [opcodeTemperature, b]) ∧
        ∀ c order, t.commander.commands[n]? = some c → c.pc.order? = some order →
          order = targetOrder b call.dryRun
  /-- more than a quarter degree outside it is refused, and nothing is sent -/
  declined : ∀ cfg t call n base low high, Weighed cfg celsius t call n base low high →
    celsius < low - 1 / 4 ∨ high + 1 / 4 < celsius →
      writesOf n t.trace = [] ∧ ∃ message, call.answer = some (.refused message)

variable {cfg : Config} {s s₁ t : System} {celsius : ℚ}

theorem Reachable.based (h : Reachable cfg s) : s.Based := by
  have hall := h.invariant (I := fun s => s.Accounted ∧ s.Based) ?_
    fun s a s' hs hI heffect => ⟨hI.1.effect hs heffect, hI.2.effect hI.1 heffect⟩
  · exact hall.2.2
  · refine ⟨accounted_initial, ?_⟩
    intro i sample hmem
    simp at hmem

/-- What a call for a target has come to, once its command has a baseline. -/
theorem Weighed.judged {call : ApiCall} {n : ℕ} {base : Sample} {low high : ℚ}
    (h : Weighed cfg celsius t call n base low high) :
    Reachable cfg t ∧ ∃ (b : UInt8) (c : Command), targetRaw (.finite celsius) = .ok b.toNat ∧
      t.commander.commands[n]? = some c ∧ call.Told c ∧
      Judged ((Adjustment.temperature (.finite (tempByteToC b.toNat))).order call.dryRun base) base
        (writesOf n t.trace) c.pc := by
  obtain ⟨s, s₁, dryRun, actions, hreach, hstep, hrun, hcall⟩ := h.run
  have hreach' := (hreach.step hstep).run hrun
  obtain ⟨resolved, c, hresolve, -, hc, hrequest, htold⟩ :=
    command_of_call hreach hstep hrun hcall h.command
  obtain ⟨b, hraw, rfl⟩ := resolved_of_askFor hresolve
  have happlies : (Adjustment.temperature (.finite (tempByteToC b.toNat))).Applies base := by
    simp [Adjustment.Applies, h.running, h.low, h.high]
  have hjudged := hreach'.decided n c _ base hc hrequest h.based happlies
  rw [htold.1] at hjudged
  exact ⟨hreach', b, c, hraw, hc, htold, hjudged⟩

/-- The bounds of a baseline are points of the grid. -/
theorem Reachable.bounds (h : Reachable cfg s) {n : ℕ} {base : Sample} {low high : ℚ}
    (hbased : .command n (.based base) ∈ s.trace) (hlow : base.packet.minTempC = some low)
    (hhigh : base.packet.maxTempC = some high) :
    (∃ b : UInt8, low = halfDegrees.point b.toNat) ∧
      ∃ b : UInt8, high = halfDegrees.point b.toNat := by
  obtain ⟨data, -, -, hpacket, -⟩ := (h.accounted.attested (h.based n base hbased)).bytes
  rw [hpacket] at hlow hhigh
  exact exists_point_of_bounds hlow hhigh

theorem isFinite_doubled :
    ((Double.finite celsius).lift (· * tempScale)).isFinite ↔
      -Double.overflowBound < celsius * tempScale ∧ celsius * tempScale < Double.overflowBound :=
  Double.isFinite_ofRat

/-- A target that is encoded was doubled to a finite double. -/
theorem finite_of_targetRaw {raw : ℤ} (h : targetRaw (.finite celsius) = .ok raw) :
    -Double.overflowBound < celsius * tempScale ∧ celsius * tempScale < Double.overflowBound :=
  isFinite_doubled.mp (Encode.isFinite_of_snapTargetC (Encode.snapTargetC_iff.mpr ⟨raw, h, rfl⟩))

/-- Where a target is doubled to a finite double, what it is encoded to is the
index of its nearest half degree. -/
theorem byte_eq_index (hlo : -Double.overflowBound < celsius * tempScale)
    (hhi : celsius * tempScale < Double.overflowBound) {b : UInt8}
    (hraw : targetRaw (.finite celsius) = .ok b.toNat) :
    tempByteToC b.toNat = halfDegrees.snap roundHalfEven celsius := by
  rw [← point_toNat, Rounding.Grid.snap, ((Encode.targetRaw_finite hlo hhi).mp hraw).2]

theorem abs_byte_sub_le (hlo : -Double.overflowBound < celsius * tempScale)
    (hhi : celsius * tempScale < Double.overflowBound) {b : UInt8}
    (hraw : targetRaw (.finite celsius) = .ok b.toNat) :
    |tempByteToC b.toNat - celsius| ≤ 1 / 4 := by
  have hmoved := halfDegrees.abs_snap_sub_le nearest_roundHalfEven celsius
  rw [byte_eq_index hlo hhi hraw]
  refine hmoved.trans_eq ?_
  show (1 / 2 : ℚ) / 2 = 1 / 4
  norm_num

theorem snapsSafely_of_finite (hlo : -Double.overflowBound < celsius * tempScale)
    (hhi : celsius * tempScale < Double.overflowBound) : SnapsSafely celsius where
  refused answer hresolve := by
    have htarget : resolveTarget (.finite celsius) = .error answer := hresolve
    cases hsnap : snapTargetC (.finite celsius) with
    | ok rounded => simp [resolveTarget, hsnap] at htarget
    | error e =>
        obtain ⟨message, rfl⟩ := Encode.error_snapTargetC (isFinite_doubled.mpr ⟨hlo, hhi⟩) hsnap
        refine ⟨⟨message, by simpa [resolveTarget, hsnap, ofEncodeError] using htarget.symm⟩, ?_⟩
        rintro d low high hlow hhigh ⟨hle, hge⟩
        -- a target between two bytes is encoded to a byte
        obtain ⟨⟨l, rfl⟩, h, rfl⟩ := exists_point_of_bounds hlow hhigh
        have hindexLow := halfDegrees.le_index nearest_roundHalfEven hle
        have hindexHigh := halfDegrees.index_le nearest_roundHalfEven hge
        have hbyte := h.toNat_lt
        have hraw : targetRaw (.finite celsius) =
            .ok (halfDegrees.index roundHalfEven celsius) :=
          (Encode.targetRaw_finite hlo hhi).mpr ⟨⟨by omega, by omega⟩, rfl⟩
        have hok := Encode.snapTargetC_iff.mpr ⟨_, hraw, rfl⟩
        simp [hsnap] at hok
  resolved resolved hresolve := resolved_of_askFor hresolve
  twice rounded hsnap := Encode.snapTargetC_snapped hsnap
  monotone celsius' raw raw' hle hraw hraw' := by
    obtain ⟨hlo', hhi'⟩ := finite_of_targetRaw hraw'
    obtain ⟨-, rfl⟩ := (Encode.targetRaw_finite hlo hhi).mp hraw
    obtain ⟨-, rfl⟩ := (Encode.targetRaw_finite hlo' hhi').mp hraw'
    exact halfDegrees.index_mono nearest_roundHalfEven hle
  accepted cfg t call n base low high hweighed hle hge := by
    obtain ⟨hreach, b, c, hraw, hc, htold, hjudged⟩ := hweighed.judged
    have hsnap := byte_eq_index hlo hhi hraw
    have hnear := abs_byte_sub_le hlo hhi hraw
    obtain ⟨⟨l, hl⟩, h, hh⟩ := hreach.bounds hweighed.based hweighed.low hweighed.high
    have hleByte : low ≤ tempByteToC b.toNat := by
      rw [hsnap, hl]
      exact halfDegrees.point_le_snap nearest_roundHalfEven (hl ▸ hle)
    have hgeByte : tempByteToC b.toNat ≤ high := by
      rw [hsnap, hh]
      exact halfDegrees.snap_le_point nearest_roundHalfEven (hh ▸ hge)
    rw [order_of_bounds hweighed.low hweighed.high hleByte hgeByte] at hjudged
    refine ⟨b, hraw, hnear, hleByte, hgeByte, ?_, hjudged.payload_eq, ?_⟩
    · intro message hanswer
      obtain ⟨ending, description, first, last, hpc, htranslated⟩ :=
        answered_of_told htold hanswer
      rw [hpc] at hjudged
      exact Judged.not_refused hjudged description call.dryRun first last message htranslated.symm
    · intro c' order hc' horder
      obtain rfl : c = c' := Option.some.inj (hc.symm.trans hc')
      exact hjudged.order_eq horder
  declined cfg t call n base low high hweighed hout := by
    obtain ⟨hreach, b, c, hraw, hc, htold, hjudged⟩ := hweighed.judged
    have hmoved := abs_le.mp (abs_byte_sub_le hlo hhi hraw)
    obtain ⟨message, horder⟩ : ∃ message,
        (Adjustment.temperature (.finite (tempByteToC b.toNat))).order call.dryRun base =
          .error (.command message) := by
      apply order_of_out_of_bounds hweighed.low hweighed.high
      rcases hout with hout | hout
      · exact .inl (by linarith [hmoved.2])
      · exact .inr (by linarith [hmoved.1])
    rw [horder] at hjudged
    obtain ⟨hpc, hnone⟩ := hjudged.of_error
    have hanswer := htold.2
    simp only [hpc] at hanswer
    obtain ⟨description, first, last, hanswer⟩ := hanswer
    exact ⟨hnone, message, hanswer⟩

theorem SnapsSafely.finite (h : SnapsSafely celsius) :
    -Double.overflowBound < celsius * tempScale ∧
      celsius * tempScale < Double.overflowBound := by
  rw [← isFinite_doubled, ← Bool.not_eq_false]
  intro hno
  obtain ⟨e, he⟩ := Encode.snapTargetC_unconverted hno
  have hresolve : (askFor celsius).resolve = .error (.escaped (.encode (.conversion e))) := by
    show resolveTarget (.finite celsius) = _
    rw [resolveTarget, he]
    rfl
  obtain ⟨⟨message, hrefused⟩, -⟩ := h.refused _ hresolve
  simp at hrefused

/-- Snapping does to a target what it owes it, whatever happens between the call
and the decision, if and only if doubling the target does not overflow. -/
theorem target_is_snapped_safely_iff (celsius : ℚ) :
    SnapsSafely celsius ↔
      -Double.overflowBound < celsius * tempScale ∧
        celsius * tempScale < Double.overflowBound :=
  ⟨SnapsSafely.finite, fun h => snapsSafely_of_finite h.1 h.2⟩

/-- A target of which the double is out of range leaves the encoder by another
exception. -/
theorem target_can_overflow : ¬∀ celsius : ℚ, SnapsSafely celsius := by
  intro hall
  obtain ⟨-, hhi⟩ := (hall ((2 ^ 1023 : ℕ) : ℚ)).finite
  have hnat : (2 ^ 1024 - 2 ^ 970 : ℕ) ≤ 2 ^ 1023 * 2 := by decide +kernel
  have hbound : Double.overflowBound ≤ ((2 ^ 1023 * 2 : ℕ) : ℚ) := Nat.cast_le.mpr hnat
  rw [Nat.cast_mul] at hbound
  exact absurd hhi (not_lt.mpr hbound)

example : ((machine {}).run {} [.start, .link 0 .connected, .link 0 .subscribed,
    .notify coolPacket, .call (askFor (201 / 10)) false]).any fun s =>
      writesOf 0 s.trace = [[0x03, 40]] := by
  decide +kernel

end System

end Bedjet.Api
