import Bedjet.Device.Trust
import Bedjet.Protocol.Snapping
import Bedjet.Service.Segments

/-!
What is sent and what is verified. Every command sends one byte; a device that
adopts it reports the same byte, or for a mode the status value that belongs to
it, at one offset of its status. The predicates of the commander test for just
that.
-/

namespace Bedjet.Service

open Python Protocol Device
open Encode (opcodeButton opcodeTemperature opcodeFan)

/-- The unlocked mode operands, each with the status value that belongs to it. -/
def pairedModes : List (UInt8 × ℕ) :=
  [(0x01, 0x00), (0x02, 0x04), (0x03, 0x01), (0x05, 0x05)]

/-- A status reports, at the offset of the quantity, the value the payload asks
for. -/
inductive Adopts (d : Bytes) : Bytes → Prop
  | mode {operand : UInt8} {raw : ℕ} (hpair : (operand, raw) ∈ pairedModes)
      (hbyte : u8 d Offset.mode = some raw) : Adopts d [opcodeButton, operand]
  | target {operand : UInt8} (hbyte : u8 d Offset.targetTemp = some operand.toNat) :
      Adopts d [opcodeTemperature, operand]
  | fan {operand : UInt8} (hbyte : u8 d Offset.fanStep = some operand.toNat) :
      Adopts d [opcodeFan, operand]

section

variable {d : Bytes} {operand : UInt8}

theorem adopts_mode_iff {raw : ℕ} (hpair : (operand, raw) ∈ pairedModes) :
    Adopts d [opcodeButton, operand] ↔ u8 d Offset.mode = some raw := by
  constructor
  · intro h
    cases h with
    | @mode _ raw' hpair' hbyte =>
        -- the operands are different, so each has one value
        obtain rfl : raw' = raw := by
          simp only [pairedModes, List.mem_cons, Prod.mk.injEq, List.not_mem_nil] at hpair hpair'
          grind
        exact hbyte
  · exact .mode hpair

theorem adopts_target_iff :
    Adopts d [opcodeTemperature, operand] ↔ u8 d Offset.targetTemp = some operand.toNat := by
  constructor
  · intro h
    cases h with
    | target hbyte => exact hbyte
  · exact .target

theorem adopts_fan_iff :
    Adopts d [opcodeFan, operand] ↔ u8 d Offset.fanStep = some operand.toNat := by
  constructor
  · intro h
    cases h with
    | fan hbyte => exact hbyte
  · exact .fan

end

/-! ### What the decoder makes of the bytes -/

section

variable {d : Bytes} {available : Bool}

theorem mode_iff (hd : minStatusLength ≤ d.length) {mode : StatusMode} :
    (BedJetState.fromStatus (decodeStatus d) available).mode = some mode ↔
      u8 d Offset.mode = some mode.value := by
  rw [decodeStatus_of_length hd]
  show (u8 d Offset.mode).bind StatusMode.ofValue = some mode ↔ _
  simp [Option.bind_eq_some_iff, StatusMode.ofValue_eq_some_iff]

theorem targetTempC_iff (hd : minStatusLength ≤ d.length) {raw : ℕ} :
    (BedJetState.fromStatus (decodeStatus d) available).targetTempC = some (tempByteToC raw) ↔
      u8 d Offset.targetTemp = some raw := by
  rw [decodeStatus_of_length hd]
  show (u8 d Offset.targetTemp).map tempByteToC = some (tempByteToC raw) ↔ _
  rw [Option.map_eq_some_iff]
  constructor
  · rintro ⟨raw', hbyte, hvalue⟩
    rw [hbyte, tempByteToC_injective hvalue]
  · intro hbyte
    exact ⟨raw, hbyte, rfl⟩

/-- A step out of range decodes to no percentage at all. -/
theorem fanPercent_iff (hd : minStatusLength ≤ d.length) {step : ℕ} (hstep : step ≤ 19) :
    (BedJetState.fromStatus (decodeStatus d) available).fanPercent =
      some (fanStepToPercent step) ↔ u8 d Offset.fanStep = some step := by
  rw [decodeStatus_of_length hd]
  show decodeFanPercent d = some (fanStepToPercent step) ↔ _
  rw [decodeFanPercent]
  simp only [Option.bind_eq_bind, Option.bind_eq_some_iff, Option.ite_none_right_eq_some,
    Option.some.injEq]
  constructor
  · rintro ⟨step', hbyte, -, hvalue⟩
    have hsame : (step' : ℤ) = step := fanStepToPercent_injective hvalue
    rw [hbyte, Int.ofNat_inj.mp hsame]
  · intro hbyte
    exact ⟨step, hbyte, ⟨by simp, by simp; omega⟩, rfl⟩

end

/-! ### What the commands verify -/

/-- In standby, and off: the two alternatives of the predicate are one. -/
theorem satisfied_standby_iff {packet : StatusPacket} {available : Bool} :
    Goal.standby.satisfied (.fromStatus packet available) ↔
      (BedJetState.fromStatus packet available).mode = some .standby := by
  have hoff : BedJetState.powerOf packet.mode = .off ↔ packet.mode = some .standby := by
    cases hmode : packet.mode with
    | none => simp [BedJetState.powerOf]
    | some mode => cases mode <;> simp [BedJetState.powerOf]
  simp [Goal.satisfied, BedJetState.fromStatus, hoff]

theorem pair_of_unlocked {operand : CommandMode} {expected : StatusMode}
    (hunlocked : operand ∈ unlockedModes) (hexpected : expectedStatusFor operand = some expected) :
    (UInt8.ofNat (operand.value : ℤ).toNat, expected.value) ∈ pairedModes := by
  simp only [unlockedModes, List.mem_cons, List.not_mem_nil, or_false] at hunlocked
  rcases hunlocked with rfl | rfl | rfl | rfl <;> cases hexpected <;> decide

/-- The predicate of a command holds of a status that reports what the payload of
the command asked for, and of no other. -/
theorem Request.Orders.satisfied_iff {request : Request} {base : Sample} {payload d : Bytes}
    {goal : Goal} (h : request.Orders base payload goal) (hd : minStatusLength ≤ d.length)
    (available : Bool) :
    goal.satisfied (.fromStatus (decodeStatus d) available) ↔ Adopts d payload := by
  cases h with
  | off =>
      rw [satisfied_standby_iff, mode_iff hd]
      exact (adopts_mode_iff (by decide)).symm
  | mode base hunlocked hexpected =>
      rw [Goal.satisfied, decide_eq_true_eq, mode_iff hd]
      exact (adopts_mode_iff (pair_of_unlocked hunlocked hexpected)).symm
  | temperature hon hsnap hset =>
      obtain ⟨b, low, high, rfl, rfl, -⟩ := (Encode.setTemperature_ok_iff hsnap).mp hset
      rw [Goal.satisfied, decide_eq_true_eq, targetTempC_iff hd, adopts_target_iff]
  | fan hon hsnap hset =>
      obtain ⟨b, -, hb, rfl, hset'⟩ := Encode.setFanPercent_of_snapped hsnap
      obtain rfl := Except.ok.inj (hset.symm.trans hset')
      rw [Goal.satisfied, decide_eq_true_eq, fanPercent_iff hd hb, adopts_fan_iff]

/-! ### The orders of a command -/

/-- The order a command has worked out and not settled yet. -/
def Pc.order? : Pc → Option Order
  | .before order _ | .writing order _ _ | .settling order _ _ _ => some order
  | .fresh | .baseline _ _ | .ended _ => none

theorem Command.Sound.orders {c : Command} {order : Order} (h : c.Sound)
    (horder : c.pc.order? = some order) :
    ∃ base, c.request.Orders base order.payload order.goal := by
  cases hpc : c.pc with
  | fresh => simp [hpc, Pc.order?] at horder
  | baseline => simp [hpc, Pc.order?] at horder
  | before order' wait =>
      obtain rfl : order' = order := by simpa [hpc, Pc.order?] using horder
      have hsound : order'.dryRun = c.dryRun ∧
          ∀ base, c.request.Orders base order'.payload order'.goal := by
        simpa [Command.Sound, hpc] using h
      exact ⟨⟨{}, decodeStatus [], 0⟩, hsound.2 _⟩
  | writing order' base delivered =>
      obtain rfl : order' = order := by simpa [hpc, Pc.order?] using horder
      exact ⟨base, (h.wrote_of_writing hpc).orders⟩
  | settling order' base deadline wait =>
      obtain rfl : order' = order := by simpa [hpc, Pc.order?] using horder
      exact ⟨base, (h.wrote_of_settling hpc).orders⟩
  | ended => simp [hpc, Pc.order?] at horder

end Bedjet.Service
