import Bedjet.Device.State

/-!
What a trustworthy packet guarantees. The bytes the checksum verified are the
first `declared_length + 4`, and the length byte is one of them; the fields sit
at fixed offsets. So the fields a state is built from are all verified exactly
when the declared length reaches the last of them, the sequence step at offset
28.
-/

namespace Bedjet.Device

open Python Protocol

/-! ### Reading a byte string at an offset -/

/-- A byte below the agreement of two strings is the same in both. -/
theorem u8_congr_of_take {d d' : Bytes} {k i : ℕ} (h : d'.take k = d.take k) (hi : i < k) :
    u8 d' i = u8 d i := by
  have hget (x : Bytes) : (x.take k)[i]? = x[i]? := List.getElem?_take_of_lt hi
  rw [u8, u8, ← hget d', ← hget d, h]

/-! ### What trustworthy means in bytes -/

/-- Complete, and the declared bytes sum to zero mod 256. -/
def Verified (d : Bytes) (declared : ℕ) : Prop :=
  u8 d Offset.payloadLength = some declared ∧ declared + headerLength ≤ d.length ∧
    byteSum (d.take (declared + headerLength)) % 256 = 0

theorem verifyChecksum_take {d : Bytes} {declared : ℕ}
    (hlen : declared + headerLength ≤ d.length) :
    verifyChecksum (d.take (declared + headerLength)) =
      decide (byteSum (d.take (declared + headerLength)) % 256 = 0) := by
  have hne : (d.take (declared + headerLength)).isEmpty = false := by
    cases d with
    | nil => simp [headerLength] at hlen
    | cons b d => simp [headerLength]
  simp [verifyChecksum, hne]

theorem decodeChecksum_eq_true_iff {d : Bytes} :
    decodeChecksum d = some true ↔ ∃ declared, Verified d declared := by
  unfold decodeChecksum Verified
  cases hb : u8 d Offset.payloadLength with
  | none => simp
  | some declared =>
      by_cases hlen : declared + headerLength ≤ d.length
      · simp [hlen, verifyChecksum_take hlen]
      · simp [hlen]

@[simp] theorem raw_decodeStatus (d : Bytes) : (decodeStatus d).raw = d := by
  rw [decodeStatus]
  split
  · rename_i h
    simp [List.isEmpty_iff.mp h]
  · split <;> rfl

theorem decodeStatus_of_length {d : Bytes} (h : minStatusLength ≤ d.length) :
    decodeStatus d = decodeFields d := by
  have hne : d.isEmpty = false := by
    cases d with
    | nil => simp [minStatusLength] at h
    | cons => rfl
  simp [decodeStatus, hne, not_lt.mpr h]

/-- A packet is trustworthy when it has the minimum length and the bytes it
declares are there and sum to zero. -/
theorem isTrustworthy_decodeStatus_iff {d : Bytes} :
    (decodeStatus d).isTrustworthy ↔
      minStatusLength ≤ d.length ∧ ∃ declared, Verified d declared := by
  by_cases hlen : minStatusLength ≤ d.length
  · rw [decodeStatus_of_length hlen]
    have hsum : (decodeFields d).checksumOk = some true ↔ ∃ declared, Verified d declared :=
      decodeChecksum_eq_true_iff
    simp only [StatusPacket.isTrustworthy, Bool.and_eq_true, beq_iff_eq, hsum, hlen, true_and,
      and_iff_left_iff_imp]
    rintro ⟨declared, hbyte, htotal, -⟩
    have hdeclared : (decodeFields d).declaredLength = some declared := hbyte
    have hraw : (decodeFields d).raw = d := rfl
    simp [StatusPacket.isComplete, StatusPacket.expectedTotal, hdeclared, hraw, htotal]
  · have hshort : (decodeStatus d).checksumOk = none := by
      rw [decodeStatus]
      split
      · rfl
      · rw [if_pos (by omega)]
        rfl
    simp [StatusPacket.isTrustworthy, hshort, hlen]

/-! ### Which fields are verified -/

/-- A state without its anomaly list. -/
def BedJetState.sansErrors (s : BedJetState) : BedJetState :=
  { s with errors := [] }

/-- Strings that agree up to the sequence step decode to the same state, their
anomalies apart. -/
theorem fromStatus_congr_of_take {d d' : Bytes} {k : ℕ} (hk : Offset.sequenceStep < k)
    (h : d'.take k = d.take k) (hd : minStatusLength ≤ d.length)
    (hd' : minStatusLength ≤ d'.length) :
    (BedJetState.fromStatus (decodeStatus d')).sansErrors =
      (BedJetState.fromStatus (decodeStatus d)).sansErrors := by
  have hu (i : ℕ) (hi : i ≤ 28) : u8 d' i = u8 d i := u8_congr_of_take h (by simp at hk; omega)
  rw [decodeStatus_of_length hd, decodeStatus_of_length hd']
  simp [BedJetState.sansErrors, BedJetState.fromStatus, decodeFields, decodeTemp, timeRemaining,
    decodeFanPercent, maxRuntime, hu]

/-- `d` cut to its verified bytes, and continued with a chosen sequence step. -/
def withSequenceStep (d : Bytes) (declared : ℕ) (b : UInt8) : Bytes :=
  d.take (declared + headerLength) ++
    (List.replicate (Offset.sequenceStep - (declared + headerLength)) 0 ++ [b])

theorem take_withSequenceStep {d : Bytes} {declared : ℕ} (b : UInt8)
    (hlen : declared + headerLength ≤ d.length) :
    (withSequenceStep d declared b).take (declared + headerLength) =
      d.take (declared + headerLength) := by
  rw [withSequenceStep, List.take_append_of_le_length (by simpa using hlen)]
  simp

theorem sequenceStep_withSequenceStep {d : Bytes} {declared : ℕ} (b : UInt8)
    (hlen : declared + headerLength ≤ d.length) (hshort : declared < 25) :
    u8 (withSequenceStep d declared b) Offset.sequenceStep = some b.toNat := by
  have htake : (d.take (declared + headerLength)).length = declared + headerLength := by
    simpa using hlen
  rw [u8, withSequenceStep, List.getElem?_append_right (by rw [htake]; simp; omega), htake]
  simp

/-- Whatever lies beyond the verified bytes may be replaced: the packet stays
trustworthy. -/
theorem verified_withSequenceStep {d : Bytes} {declared : ℕ} (b : UInt8)
    (h : Verified d declared) : Verified (withSequenceStep d declared b) declared := by
  obtain ⟨hbyte, hlen, hsum⟩ := h
  have htake := take_withSequenceStep b hlen
  refine ⟨?_, ?_, by rw [htake]; exact hsum⟩
  · rw [u8_congr_of_take htake (by simp [headerLength])]
    exact hbyte
  · simp only [withSequenceStep, List.length_append, List.length_take]
    simp at hlen ⊢
    omega

theorem length_withSequenceStep {d : Bytes} {declared : ℕ} (b : UInt8)
    (hlen : declared + headerLength ≤ d.length) (hshort : declared < 25) :
    (withSequenceStep d declared b).length = 29 := by
  simp only [withSequenceStep, List.length_append, List.length_take, List.length_replicate,
    List.length_singleton]
  simp at hlen ⊢
  omega

/-- The trustworthy packets that agree with `d` on its verified bytes all decode
to the state of `d`, anomalies apart, exactly when the declared length reaches
the sequence step. -/
theorem trusted_state_determined_iff {d : Bytes} {declared : ℕ}
    (hd : (decodeStatus d).isTrustworthy) (hbyte : u8 d Offset.payloadLength = some declared) :
    (∀ d', d'.take (declared + headerLength) = d.take (declared + headerLength) →
      (decodeStatus d').isTrustworthy →
      (BedJetState.fromStatus (decodeStatus d')).sansErrors =
        (BedJetState.fromStatus (decodeStatus d)).sansErrors) ↔ 25 ≤ declared := by
  obtain ⟨hmin, declared', hver⟩ := isTrustworthy_decodeStatus_iff.mp hd
  obtain rfl : declared' = declared := by simpa [hbyte] using hver.1.symm
  constructor
  · intro h
    by_contra hshort
    have hlen := hver.2.1
    -- a sequence step other than the one `d` reports, if it reports one
    obtain ⟨b, hb⟩ : ∃ b : UInt8, u8 d Offset.sequenceStep ≠ some b.toNat := by
      by_cases h0 : u8 d Offset.sequenceStep = some (0 : UInt8).toNat
      · exact ⟨1, by rw [h0]; decide⟩
      · exact ⟨0, h0⟩
    have hlong := length_withSequenceStep b hlen (by omega)
    have hmin' : minStatusLength ≤ (withSequenceStep d declared' b).length := by
      rw [hlong]; decide
    have heq := h _ (take_withSequenceStep b hlen)
      (isTrustworthy_decodeStatus_iff.mpr ⟨hmin', declared', verified_withSequenceStep b hver⟩)
    rw [decodeStatus_of_length hmin, decodeStatus_of_length hmin'] at heq
    have hstep : u8 (withSequenceStep d declared' b) Offset.sequenceStep =
        u8 d Offset.sequenceStep := congrArg BedJetState.sequenceStep heq
    rw [sequenceStep_withSequenceStep b hlen (by omega)] at hstep
    exact hb hstep.symm
  · intro hlong d' htake hd'
    exact fromStatus_congr_of_take (by simp; omega) htake hmin
      (isTrustworthy_decodeStatus_iff.mp hd').1

/-- A status packet captured from a unit in standby. -/
def standbyPacket : Bytes :=
  [0x01, 0x56, 0x1b, 0x01, 0x00, 0x00, 0x00, 0x30, 0x30, 0x00, 0x09, 0x00, 0x00, 0x14, 0x50, 0x00,
    0x00, 0x2c, 0x00, 0x12, 0x01, 0x9a, 0x01, 0x10, 0xff, 0x00, 0x15, 0x34, 0x00, 0x00, 0x8e]

/-- A status packet captured from a unit that cools. -/
def coolPacket : Bytes :=
  [0x01, 0x56, 0x1b, 0x01, 0x09, 0x3b, 0x19, 0x2d, 0x30, 0x04, 0x09, 0x0c, 0x00, 0x26, 0x34, 0x00,
    0x00, 0x29, 0x00, 0x12, 0x01, 0x9a, 0x01, 0x10, 0xff, 0x00, 0x15, 0x34, 0x00, 0x00, 0x31]

theorem trusted_state_determined_standby :
    (decodeStatus standbyPacket).isTrustworthy ∧
      ((∀ d', d'.take (27 + headerLength) = standbyPacket.take (27 + headerLength) →
        (decodeStatus d').isTrustworthy →
        (BedJetState.fromStatus (decodeStatus d')).sansErrors =
          (BedJetState.fromStatus (decodeStatus standbyPacket)).sansErrors) ↔ 25 ≤ 27) := by
  have htrust : (decodeStatus standbyPacket).isTrustworthy := by decide +kernel
  exact ⟨htrust, trusted_state_determined_iff htrust rfl⟩

/-- Eleven bytes of which the checksum covers the first four. -/
def shortPacket (mode : UInt8) : Bytes :=
  [0x00, 0x56, 0x00, 0xaa, 0x00, 0x00, 0x00, 0x00, 0x00, mode, 0x00]

/-- The mode of a trustworthy packet can lie beyond the bytes that were
verified. -/
theorem trusted_state_not_determined :
    ¬∀ (d d' : Bytes) (declared : ℕ), u8 d Offset.payloadLength = some declared →
      d'.take (declared + headerLength) = d.take (declared + headerLength) →
      (decodeStatus d).isTrustworthy → (decodeStatus d').isTrustworthy →
      (BedJetState.fromStatus (decodeStatus d')).sansErrors =
        (BedJetState.fromStatus (decodeStatus d)).sansErrors := by
  intro h
  have hsame := h (shortPacket 0) (shortPacket 4) 0 rfl rfl (by decide +kernel) (by decide +kernel)
  have hmode := congrArg BedJetState.mode hsame
  revert hmode
  decide +kernel

end Bedjet.Device
