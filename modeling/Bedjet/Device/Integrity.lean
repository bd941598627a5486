import Bedjet.Codes.Additive
import Bedjet.Device.Trust
import Mathlib.Data.ZMod.Basic

/-!
What the integrity gate catches. A packet as long as its header declares is
trusted when its bytes sum to zero mod 256, so its checksum is an additive code
over the bytes: it sees every byte replaced, and of two packets joined whether
the heads have the same sum. A truncated packet is stopped by its length byte.
-/

namespace Bedjet.Device

open Python Protocol Codes

/-! ### The checksum as a code -/

/-- The weight of a byte in the checksum. -/
def byteWeight (b : UInt8) : ZMod 256 :=
  b.toNat

theorem weight_byteWeight (d : Bytes) : weight byteWeight d = byteSum d := by
  induction d with
  | nil => simp [byteSum]
  | cons b d ih =>
      rw [weight_cons, ih, byteWeight, byteSum, byteSum, List.map_cons, List.sum_cons]
      push_cast
      rfl

theorem byteWeight_injective : Function.Injective byteWeight := by
  intro a b h
  have hmod : a.toNat ≡ b.toNat [MOD 256] := (ZMod.natCast_eq_natCast_iff _ _ _).mp h
  have ha := a.toNat_lt
  have hb := b.toNat_lt
  apply UInt8.toNat_inj.mp
  rw [Nat.ModEq] at hmod
  omega

theorem balanced_iff {d : Bytes} : Codes.Balanced byteWeight d ↔ byteSum d % 256 = 0 := by
  rw [Codes.Balanced, weight_byteWeight, ZMod.natCast_eq_zero_iff, Nat.dvd_iff_mod_eq_zero]

theorem byteWeight_computeChecksum (body : Bytes) :
    byteWeight (computeChecksum body) = -weight byteWeight body := by
  have hnat : (computeChecksum body).toNat = (-(byteSum body : ℤ) % 256).toNat := by
    rw [computeChecksum, UInt8.toNat_ofNat']
    omega
  have hcast : ((-(byteSum body : ℤ) % 256).toNat : ℤ) = -(byteSum body : ℤ) % 256 := by
    omega
  have hzmod : (((-(byteSum body : ℤ) % 256).toNat : ℤ) : ZMod 256) =
      ((-(byteSum body : ℤ) : ℤ) : ZMod 256) := by
    rw [hcast, ZMod.intCast_eq_intCast_iff]
    exact Int.mod_modEq _ _
  rw [Int.cast_natCast, Int.cast_neg, Int.cast_natCast] at hzmod
  rw [byteWeight, hnat, weight_byteWeight, hzmod]

/-! ### Packets as long as they declare -/

/-- The packet has the length its header declares. -/
structure Framed (d : Bytes) (declared : ℕ) : Prop where
  byte : u8 d Offset.payloadLength = some declared
  length : d.length = declared + headerLength

section

variable {d : Bytes} {declared : ℕ}

theorem Framed.isTrustworthy_iff (h : Framed d declared) :
    (decodeStatus d).isTrustworthy ↔ minStatusLength ≤ d.length ∧ Codes.Balanced byteWeight d := by
  have hwhole : d.take (declared + headerLength) = d := by
    rw [← h.length, List.take_length]
  rw [isTrustworthy_decodeStatus_iff, balanced_iff]
  refine and_congr_right fun _ => ⟨?_, fun hsum => ?_⟩
  · rintro ⟨declared', hbyte, -, hsum⟩
    obtain rfl : declared = declared' := by simpa [h.byte] using hbyte
    rwa [hwhole] at hsum
  · exact ⟨declared, h.byte, h.length.ge, by rwa [hwhole]⟩

/-- The length byte decides the frame. -/
theorem Framed.of_byte {d' : Bytes} (h : Framed d declared) (hlength : d'.length = d.length)
    (hbyte : d'[Offset.payloadLength]? = d[Offset.payloadLength]?) : Framed d' declared where
  byte := by rw [u8, hbyte, ← u8, h.byte]
  length := hlength.trans h.length

/-- The checksum byte makes a body of the right length trustworthy. -/
theorem isTrustworthy_computeChecksum {body : Bytes} (hlength : 10 ≤ body.length)
    (hbyte : u8 body Offset.payloadLength = some (body.length - 3)) :
    (decodeStatus (body ++ [computeChecksum body])).isTrustworthy := by
  have hframed : Framed (body ++ [computeChecksum body]) (body.length - 3) := by
    constructor
    · rwa [u8, List.getElem?_append_left (by simp; omega), ← u8]
    · simp
      omega
  rw [hframed.isTrustworthy_iff, balanced_append_singleton, byteWeight_computeChecksum]
  refine ⟨?_, rfl⟩
  simp
  omega

/-- A byte replaced elsewhere than in the length is caught. -/
theorem Framed.not_isTrustworthy_set (h : Framed d declared)
    (htrust : (decodeStatus d).isTrustworthy) {i : ℕ} {b b' : UInt8} (hb : d[i]? = some b)
    (hne : b' ≠ b) (hi : i ≠ Offset.payloadLength) :
    ¬(decodeStatus (d.set i b')).isTrustworthy := by
  have hset : Framed (d.set i b') declared :=
    h.of_byte List.length_set (List.getElem?_set_ne hi)
  rw [hset.isTrustworthy_iff]
  rintro ⟨-, hbalanced⟩
  exact ((h.isTrustworthy_iff.mp htrust).2.not_set byteWeight_injective hb hne) hbalanced

/-- A proper head that holds the length byte is shorter than that byte
declares. -/
theorem Framed.length_take_lt {declared' k : ℕ} (h : Framed d declared) (hk : k < d.length)
    (hbyte : u8 (d.take k) Offset.payloadLength = some declared') :
    (d.take k).length < declared' + headerLength := by
  have hshort : (d.take k).length = k := by
    rw [List.length_take]
    omega
  have hbelow : Offset.payloadLength < k := by
    by_contra habove
    have hnone : u8 (d.take k) Offset.payloadLength = none := by
      rw [u8, List.getElem?_eq_none (by omega)]
      rfl
    simp [hnone] at hbyte
  have hsame : u8 (d.take k) Offset.payloadLength = u8 d Offset.payloadLength :=
    u8_congr_of_take (k := k) (by simp) hbelow
  obtain rfl : declared = declared' := by simpa [hsame, h.byte] using hbyte
  rw [hshort, ← h.length]
  exact hk

/-- A packet cut short is caught. -/
theorem Framed.not_isTrustworthy_take (h : Framed d declared) {k : ℕ} (hk : k < d.length) :
    ¬(decodeStatus (d.take k)).isTrustworthy := by
  rw [isTrustworthy_decodeStatus_iff]
  rintro ⟨-, declared', hbyte, hlength, -⟩
  exact (h.length_take_lt hk hbyte).not_ge hlength

/-- The head of one packet joined to the rest of another: what is caught is that
the heads have different sums. -/
theorem Framed.isTrustworthy_splice_iff {d' : Bytes} {declared' : ℕ} (h : Framed d declared)
    (h' : Framed d' declared') (hlength : d.length = d'.length)
    (htrust : (decodeStatus d).isTrustworthy) (htrust' : (decodeStatus d').isTrustworthy) {k : ℕ}
    (hk : Offset.payloadLength < k) (hkd : k < d.length) :
    (decodeStatus (reassemble (d.take k) (d'.drop k))).isTrustworthy ↔
      byteSum (d.take k) ≡ byteSum (d'.take k) [MOD 256] := by
  have hsplice : Framed (reassemble (d.take k) (d'.drop k)) declared := by
    apply h.of_byte
    · rw [reassemble, List.length_append, List.length_take, List.length_drop]
      omega
    · have hhead : Offset.payloadLength < (d.take k).length := by
        rw [List.length_take]
        omega
      rw [reassemble, List.getElem?_append_left hhead, List.getElem?_take_of_lt hk]
  have hmin : minStatusLength ≤ (reassemble (d.take k) (d'.drop k)).length := by
    rw [hsplice.length, ← h.length]
    exact (h.isTrustworthy_iff.mp htrust).1
  rw [hsplice.isTrustworthy_iff, reassemble,
    (h'.isTrustworthy_iff.mp htrust').2.splice_iff k, weight_byteWeight, weight_byteWeight,
    ZMod.natCast_eq_natCast_iff]
  exact and_iff_right hmin

end

/-- Exactly which corruptions and mis-joins the integrity gate catches. -/
theorem corruption_is_caught :
    (∀ body : Bytes, 10 ≤ body.length →
      u8 body Offset.payloadLength = some (body.length - 3) →
      (decodeStatus (body ++ [computeChecksum body])).isTrustworthy) ∧
    (∀ (d : Bytes) (declared : ℕ), Framed d declared → (decodeStatus d).isTrustworthy →
      (∀ (i : ℕ) (b b' : UInt8), d[i]? = some b → b' ≠ b → i ≠ Offset.payloadLength →
        ¬(decodeStatus (d.set i b')).isTrustworthy) ∧
      ∀ k < d.length, ¬(decodeStatus (d.take k)).isTrustworthy) ∧
    ∀ (d d' : Bytes) (declared declared' : ℕ), Framed d declared → Framed d' declared' →
      d.length = d'.length → (decodeStatus d).isTrustworthy → (decodeStatus d').isTrustworthy →
      ∀ k, 3 ≤ k → k < d.length →
        ((decodeStatus (reassemble (d.take k) (d'.drop k))).isTrustworthy ↔
          byteSum (d.take k) ≡ byteSum (d'.take k) [MOD 256]) := by
  refine ⟨fun body => isTrustworthy_computeChecksum, fun d declared h htrust => ⟨?_, ?_⟩, ?_⟩
  · intro i b b' hb hne hi
    exact h.not_isTrustworthy_set htrust hb hne hi
  · intro k hk
    exact h.not_isTrustworthy_take hk
  · intro d d' declared declared' h h' hlength htrust htrust' k hk hkd
    exact h.isTrustworthy_splice_iff h' hlength htrust htrust' (by simp; omega) hkd

/-- A captured packet with its checksum, with another target, cut off, and joined behind its
header with a packet captured in another mode. -/
theorem corruption_is_caught_captured :
    (decodeStatus (coolPacket.dropLast ++ [computeChecksum coolPacket.dropLast])).isTrustworthy ∧
    ¬(decodeStatus (coolPacket.set 8 0x31)).isTrustworthy ∧
    ¬(decodeStatus (coolPacket.take 20)).isTrustworthy ∧
    ((decodeStatus (reassemble (coolPacket.take 4) (standbyPacket.drop 4))).isTrustworthy ↔
      byteSum (coolPacket.take 4) ≡ byteSum (standbyPacket.take 4) [MOD 256]) := by
  obtain ⟨hchecksum, hbroken, hsplice⟩ := corruption_is_caught
  have hcool : Framed coolPacket 27 := ⟨rfl, rfl⟩
  have hstandby : Framed standbyPacket 27 := ⟨rfl, rfl⟩
  have htrust : (decodeStatus coolPacket).isTrustworthy := by decide +kernel
  have htrust' : (decodeStatus standbyPacket).isTrustworthy := by decide +kernel
  obtain ⟨hset, htake⟩ := hbroken coolPacket 27 hcool htrust
  exact ⟨hchecksum _ (by decide) (by decide), hset 8 0x30 0x31 rfl (by decide) (by decide),
    htake 20 (by decide), hsplice _ _ 27 27 hcool hstandby rfl htrust htrust' 4 (by decide)
      (by decide)⟩

/-- Captured in different modes, the two packets agree on their headers alone:
joined behind them nothing is noticed, joined a byte later it is. -/
example : (decodeStatus (reassemble (coolPacket.take 4) (standbyPacket.drop 4))).isTrustworthy ∧
    ¬(decodeStatus (reassemble (coolPacket.take 5) (standbyPacket.drop 5))).isTrustworthy := by
  decide +kernel

end Bedjet.Device
