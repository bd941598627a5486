import Bedjet.Python.Parsing

/-!
The double nearest to a value. Around each value the doubles are the points of a
grid, whose step is one unit in the last place; up to 2^53 the grid has the
integers among its points.
-/

namespace Bedjet.Python.Double

open Rounding

/-- The exponent of a unit in the last place. -/
def ulpExponent (q : ℚ) : ℤ :=
  max (-1074) (Int.log 2 |q| - 52)

def ulps (q : ℚ) : Grid ℚ where
  base := 0
  step := 2 ^ ulpExponent q
  pos := zpow_pos (by norm_num) _

theorem nearest_of_lt {q : ℚ} (hlo : -overflowBound < q) (hhi : q < overflowBound) :
    nearest q = .finite ((ulps q).snap roundHalfEven q) := by
  have hrange : (-overflowBound < q && q < overflowBound) = true := by simp [hlo, hhi]
  rw [nearest]
  simp only [hrange, if_true, Grid.snap, Grid.point, Grid.index, ulps, ulpExponent, sub_zero,
    zero_add, mul_comm]

theorem nearest_eq_inf {q : ℚ} (h : ¬(-overflowBound < q ∧ q < overflowBound)) :
    nearest q = .inf (q < 0) := by
  have hrange : (-overflowBound < q && q < overflowBound) = false := by
    simpa [imp_iff_not_or] using h
  simp [nearest, hrange]

theorem nearest_eq_finite_iff {q r : ℚ} :
    nearest q = .finite r ↔
      (-overflowBound < q ∧ q < overflowBound) ∧ r = (ulps q).snap roundHalfEven q := by
  by_cases h : -overflowBound < q ∧ q < overflowBound
  · simp [nearest_of_lt h.1 h.2, h, eq_comm]
  · simp [nearest_eq_inf h, h]

/-! ### How close it is -/

theorem log_lt {q : ℚ} {k : ℕ} (hk : 0 < k) (hq : |q| < 2 ^ k) : Int.log 2 |q| < k := by
  rcases (abs_nonneg q).eq_or_lt with hzero | hpos
  · rw [← hzero, Int.log_zero_right]
    exact_mod_cast hk
  · apply (Int.lt_zpow_iff_log_lt (by norm_num) hpos).mp
    exact_mod_cast hq

theorem ulpExponent_le {q : ℚ} {e : ℕ} (he : e < 53) (hq : |q| < 2 ^ (53 - e)) :
    ulpExponent q ≤ -e := by
  have hlog := log_lt (by omega) hq
  rw [ulpExponent]
  omega

theorem ulpExponent_nonpos {q : ℚ} (hq : |q| < 2 ^ 53) : ulpExponent q ≤ 0 :=
  ulpExponent_le (e := 0) (by norm_num) hq

/-- A unit in the last place is a small part of the value, or at most one. -/
theorem step_ulps_le (q : ℚ) : (ulps q).step ≤ max 1 (|q| / 2 ^ 52) := by
  by_cases hq : |q| < 2 ^ 53
  · exact le_max_of_le_left (zpow_le_one_of_nonpos₀ (by norm_num) (ulpExponent_nonpos hq))
  · have hpos : 0 < |q| := lt_of_lt_of_le (by norm_num) (not_lt.mp hq)
    have hlog : 53 ≤ Int.log 2 |q| := by
      apply (Int.zpow_le_iff_le_log (by norm_num) hpos).mp
      exact_mod_cast not_lt.mp hq
    have hexponent : ulpExponent q = Int.log 2 |q| - 52 := by
      rw [ulpExponent]
      omega
    have hpower : (2 : ℚ) ^ Int.log 2 |q| ≤ |q| := by
      exact_mod_cast Int.zpow_log_le_self (by norm_num) hpos
    apply le_max_of_le_right
    show (2 : ℚ) ^ ulpExponent q ≤ |q| / 2 ^ 52
    rw [hexponent, zpow_sub₀ (by norm_num)]
    exact div_le_div_of_nonneg_right hpower (by norm_num)

theorem abs_snap_ulps_sub_le (q : ℚ) :
    |(ulps q).snap roundHalfEven q - q| ≤ max 1 (|q| / 2 ^ 52) / 2 :=
  ((ulps q).abs_snap_sub_le nearest_roundHalfEven q).trans
    (div_le_div_of_nonneg_right (step_ulps_le q) (by norm_num))

theorem abs_lt_of_nearest {q r : ℚ} (h : nearest q = .finite r) :
    |r| < 2 * overflowBound + 1 := by
  obtain ⟨⟨hlo, hhi⟩, rfl⟩ := nearest_eq_finite_iff.mp h
  have hnear := abs_snap_ulps_sub_le q
  have hq : |q| < overflowBound := abs_lt.mpr ⟨hlo, hhi⟩
  have hunit : max 1 (|q| / 2 ^ 52) ≤ 1 + |q| := by
    apply max_le
    · linarith [abs_nonneg q]
    · have hsmall : |q| / 2 ^ 52 ≤ |q| := div_le_self (abs_nonneg q) (by norm_num)
      linarith
  have htriangle := abs_sub_abs_le_abs_sub ((ulps q).snap roundHalfEven q) q
  linarith [abs_nonneg q]

theorem abs_toInt_sub_lt {r : ℚ} {n : ℤ} (h : (finite r).toInt = .ok n) : |(n : ℚ) - r| < 1 := by
  rw [abs_lt]
  rcases lt_or_ge r 0 with hneg | hpos
  · obtain rfl : ⌈r⌉ = n := by simpa [toInt, hneg] using h
    constructor <;> linarith [Int.le_ceil r, Int.ceil_lt_add_one r]
  · obtain rfl : ⌊r⌋ = n := by simpa [toInt, not_lt.mpr hpos] using h
    constructor <;> linarith [Int.floor_le r, Int.lt_floor_add_one r]

/-- The integer part of a double can be written out. -/
theorem natAbs_lt_of_toInt {q : ℚ} {n : ℤ} (h : (nearest q).toInt = .ok n) :
    n.natAbs < 10 ^ 4300 := by
  cases hnearest : nearest q with
  | nan => simp [hnearest, toInt] at h
  | inf negative => simp [hnearest, toInt] at h
  | finite r =>
      have hr := abs_lt.mp (abs_lt_of_nearest hnearest)
      rw [hnearest] at h
      have hclose := abs_lt.mp (abs_toInt_sub_lt h)
      have hn : |(n : ℚ)| < 2 * overflowBound + 2 := by
        rw [abs_lt]
        constructor <;> linarith
      have hbound : (2 * (2 ^ 1024 - 2 ^ 970) + 2 : ℕ) < 10 ^ 4300 := by decide +kernel
      have hcast : (n.natAbs : ℚ) < ((2 * (2 ^ 1024 - 2 ^ 970) + 2 : ℕ) : ℚ) := by
        rw [Nat.cast_add, Nat.cast_mul, Nat.cast_natAbs, Int.cast_abs]
        exact hn
      exact (Nat.cast_lt.mp hcast).trans hbound

/-! ### Integers are doubles -/

/-- A fraction of `e` bits is a point of the grid where the values leave room for them. -/
theorem exists_point {q : ℚ} {e : ℕ} (he : e < 53) (hq : |q| < 2 ^ (53 - e)) (n : ℤ) :
    ∃ m : ℤ, (ulps q).point m = n / 2 ^ e := by
  have hexponent := ulpExponent_le he hq
  obtain ⟨k, hk⟩ := Int.eq_ofNat_of_zero_le (show 0 ≤ -ulpExponent q - e by omega)
  refine ⟨n * 2 ^ k, ?_⟩
  have hstep : (ulps q).step = (2 ^ (k + e))⁻¹ := by
    show (2 : ℚ) ^ ulpExponent q = _
    rw [← zpow_natCast, ← zpow_neg]
    congr 1
    push_cast
    omega
  rw [Grid.point, hstep]
  show 0 + (2 ^ (k + e) : ℚ)⁻¹ * ((n * 2 ^ k : ℤ) : ℚ) = n / 2 ^ e
  push_cast
  rw [pow_add]
  field_simp
  ring

theorem exists_point_of_int {q : ℚ} (hq : |q| < 2 ^ 53) (n : ℤ) :
    ∃ m : ℤ, (ulps q).point m = n := by
  simpa using exists_point (e := 0) (by norm_num) hq n

theorem le_snap_ulps {q : ℚ} (hq : |q| < 2 ^ 53) {n : ℤ} (hn : (n : ℚ) ≤ q) :
    (n : ℚ) ≤ (ulps q).snap roundHalfEven q := by
  obtain ⟨m, hm⟩ := exists_point_of_int hq n
  rw [← hm] at hn ⊢
  exact (ulps q).point_le_snap nearest_roundHalfEven hn

theorem snap_ulps_le {q : ℚ} (hq : |q| < 2 ^ 53) {n : ℤ} (hn : q ≤ n) :
    (ulps q).snap roundHalfEven q ≤ n := by
  obtain ⟨m, hm⟩ := exists_point_of_int hq n
  rw [← hm] at hn ⊢
  exact (ulps q).snap_le_point nearest_roundHalfEven hn

theorem two_pow_le_overflowBound : (2 : ℚ) ^ 53 ≤ overflowBound := by
  rw [overflowBound]
  exact_mod_cast (by decide +kernel : 2 ^ 53 ≤ 2 ^ 1024 - 2 ^ 970)

/-- A value between two integers is rounded to one between them. -/
theorem nearest_between {q : ℚ} {low high : ℤ} (hbelow : -2 ^ 53 < low) (habove : high < 2 ^ 53)
    (hlow : (low : ℚ) ≤ q) (hhigh : q ≤ high) :
    ∃ r : ℚ, nearest q = .finite r ∧ low ≤ r ∧ r ≤ high := by
  have hbelow' : (-2 ^ 53 : ℚ) < low := by exact_mod_cast hbelow
  have habove' : (high : ℚ) < 2 ^ 53 := by exact_mod_cast habove
  have hq : |q| < 2 ^ 53 := abs_lt.mpr ⟨hbelow'.trans_le hlow, hhigh.trans_lt habove'⟩
  have hbound := two_pow_le_overflowBound
  refine ⟨_, nearest_of_lt ?_ ?_, le_snap_ulps hq hlow, snap_ulps_le hq hhigh⟩
  · linarith [(abs_lt.mp hq).1]
  · linarith [(abs_lt.mp hq).2]

/-- A value of so many bits is rounded to itself. -/
theorem nearest_eq_self {q : ℚ} {e : ℕ} (he : e < 53) (hq : |q| < 2 ^ (53 - e)) {n : ℤ}
    (hn : q = n / 2 ^ e) : nearest q = .finite q := by
  obtain ⟨m, hm⟩ := exists_point he hq n
  rw [← hn] at hm
  have hbound := two_pow_le_overflowBound
  have hle : (2 : ℚ) ^ (53 - e) ≤ 2 ^ 53 := pow_le_pow_right₀ (by norm_num) (by omega)
  rw [nearest_of_lt (by linarith [(abs_lt.mp hq).1]) (by linarith [(abs_lt.mp hq).2])]
  have hindex := (ulps q).index_point nearest_roundHalfEven m
  rw [hm] at hindex
  rw [Grid.snap, hindex, hm]

/-! ### Values just under an integer -/

theorem roundHalfEven_sub_half {n : ℤ} (hn : n % 2 = 0) : roundHalfEven (n - 1 / 2 : ℚ) = n := by
  have hfloor : ⌊(n - 1 / 2 : ℚ)⌋ = n - 1 := by
    rw [Int.floor_eq_iff]
    push_cast
    constructor <;> linarith
  have hodd : ¬(n - 1) % 2 = 0 := by omega
  rw [roundHalfEven, hfloor]
  push_cast
  norm_num [hodd]

/-- Half a unit under an even integer the tie goes to it. -/
theorem roundHalfEven_lt_iff {q : ℚ} {n : ℤ} (hn : n % 2 = 0) :
    roundHalfEven q < n ↔ q < n - 1 / 2 := by
  constructor
  · intro h
    by_contra hge
    have hle := nearest_roundHalfEven.monotone (not_lt.mp hge)
    rw [roundHalfEven_sub_half hn] at hle
    exact absurd h (not_lt.mpr hle)
  · intro h
    have hround := nearest_roundHalfEven.le_add q
    have hlt : (roundHalfEven q : ℚ) < n := by linarith
    exact_mod_cast hlt

/-- From here on the double nearest to a value is no longer under `n`: half a
unit in the last place under it. -/
def carry (n : ℕ) : ℚ :=
  n - 2 ^ Nat.log 2 (n - 1) / 2 ^ 53

theorem carry_lt (n : ℕ) : carry n < n := by
  have hpos : (0 : ℚ) < 2 ^ Nat.log 2 (n - 1) / 2 ^ 53 := by positivity
  rw [carry]
  linarith

theorem log_pred_lt {n : ℕ} (hn : n ≤ 2 ^ 52) : Nat.log 2 (n - 1) < 52 := by
  rcases Nat.eq_zero_or_pos (n - 1) with hzero | hpos
  · simp [hzero]
  · apply (Nat.log_lt_iff_lt_pow (by norm_num) (by omega)).mpr
    omega

theorem sub_quarter_le_carry {n : ℕ} (hn : n ≤ 2 ^ 52) : (n : ℚ) - 1 / 4 ≤ carry n := by
  have hlog := log_pred_lt hn
  have hpower : (2 : ℚ) ^ Nat.log 2 (n - 1) ≤ 2 ^ 51 :=
    pow_le_pow_right₀ (by norm_num) (by omega)
  have hunit : (2 : ℚ) ^ Nat.log 2 (n - 1) / 2 ^ 53 ≤ 2 ^ 51 / 2 ^ 53 :=
    div_le_div_of_nonneg_right hpower (by norm_num)
  rw [carry]
  linarith

/-- The unit in the last place just under an integer. -/
theorem ulpExponent_eq {q : ℚ} {n : ℕ} (h2 : 2 ≤ n) (hn : n ≤ 2 ^ 52) (hlo : (n : ℚ) - 1 ≤ q)
    (hhi : q < n) : ulpExponent q = (Nat.log 2 (n - 1) : ℤ) - 52 := by
  have hpos : 0 < q := by
    have hn1 : (2 : ℚ) ≤ n := by exact_mod_cast h2
    linarith
  have hcast : ((n - 1 : ℕ) : ℚ) = (n : ℚ) - 1 := by
    rw [Nat.cast_sub (by omega), Nat.cast_one]
  have hlog : Int.log 2 |q| = Nat.log 2 (n - 1) := by
    rw [abs_of_pos hpos]
    apply le_antisymm
    · have hlt : n ≤ 2 ^ (Nat.log 2 (n - 1) + 1) := by
        have hpred := Nat.lt_pow_succ_log_self (b := 2) (by norm_num) (n - 1)
        rw [Nat.succ_eq_add_one] at hpred
        omega
      have hltq : q < (2 : ℚ) ^ (Nat.log 2 (n - 1) + 1) := by
        refine hhi.trans_le ?_
        exact_mod_cast hlt
      apply Int.lt_add_one_iff.mp
      apply (Int.lt_zpow_iff_log_lt (by norm_num) hpos).mp
      exact_mod_cast hltq
    · apply (Int.zpow_le_iff_le_log (by norm_num) hpos).mp
      have hle : 2 ^ Nat.log 2 (n - 1) ≤ n - 1 := Nat.pow_log_le_self 2 (by omega)
      have hleq : ((2 ^ Nat.log 2 (n - 1) : ℕ) : ℚ) ≤ ((n - 1 : ℕ) : ℚ) := by exact_mod_cast hle
      rw [hcast, Nat.cast_pow, Nat.cast_ofNat] at hleq
      rw [zpow_natCast]
      exact hleq.trans hlo
  rw [ulpExponent, hlog]
  omega

/-- Just under an integer there are an even number of units to it. -/
theorem exists_even_point {q : ℚ} {n : ℕ} (h2 : 2 ≤ n) (hn : n ≤ 2 ^ 52) (hlo : (n : ℚ) - 1 ≤ q)
    (hhi : q < n) :
    (ulps q).step / 2 = 2 ^ Nat.log 2 (n - 1) / 2 ^ 53 ∧
      ∃ m : ℤ, m % 2 = 0 ∧ (ulps q).point m = n := by
  have hexponent := ulpExponent_eq h2 hn hlo hhi
  have hlog := log_pred_lt hn
  obtain ⟨k, hk⟩ : ∃ k, Nat.log 2 (n - 1) + (k + 1) = 52 := ⟨51 - Nat.log 2 (n - 1), by omega⟩
  have hunit : (ulps q).step = 2 ^ Nat.log 2 (n - 1) / 2 ^ 52 := by
    show (2 : ℚ) ^ ulpExponent q = _
    rw [hexponent, zpow_sub₀ (by norm_num), zpow_natCast]
    rfl
  have hpower : (2 : ℚ) ^ Nat.log 2 (n - 1) * 2 ^ (k + 1) = 2 ^ 52 := by rw [← pow_add, hk]
  refine ⟨?_, n * 2 ^ (k + 1), ?_, ?_⟩
  · rw [hunit]
    ring
  · rw [pow_succ, ← mul_assoc]
    omega
  · rw [Grid.point, hunit]
    push_cast
    show (0 : ℚ) + 2 ^ Nat.log 2 (n - 1) / 2 ^ 52 * (n * 2 ^ (k + 1)) = n
    calc (0 : ℚ) + 2 ^ Nat.log 2 (n - 1) / 2 ^ 52 * (n * 2 ^ (k + 1))
        = (n : ℚ) * (2 ^ Nat.log 2 (n - 1) * 2 ^ (k + 1)) / 2 ^ 52 := by ring
      _ = (n : ℚ) := by
          rw [hpower]
          field_simp

/-- The double nearest to a value is under an integer just if the value is
further from it than half a unit in the last place. -/
theorem snap_ulps_lt_iff {q : ℚ} (hq : |q| < 2 ^ 53) {n : ℕ} (h2 : 2 ≤ n) (hn : n ≤ 2 ^ 52) :
    (ulps q).snap roundHalfEven q < n ↔ q < carry n := by
  by_cases hhi : q < n
  · by_cases hlo : (n : ℚ) - 1 ≤ q
    · obtain ⟨hhalf, m, heven, hm⟩ := exists_even_point h2 hn hlo hhi
      have hpos := (ulps q).pos
      have hindex : (ulps q).snap roundHalfEven q < n ↔ q / (ulps q).step < m - 1 / 2 := by
        rw [← hm, ← not_le, Grid.snap, Grid.point_le_point, not_le, Grid.index,
          roundHalfEven_lt_iff heven]
        show (q - 0) / (ulps q).step < _ ↔ _
        rw [sub_zero]
      have hmul : (ulps q).step * m = n := by
        rw [← zero_add ((ulps q).step * m)]
        exact hm
      rw [hindex, div_lt_iff₀ hpos, sub_mul, mul_comm _ (ulps q).step, hmul, carry, ← hhalf]
      constructor <;> intro h <;> linarith
    · have hle : q ≤ ((n - 1 : ℤ) : ℚ) := by
        push_cast
        linarith
      have hsnap := snap_ulps_le hq hle
      have hcarry := sub_quarter_le_carry hn
      push_cast at hsnap
      constructor <;> intro _ <;> linarith
  · have hsnap := le_snap_ulps (n := n) hq (by exact_mod_cast not_lt.mp hhi)
    have hcarry := carry_lt n
    constructor
    · intro h
      exact absurd h (not_lt.mpr (by exact_mod_cast hsnap))
    · intro h
      exact absurd (h.trans hcarry) hhi

/-! ### The integer part -/

theorem nearest_of_toInt {q : ℚ} {n : ℤ} (h : (nearest q).toInt = .ok n) :
    (-overflowBound < q ∧ q < overflowBound) ∧
      n = if (ulps q).snap roundHalfEven q < 0 then ⌈(ulps q).snap roundHalfEven q⌉
        else ⌊(ulps q).snap roundHalfEven q⌋ := by
  cases hnearest : nearest q with
  | nan => simp [hnearest, toInt] at h
  | inf negative => simp [hnearest, toInt] at h
  | finite r =>
      obtain ⟨hrange, rfl⟩ := nearest_eq_finite_iff.mp hnearest
      rw [hnearest] at h
      exact ⟨hrange, (Except.ok.inj h).symm⟩

/-- Where the integer part of the double nearest to a value reaches `n`. -/
theorem le_toInt_iff {q : ℚ} {k : ℤ} (h : (nearest q).toInt = .ok k) {n : ℕ} (h2 : 2 ≤ n)
    (hn : n ≤ 2 ^ 52) : (n : ℤ) ≤ k ↔ carry n ≤ q := by
  obtain ⟨-, rfl⟩ := nearest_of_toInt h
  have htrunc : (n : ℤ) ≤ (if (ulps q).snap roundHalfEven q < 0
      then ⌈(ulps q).snap roundHalfEven q⌉ else ⌊(ulps q).snap roundHalfEven q⌋) ↔
        (n : ℚ) ≤ (ulps q).snap roundHalfEven q := by
    have hpos : (0 : ℚ) < n := by exact_mod_cast (by omega : 0 < n)
    split
    · rename_i hneg
      have hceil : ⌈(ulps q).snap roundHalfEven q⌉ ≤ 0 := Int.ceil_le.mpr (by simpa using hneg.le)
      constructor
      · intro hle
        omega
      · intro hle
        linarith
    · exact Int.le_floor
  rw [htrunc]
  by_cases hsmall : |q| < 2 ^ 53
  · rw [← not_lt, snap_ulps_lt_iff hsmall h2 hn, not_lt]
  · -- far out, a value and its double are on the same side
    have hnear := abs_le.mp (abs_snap_ulps_sub_le q)
    have hlarge := not_lt.mp hsmall
    have hcarry := sub_quarter_le_carry hn
    have hcarry' := carry_lt n
    have hn' : (n : ℚ) ≤ 2 ^ 52 := by exact_mod_cast hn
    have hpos : (0 : ℚ) ≤ n := Nat.cast_nonneg n
    have hunit : max 1 (|q| / 2 ^ 52) = |q| / 2 ^ 52 := by
      apply max_eq_right
      rw [le_div_iff₀ (by positivity)]
      linarith
    rw [hunit] at hnear
    rcases abs_cases q with ⟨habs, hq⟩ | ⟨habs, hq⟩
    · rw [habs] at hnear hlarge
      constructor <;> intro _ <;> linarith
    · rw [habs] at hnear hlarge
      constructor <;> intro _ <;> linarith

end Bedjet.Python.Double
