import Bedjet.Python.Nearest
import Mathlib.Data.List.TakeWhile

/-!
What `str` writes of a natural number stands for it where `float` reads it.
-/

namespace Bedjet.Python

theorem isDigit_of_mem_digits {n : ℕ} {c : Char} (hc : c ∈ (toString n).toList) :
    c.isDigit = true := by
  rw [Nat.toString_eq_repr, Nat.toList_repr] at hc
  exact Nat.isDigit_of_mem_toDigits (by decide) (by decide) hc

theorem digitsValue_toString (n : ℕ) : digitsValue (toString n).toList = n := by
  have hvalue := Nat.ofDigitChars_ten_toDigits (n := n)
  rw [Nat.ofDigitChars_eq_foldl] at hvalue
  rw [Nat.toString_eq_repr, Nat.toList_repr]
  simpa [digitsValue, Nat.mul_comm] using hvalue

theorem toNat_of_isDigit {c : Char} (hc : c.isDigit = true) : 48 ≤ c.toNat ∧ c.toNat ≤ 57 := by
  simp only [Char.isDigit, Bool.and_eq_true, decide_eq_true_eq, UInt32.le_iff_toNat_le, ge_iff_le]
    at hc
  exact hc

theorem dropUnderscores_digits {digits : List Char} (h : ∀ c ∈ digits, c.isDigit = true)
    {previous : Char} (hprevious : previous ≠ '_') :
    dropUnderscores previous digits = some digits := by
  induction digits generalizing previous with
  | nil => simp [dropUnderscores, hprevious]
  | cons c digits ih =>
      obtain ⟨hc, hrest⟩ := List.forall_mem_cons.mp h
      have hne : c ≠ '_' := by
        rintro rfl
        simp at hc
      simp [dropUnderscores, hne, hprevious, ih hrest hne]

section

variable {digits : List Char} (h : ∀ c ∈ digits, c.isDigit = true)

include h

theorem asciiNumber_digits (decimal : Char → Option ℕ) : asciiNumber decimal digits = digits := by
  have hascii : digits.all (·.toNat < 128) := by
    rw [List.all_eq_true]
    intro c hc
    have hrange := toNat_of_isDigit (h c hc)
    exact decide_eq_true (by omega)
  rw [asciiNumber, if_pos hascii]

/-- Nothing is trimmed from digits. -/
theorem dropWhile_digits {blank : Char → Bool} (hblank : ∀ c, c.isDigit = true → blank c = false) :
    digits.dropWhile blank = digits := by
  cases digits with
  | nil => rfl
  | cons c digits => simp [hblank c (h c List.mem_cons_self)]

theorem splitSign_digits : splitSign digits = (false, digits) := by
  unfold splitSign
  split
  · exact absurd (h '-' List.mem_cons_self) (by decide)
  · exact absurd (h '+' List.mem_cons_self) (by decide)
  · rfl

/-- Digits are no name. -/
theorem lower_digits_ne (name : String) {c : Char} (hname : c ∈ name.toList)
    (hc : 97 ≤ c.toNat) : String.ofList (digits.map Char.toLower) ≠ name := by
  intro heq
  rw [← heq, String.toList_ofList] at hname
  obtain ⟨d, hd, rfl⟩ := List.mem_map.mp hname
  have hrange := toNat_of_isDigit (h d hd)
  have hlower : d.toLower = d := by
    have hsmall : ¬d.val ≥ 'A'.val := by
      rw [ge_iff_le, UInt32.le_iff_toNat_le]
      exact Nat.not_le.mpr (lt_of_le_of_lt hrange.2 (by decide))
    exact dif_neg fun hupper => hsmall hupper.1
  rw [hlower] at hc
  omega

theorem parseNumeral_digits (hne : digits ≠ []) :
    parseNumeral digits = some (digitsValue digits : ℚ) := by
  have htake : digits.takeWhile Char.isDigit = digits := List.takeWhile_eq_self_iff.mpr h
  have hdrop : digits.dropWhile Char.isDigit = [] := List.dropWhile_eq_nil_iff.mpr h
  simp [parseNumeral, htake, hdrop, hne, parseExponent]

end

theorem exactValue_toString (decimal : Char → Option ℕ) (n : ℕ) :
    exactValue decimal (toString n) = some (n : ℚ) := by
  have h : ∀ c ∈ (toString n).toList, c.isDigit = true := fun c => isDigit_of_mem_digits
  have hne : (toString n).toList ≠ [] := by
    rw [Nat.toString_eq_repr, Nat.toList_repr]
    exact Nat.toDigits_ne_nil
  have hblank (c : Char) (hc : c.isDigit = true) :
      (c = ' ' || 9 ≤ c.toNat && c.toNat ≤ 13 : Bool) = false := by
    have hrange := toNat_of_isDigit hc
    have hspace : c ≠ ' ' := by
      rintro rfl
      simp at hrange
    simp only [Bool.or_eq_false_iff, Bool.and_eq_false_iff, decide_eq_false_iff_not]
    exact ⟨hspace, .inr (by omega)⟩
  have hreverse : ∀ c ∈ (toString n).toList.reverse, c.isDigit = true :=
    fun c hc => h c (List.mem_reverse.mp hc)
  simp only [exactValue, asciiNumber_digits h, dropWhile_digits h hblank,
    dropWhile_digits hreverse hblank, List.reverse_reverse,
    dropUnderscores_digits h (show ' ' ≠ '_' by decide), splitSign_digits h,
    Option.bind_eq_bind, Option.bind_some, parseNumeral_digits h hne, digitsValue_toString]
  have hinf := lower_digits_ne h "inf" (c := 'i') (by decide) (by decide)
  have hinfinity := lower_digits_ne h "infinity" (c := 'i') (by decide) (by decide)
  have hnan := lower_digits_ne h "nan" (c := 'n') (by decide) (by decide)
  simp only [hinf, hinfinity, hnan, decide_false, Bool.or_self, Bool.false_eq_true, if_false]

end Bedjet.Python
