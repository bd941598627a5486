import Bedjet.Python.IpAddress
import Mathlib.Data.List.Basic

/-!
What the literal of an IPv6 address is made of: hexadecimal digits, dots and at
least two colons, and then perhaps a `%` and a scope id, of which nothing is
asked but that it is there and has no second `%` and no slash.
-/

namespace Bedjet.Python

section

variable {α β : Type*}

/-- The elements that a list is split into, and the separators. -/
theorem mem_splitOn [DecidableEq α] (sep : α) {c : α} {text : List α} (h : c ∈ text) :
    c = sep ∨ ∃ part ∈ text.splitOn sep, c ∈ part := by
  induction text with
  | nil => simp at h
  | cons head text ih =>
      have hne := List.splitOn_ne_nil sep text
      rw [List.splitOn_cons_eq_if_modifyHead]
      obtain rfl | htail := List.mem_cons.mp h
      · split
        · rename_i hsep
          exact .inl (by simpa using hsep)
        · cases hparts : text.splitOn sep with
          | nil => exact absurd hparts hne
          | cons part parts => exact .inr ⟨c :: part, by simp, by simp⟩
      · obtain hsep | ⟨part, hpart, hc⟩ := ih htail
        · exact .inl hsep
        · right
          split
          · exact ⟨part, List.mem_cons_of_mem _ hpart, hc⟩
          · cases hparts : text.splitOn sep with
            | nil => exact absurd hparts hne
            | cons first parts =>
                rw [hparts] at hpart
                obtain rfl | hrest := List.mem_cons.mp hpart
                · exact ⟨head :: part, by simp, List.mem_cons_of_mem _ hc⟩
                · exact ⟨part, by simp [hrest], hc⟩

theorem length_splitOn [DecidableEq α] (sep : α) (text : List α) :
    (text.splitOn sep).length = text.count sep + 1 := by
  induction text with
  | nil => rfl
  | cons head text ih =>
      rw [List.splitOn_cons_eq_if_modifyHead, List.count_cons]
      split <;> simp [ih]

theorem isSome_of_mapM {f : α → Option β} {xs : List α} {ys : List β} (h : xs.mapM f = some ys) :
    ∀ x ∈ xs, (f x).isSome := by
  induction xs generalizing ys with
  | nil => simp
  | cons x xs ih =>
      simp only [List.mapM_cons, Option.bind_eq_bind, Option.bind_eq_some_iff] at h
      obtain ⟨y, hy, ys', hys, -⟩ := h
      intro x' hx'
      obtain rfl | hrest := List.mem_cons.mp hx'
      · simp [hy]
      · exact ih hys x' hrest

end

namespace IpAddress

/-- A hexadecimal digit, a dot or a colon. -/
def Plain (c : CodePoint) : Prop :=
  c.val = 46 ∨ 48 ≤ c.val ∧ c.val ≤ 58 ∨ 65 ≤ c.val ∧ c.val ≤ 70 ∨ 97 ≤ c.val ∧ c.val ≤ 102

instance (c : CodePoint) : Decidable (Plain c) :=
  inferInstanceAs (Decidable (_ ∨ _))

theorem plain_of_isAsciiDigit {c : CodePoint} (h : Str.isAsciiDigit c) : Plain c := by
  simp only [Str.isAsciiDigit, Bool.and_eq_true, decide_eq_true_eq] at h
  unfold Plain
  omega

theorem plain_of_hexValue {c : CodePoint} (h : (Str.hexValue c).isSome) : Plain c := by
  unfold Str.hexValue at h
  split at h
  · rename_i hdigit
    exact plain_of_isAsciiDigit hdigit
  split at h
  · rename_i hupper
    simp only [Bool.and_eq_true, decide_eq_true_eq] at hupper
    unfold Plain
    omega
  split at h
  · rename_i hlower
    simp only [Bool.and_eq_true, decide_eq_true_eq] at hlower
    unfold Plain
    omega
  · simp at h

theorem plain_of_parseOctet {octet : Str} (h : (parseOctet octet).isSome) :
    ∀ c ∈ octet, Plain c := by
  unfold parseOctet at h
  split at h
  · simp at h
  · rename_i hdigits
    simp only [Bool.or_eq_true, Bool.not_eq_true', not_or, Bool.not_eq_false] at hdigits
    exact fun c hc => plain_of_isAsciiDigit (List.all_eq_true.mp hdigits.1.2 c hc)

theorem plain_of_parseHextet {hextet : Str} (h : (parseHextet hextet).isSome) :
    ∀ c ∈ hextet, Plain c := by
  unfold parseHextet at h
  cases hdigits : hextet.mapM Str.hexValue with
  | none => simp [hdigits] at h
  | some digits => exact fun c hc => plain_of_hexValue (isSome_of_mapM hdigits c hc)

theorem plain_of_parseV4 {text : Str} {value : ℕ} (h : parseV4 text = some value) :
    ∀ c ∈ text, Plain c := by
  unfold parseV4 at h
  split at h
  · simp at h
  cases hoctets : (text.splitOn (Str.point '.')).mapM parseOctet with
  | none => simp [hoctets] at h
  | some octets =>
      intro c hc
      obtain rfl | ⟨part, hpart, hmem⟩ := mem_splitOn (Str.point '.') hc
      · exact .inl rfl
      · exact plain_of_parseOctet (isSome_of_mapM hoctets part hpart) c hmem

theorem plain_of_joinHextets {high value : ℕ} {hextets : List Str}
    (h : joinHextets high hextets = some value) : ∀ hextet ∈ hextets, ∀ c ∈ hextet, Plain c := by
  unfold joinHextets at h
  cases hvalues : hextets.mapM parseHextet with
  | none => simp [hvalues] at h
  | some values =>
      exact fun hextet hmem => plain_of_parseHextet (isSome_of_mapM hvalues hextet hmem)

theorem plain_of_hexParts {split parts : List Str} (hparts : hexParts split = some parts)
    (hplain : ∀ part ∈ parts, ∀ c ∈ part, Plain c) : ∀ part ∈ split, ∀ c ∈ part, Plain c := by
  unfold hexParts at hparts
  dsimp only at hparts
  split at hparts
  · simp only [Option.bind_eq_bind, Option.bind_eq_some_iff] at hparts
    obtain ⟨value, hvalue, hsome⟩ := hparts
    obtain rfl := Option.some.inj hsome
    intro part hpart
    by_cases hlast : part ∈ split.dropLast
    · exact hplain part (List.mem_append_left _ hlast)
    · have hsuffix : part = split.getLastD [] := by
        have hne : split ≠ [] := List.ne_nil_of_mem hpart
        rw [← List.dropLast_append_getLast hne, List.mem_append] at hpart
        rw [List.getLastD_eq_getLast?, List.getLast?_eq_some_getLast hne]
        simpa [hlast] using hpart
      rw [hsuffix]
      exact plain_of_parseV4 hvalue
  · obtain rfl := Option.some.inj hparts
    exact hplain

/-- Around the one gap stand the hextets. -/
theorem mem_of_gap {parts : List Str} {skip : ℕ} (hgap : gaps parts = [skip]) {part : Str}
    (h : part ∈ parts) : part = [] ∨ part ∈ parts.take skip ∨ part ∈ parts.drop (skip + 1) := by
  have hskip : skip ∈ gaps parts := by simp [hgap]
  simp only [gaps, List.mem_filter, Bool.and_eq_true, decide_eq_true_eq] at hskip
  rw [← List.take_append_drop skip parts, List.mem_append] at h
  obtain hhigh | hlow := h
  · exact .inr (.inl hhigh)
  · obtain ⟨hlt, hat⟩ := List.getElem?_eq_some_iff.mp hskip.2.2
    rw [List.drop_eq_getElem_cons hlt, hat] at hlow
    obtain rfl | hlow := List.mem_cons.mp hlow
    · exact .inl rfl
    · exact .inr (.inr hlow)

/-- An end that is empty is part of the gap, and no other part is. -/
theorem nil_of_take {parts : List Str} {skip : ℕ} (hstart : parts.head? = some [])
    (hskip : skip = 1) {part : Str} (h : part ∈ parts.take skip) : part = [] := by
  obtain ⟨rest, rfl⟩ := List.head?_eq_some_iff.mp hstart
  simpa [hskip] using h

theorem nil_of_drop {parts : List Str} {skip : ℕ} (hend : parts.getLast? = some [])
    (hskip : skip + 2 = parts.length) {part : Str} (h : part ∈ parts.drop (skip + 1)) :
    part = [] := by
  obtain ⟨front, rfl⟩ := List.getLast?_eq_some_iff.mp hend
  have hlength : skip + 1 = front.length := by simpa using hskip
  simpa [hlength] using h

theorem plain_of_parseV6Parts {text : Str} {value : ℕ} (h : parseV6Parts text = some value) :
    2 ≤ text.count (Str.point ':') ∧ ∀ c ∈ text, Plain c := by
  unfold parseV6Parts at h
  simp only [Option.bind_eq_bind, Option.bind_none, Option.ite_none_left_eq_some,
    Option.bind_eq_some_iff] at h
  obtain ⟨hcolons, parts, hparts, -, h⟩ := h
  have hplain : ∀ part ∈ parts, ∀ c ∈ part, Plain c := by
    split at h
    · simp only [Option.ite_none_left_eq_some] at h
      exact plain_of_joinHextets h.2
    · rename_i skip hgap
      simp only [Option.ite_none_left_eq_some, Option.bind_eq_some_iff, Bool.and_eq_true,
        decide_eq_true_eq, not_and, not_not] at h
      obtain ⟨hstart, hend, -, high, hhigh, hlow⟩ := h
      intro part hpart c hc
      have hfull : part ≠ [] := List.ne_nil_of_mem hc
      obtain hnil | hbefore | hafter := mem_of_gap hgap hpart
      · exact absurd hnil hfull
      · by_cases hempty : parts.head? = some []
        · exact absurd (nil_of_take hempty (hstart hempty) hbefore) hfull
        · rw [if_neg hempty] at hhigh
          exact plain_of_joinHextets hhigh part hbefore c hc
      · by_cases hempty : parts.getLast? = some []
        · exact absurd (nil_of_drop hempty (hend hempty) hafter) hfull
        · rw [if_neg hempty] at hlow
          exact plain_of_joinHextets hlow part hafter c hc
    · simp at h
  constructor
  · rw [length_splitOn] at hcolons
    omega
  · intro c hc
    obtain rfl | ⟨part, hpart, hmem⟩ := mem_splitOn (Str.point ':') hc
    · exact .inr (.inl ⟨by decide, by decide⟩)
    · exact plain_of_hexParts hparts hplain part hpart c hmem

/-! ### The scope id -/

/-- The scope id of a literal, empty where it has none. -/
def scopeId (text : Str) : Str :=
  (text.dropWhile (· ≠ Str.point '%')).drop 1

theorem scopeId_append_cons {address : Str} (h : Str.point '%' ∉ address) (scope : Str) :
    scopeId (address ++ Str.point '%' :: scope) = scope := by
  have hdrop : (address ++ Str.point '%' :: scope).dropWhile (· ≠ Str.point '%') =
      Str.point '%' :: scope := by
    rw [List.dropWhile_append_of_pos]
    · simp
    · exact fun c hc => decide_eq_true fun heq => h (heq ▸ hc)
  simp only [scopeId, hdrop, List.drop_succ_cons, List.drop_zero]

/-- The parts of a literal: its address alone, or with a scope id. -/
inductive Literal : Str → Prop
  | bare {address : Str} {value : ℕ} (haddress : parseV6Parts address = some value) :
      Literal address
  | zoned {address scope : Str} {value : ℕ} (haddress : parseV6Parts address = some value)
      (hscope : scope ≠ []) (hpercent : Str.point '%' ∉ scope) (hslash : Str.point '/' ∉ scope) :
      Literal (address ++ Str.point '%' :: scope)

theorem literal_of_parse {text : Str} {value : ℕ} (h : parse text = some (.v6 value)) :
    Literal text := by
  have hv6 : parseV6 text = some value := by
    unfold parse at h
    split at h
    · simp at h
    · simpa using h
  unfold parseV6 at hv6
  simp only [Option.bind_eq_bind, Option.bind_none, Option.ite_none_left_eq_some] at hv6
  obtain ⟨hslash, hv6⟩ := hv6
  have htext : [Str.point '%'].intercalate (text.splitOn (Str.point '%')) = text :=
    List.intercalate_splitOn _
  have hcount := length_splitOn (Str.point '%') text
  split at hv6
  · rename_i address hsplit
    obtain rfl : address = text := by simpa [hsplit] using htext
    exact .bare hv6
  · rename_i address scope hsplit
    simp only [Option.ite_none_left_eq_some] at hv6
    obtain rfl : address ++ Str.point '%' :: scope = text := by
      simpa [hsplit, List.intercalate] using htext
    rw [hsplit] at hcount
    simp only [List.length_cons, List.length_nil, List.count_append, List.count_cons_self] at hcount
    refine .zoned hv6.2 hv6.1 (List.count_eq_zero.mp (by omega)) fun hmem => hslash ?_
    simp [hmem]
  · simp at hv6

theorem not_mem_of_plain {text : Str} (h : ∀ c ∈ text, Plain c) {c : CodePoint} (hc : ¬Plain c) :
    c ∉ text :=
  fun hmem => hc (h c hmem)

theorem isSome_parse_of_literal {text : Str} (h : Literal text) : (parse text).isSome := by
  have hv6 : (parseV6 text).isSome := by
    cases h with
    | bare haddress =>
        obtain ⟨-, hplain⟩ := plain_of_parseV6Parts haddress
        have hslash : Str.point '/' ∉ text := not_mem_of_plain hplain (by decide)
        have hpercent : Str.point '%' ∉ text := not_mem_of_plain hplain (by decide)
        simp [parseV6, hslash, List.splitOn_eq_singleton hpercent, haddress]
    | @zoned address scope value haddress hscope hpercent hslash =>
        obtain ⟨-, hplain⟩ := plain_of_parseV6Parts haddress
        have hslash' : Str.point '/' ∉ address := not_mem_of_plain hplain (by decide)
        have hpercent' : Str.point '%' ∉ address := not_mem_of_plain hplain (by decide)
        have hsplit : (address ++ Str.point '%' :: scope).splitOn (Str.point '%') =
            [address, scope] := by
          rw [List.splitOn_append_cons_self_of_not_mem hpercent',
            List.splitOn_eq_singleton hpercent]
        have hne : Str.point '/' ≠ Str.point '%' := by decide
        simp [parseV6, hslash, hslash', hsplit, hscope, haddress, hne]
  unfold parse
  split
  · rfl
  · simpa using hv6

end IpAddress

end Bedjet.Python
