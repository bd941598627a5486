import Bedjet.Integrations.Admission
import Bedjet.Python.Literals

/-!
What the check of the `Host` header lets pass: every spelling of a permitted
name, every literal of an address, and no other name.
-/

namespace Bedjet.Integrations

open Python Str IpAddress

/-- A name, and not a name with a port or an address in brackets. -/
structure IsName (name : Str) : Prop where
  ne_nil : name ≠ []
  noSpace : ∀ c ∈ name, isSpacePoint c = false
  noColon : Str.point ':' ∉ name
  noOpening : Str.point '[' ∉ name
  noClosing : Str.point ']' ∉ name

/-- The headers addressed to a host. -/
inductive Addresses (host : Str) : Str → Prop
  | alone : Addresses host host
  | withPort (port : Str) (hport : Str.point ':' ∉ port) :
      Addresses host (host ++ Str.point ':' :: port)

/-- The names that the configured hosts have. -/
def ServerConfig.permittedNames (config : ServerConfig) : List Str :=
  config.permittedHosts.map hostnameOf

/-- A scope id of spaces only is lost when the header is stripped. -/
def KeepsScope (literal : Str) : Prop :=
  scopeId literal = [] ∨ ∃ c ∈ scopeId literal, isSpacePoint c = false

/-- The address in brackets ends at the first closing bracket. -/
def KeepsScopeInBrackets (literal : Str) : Prop :=
  (scopeId literal).head? ≠ some (Str.point ']')

def bracketed (literal : Str) : Str :=
  Str.point '[' :: literal ++ [Str.point ']']

/-- The check as a law over all headers. -/
structure ChecksHost (u : UnicodeTables) (config : ServerConfig) : Prop where
  configured : ∀ host ∈ config.permittedHosts, IsName host → host ∈ config.permittedNames
  names : ∀ name ∈ config.permittedNames, ∀ spelling, IsName spelling →
    u.lower spelling = u.lower name → ∀ header, Addresses spelling header →
    ∀ before after, (∀ c ∈ before, isSpacePoint c) → (∀ c ∈ after, isSpacePoint c) →
      hostIsPermitted u (before ++ header ++ after) config
  literals : ∀ literal value, parse literal = some (.v6 value) → KeepsScope literal →
    hostIsPermitted u literal config
  inBrackets : ∀ literal value, parse literal = some (.v6 value) →
    KeepsScopeInBrackets literal → ∀ header, Addresses (bracketed literal) header →
      hostIsPermitted u header config
  others : ∀ name, IsName name → parse name = none →
    (∀ permitted ∈ config.permittedNames, u.lower name ≠ u.lower permitted) →
    ∀ header, Addresses name header → ¬hostIsPermitted u header config

/-! ### The hostname in a header -/

variable {header value name : Str}

theorem singleton_isPrefixOf {α : Type*} [DecidableEq α] {c : α} {xs : List α} :
    [c].isPrefixOf xs ↔ xs.head? = some c := by
  cases xs with
  | nil => simp
  | cons c' xs =>
      have hswap : c = c' ↔ c' = c := eq_comm
      simpa using hswap

theorem isPrefixOf_opening : (Str.of "[").isPrefixOf value ↔ value.head? = some (Str.point '[') :=
  singleton_isPrefixOf

theorem hostnameOf_whole (hstrip : strip header = value)
    (hopening : value.head? ≠ some (Str.point '[')) (hcolons : value.count (Str.point ':') ≠ 1) :
    hostnameOf header = value := by
  unfold hostnameOf
  dsimp only
  rw [hstrip, if_neg (mt isPrefixOf_opening.mp hopening), if_neg hcolons]

/-- Of one colon, the left side. -/
theorem hostnameOf_beforeColon {port : Str} (hstrip : strip header = name ++ Str.point ':' :: port)
    (hname : IsName name) (hport : Str.point ':' ∉ port) : hostnameOf header = name := by
  have hopening : (name ++ Str.point ':' :: port).head? ≠ some (Str.point '[') := by
    cases name with
    | nil => exact absurd rfl hname.ne_nil
    | cons c name =>
        rintro hhead
        exact hname.noOpening (by simpa [eq_comm] using Or.inl (Option.some.inj hhead))
  have hcolons : (name ++ Str.point ':' :: port).count (Str.point ':') = 1 := by
    simp [List.count_eq_zero.mpr hname.noColon, List.count_eq_zero.mpr hport]
  unfold hostnameOf
  dsimp only
  rw [hstrip, if_neg (mt isPrefixOf_opening.mp hopening), if_pos hcolons,
    List.takeWhile_append_of_pos]
  · simp
  · exact fun c hc => decide_eq_true fun heq => hname.noColon (heq ▸ hc)

/-- A text up to a closing bracket, and from there. -/
theorem exists_cut (inner rest : Str) : ∃ rest', inner ++ Str.point ']' :: rest =
    inner.takeWhile (· ≠ Str.point ']') ++ Str.point ']' :: rest' := by
  have hinner := List.takeWhile_append_dropWhile (p := (· ≠ Str.point ']')) (l := inner)
  cases hdrop : inner.dropWhile (· ≠ Str.point ']') with
  | nil =>
      rw [hdrop, List.append_nil] at hinner
      exact ⟨rest, by rw [hinner]⟩
  | cons c tail =>
      have hc : c = Str.point ']' := by
        have hnot := List.head?_dropWhile_not (· ≠ Str.point ']') inner
        rw [hdrop] at hnot
        simpa using hnot
      refine ⟨tail ++ Str.point ']' :: rest, ?_⟩
      conv_lhs => rw [← hinner, hdrop, hc]
      simp

theorem take_drop_of_cut {opening closing : CodePoint} {inner : Str}
    (hopening : opening ≠ closing) (hinner : ∀ c ∈ inner, c ≠ closing) (rest : Str) :
    ∃ stop, (opening :: inner ++ closing :: rest).findIdx? (· = closing) = some stop ∧
      ((opening :: inner ++ closing :: rest).take stop).drop 1 = inner := by
  have hnone : (opening :: inner).findIdx? (· = closing) = none := by
    rw [List.findIdx?_eq_none_iff]
    intro c hc
    obtain rfl | hmem := List.mem_cons.mp hc
    · exact decide_eq_false hopening
    · exact decide_eq_false (hinner c hmem)
  refine ⟨(opening :: inner).length, ?_, ?_⟩
  · rw [List.findIdx?_append, hnone]
    simp [List.findIdx?_cons]
  · rw [List.take_left, List.drop_one, List.tail_cons]

/-- Between brackets, what precedes the first closing one. -/
theorem hostnameOf_inBrackets {inner rest : Str}
    (hstrip : strip header = Str.point '[' :: inner ++ Str.point ']' :: rest) :
    hostnameOf header = inner.takeWhile (· ≠ Str.point ']') := by
  obtain ⟨rest', hcut⟩ := exists_cut inner rest
  rw [List.cons_append, hcut, ← List.cons_append] at hstrip
  have hinner (c : CodePoint) (hc : c ∈ inner.takeWhile (· ≠ Str.point ']')) :
      c ≠ Str.point ']' := by
    simpa using List.mem_takeWhile_imp hc
  have hbrackets : Str.point '[' ≠ Str.point ']' := by decide
  obtain ⟨stop, hstop, hbetween⟩ := take_drop_of_cut hbrackets hinner rest'
  unfold hostnameOf
  dsimp only
  rw [hstrip, if_pos (isPrefixOf_opening.mpr rfl), hstop]
  exact hbetween

/-! ### Names -/

theorem strip_padded {text before after : Str} (hne : text ≠ [])
    (hsolid : ∀ c ∈ text, isSpacePoint c = false) (hbefore : ∀ c ∈ before, isSpacePoint c)
    (hafter : ∀ c ∈ after, isSpacePoint c) : strip (before ++ text ++ after) = text := by
  obtain ⟨front, c, rfl⟩ := (List.eq_nil_or_concat' text).resolve_left hne
  have hfront : ∀ d ∈ front.head?, isSpacePoint d = false := fun d hd =>
    hsolid d (List.mem_append_left _ (List.mem_of_mem_head? hd))
  have hshape : before ++ (front ++ [c]) ++ after = before ++ (front ++ c :: after) := by simp
  rw [hshape, strip_append_cons hbefore hfront (hsolid c (by simp)), rstrip_eq_nil_iff.mpr hafter]

/-- The same of a text without padding. -/
theorem strip_solid {text : Str} (hne : text ≠ []) (hsolid : ∀ c ∈ text, isSpacePoint c = false) :
    strip text = text := by
  have hnone : ∀ c ∈ ([] : Str), isSpacePoint c := by simp
  simpa using strip_padded hne hsolid hnone hnone

theorem hostnameOf_addresses (hname : IsName name) (h : Addresses name header)
    {before after : Str} (hbefore : ∀ c ∈ before, isSpacePoint c)
    (hafter : ∀ c ∈ after, isSpacePoint c) : hostnameOf (before ++ header ++ after) = name := by
  cases h with
  | alone =>
      have hstrip := strip_padded hname.ne_nil hname.noSpace hbefore hafter
      refine hostnameOf_whole hstrip (fun hhead => ?_) ?_
      · exact hname.noOpening (List.mem_of_head? hhead)
      · rw [List.count_eq_zero.mpr hname.noColon]
        decide
  | withPort port hport =>
      have hcolon : isSpacePoint (Str.point ':') = false :=
        isSpacePoint_of_visible ⟨by decide, by decide⟩
      have hstrip : strip (before ++ (name ++ Str.point ':' :: port) ++ after) =
          name ++ Str.point ':' :: rstrip (port ++ after) := by
        have hhead : ∀ d ∈ name.head?, isSpacePoint d = false := fun d hd =>
          hname.noSpace d (List.mem_of_mem_head? hd)
        have hshape : before ++ (name ++ Str.point ':' :: port) ++ after =
            before ++ (name ++ Str.point ':' :: (port ++ after)) := by simp
        rw [hshape, strip_append_cons hbefore hhead hcolon]
      refine hostnameOf_beforeColon hstrip hname fun hmem => ?_
      obtain hin | hin := List.mem_append.mp ((prefix_rstrip _).subset hmem)
      · exact hport hin
      · simp [hafter _ hin] at hcolon

theorem hostnameOf_header (hname : IsName name) (h : Addresses name header) :
    hostnameOf header = name := by
  have hnone : ∀ c ∈ ([] : Str), isSpacePoint c := by simp
  simpa using hostnameOf_addresses hname h hnone hnone

variable {u : UnicodeTables} {config : ServerConfig}

/-- A hostname passes if it is empty, the literal of an address or permitted. -/
theorem hostIsPermitted_iff : hostIsPermitted u header config ↔
    hostnameOf header = [] ∨ (parse (hostnameOf header)).isSome ∨
      ∃ permitted ∈ config.permittedNames, u.lower permitted = u.lower (hostnameOf header) := by
  unfold hostIsPermitted
  dsimp only
  split
  · rename_i hempty
    exact iff_of_true rfl (.inl hempty)
  · rename_i hfull
    split
    · rename_i hliteral
      exact iff_of_true rfl (.inr (.inl hliteral))
    · rename_i hname
      simp [hfull, hname, ServerConfig.permittedNames]

theorem permitted_of_hostnameOf (hheader : hostnameOf header = value)
    (hvalue : (parse value).isSome) : hostIsPermitted u header config :=
  hostIsPermitted_iff.mpr (.inr (.inl (hheader ▸ hvalue)))

/-! ### Literals -/

theorem isSpacePoint_of_plain {c : CodePoint} (h : Plain c) : isSpacePoint c = false := by
  refine isSpacePoint_of_visible ?_
  unfold Plain at h
  omega

variable {literal address scope : Str} {n : ℕ}

theorem ne_nil_of_parseV6Parts (h : parseV6Parts address = some n) : address ≠ [] := by
  rintro rfl
  simp [parseV6Parts] at h

/-- The two colons keep a literal from being split, whatever its scope id. -/
theorem hostnameOf_literal (haddress : parseV6Parts address = some n)
    (hstrip : strip header = address ++ scope) : hostnameOf header = address ++ scope := by
  obtain ⟨hcolons, hplain⟩ := plain_of_parseV6Parts haddress
  refine hostnameOf_whole hstrip (fun hhead => ?_) ?_
  · rw [List.head?_append_of_ne_nil _ (ne_nil_of_parseV6Parts haddress)] at hhead
    exact not_mem_of_plain hplain (by decide) (List.mem_of_head? hhead)
  · rw [List.count_append]
    omega

theorem literal_of_part {part : Str} (haddress : parseV6Parts address = some n)
    (hpercent : Str.point '%' ∉ scope) (hslash : Str.point '/' ∉ scope) (hpart : part <+: scope)
    (hne : part ≠ []) : Literal (address ++ Str.point '%' :: part) :=
  .zoned haddress hne (fun h => hpercent (hpart.subset h)) fun h => hslash (hpart.subset h)

theorem permitted_literal (h : Literal literal) (hkeeps : KeepsScope literal) :
    hostIsPermitted u literal config := by
  cases h with
  | bare haddress =>
      have hplain := (plain_of_parseV6Parts haddress).2
      have hstrip : strip literal = literal :=
        strip_solid (ne_nil_of_parseV6Parts haddress) fun c hc =>
          isSpacePoint_of_plain (hplain c hc)
      have hname : hostnameOf literal = literal := by
        simpa using hostnameOf_literal haddress (hstrip.trans (List.append_nil literal).symm)
      exact permitted_of_hostnameOf hname (isSome_parse_of_literal (.bare haddress))
  | @zoned address scope n haddress hscope hpercent hslash =>
      have hplain := (plain_of_parseV6Parts haddress).2
      have hpercent' : Str.point '%' ∉ address := not_mem_of_plain hplain (by decide)
      rw [KeepsScope, scopeId_append_cons hpercent'] at hkeeps
      obtain ⟨c, hc, hsolid⟩ := hkeeps.resolve_left hscope
      have hne : rstrip scope ≠ [] := fun hnil => by
        simp [rstrip_eq_nil_iff.mp hnil c hc] at hsolid
      have hstrip : strip (address ++ Str.point '%' :: scope) =
          address ++ Str.point '%' :: rstrip scope := by
        have hhead : ∀ d ∈ address.head?, isSpacePoint d = false := fun d hd =>
          isSpacePoint_of_plain (hplain d (List.mem_of_mem_head? hd))
        have hmark : isSpacePoint (Str.point '%') = false :=
          isSpacePoint_of_visible ⟨by decide, by decide⟩
        exact strip_unpadded hhead hmark scope
      exact permitted_of_hostnameOf (hostnameOf_literal haddress hstrip)
        (isSome_parse_of_literal (literal_of_part haddress hpercent hslash (prefix_rstrip _) hne))

/-- What is left of a literal up to the first closing bracket. -/
theorem literal_takeWhile (h : Literal literal) (hkeeps : KeepsScopeInBrackets literal) :
    Literal (literal.takeWhile (· ≠ Str.point ']')) := by
  cases h with
  | bare haddress =>
      have hplain := (plain_of_parseV6Parts haddress).2
      have hwhole : literal.takeWhile (· ≠ Str.point ']') = literal := by
        refine List.takeWhile_eq_self_iff.mpr fun c hc => decide_eq_true fun heq => ?_
        exact not_mem_of_plain hplain (by decide) (heq ▸ hc)
      rw [hwhole]
      exact .bare haddress
  | @zoned address scope n haddress hscope hpercent hslash =>
      have hplain := (plain_of_parseV6Parts haddress).2
      have hpercent' : Str.point '%' ∉ address := not_mem_of_plain hplain (by decide)
      rw [KeepsScopeInBrackets, scopeId_append_cons hpercent'] at hkeeps
      have hcut : (address ++ Str.point '%' :: scope).takeWhile (· ≠ Str.point ']') =
          address ++ Str.point '%' :: scope.takeWhile (· ≠ Str.point ']') := by
        rw [List.takeWhile_append_of_pos, List.takeWhile_cons_of_pos (by decide)]
        exact fun c hc => decide_eq_true fun heq =>
          not_mem_of_plain hplain (by decide) (heq ▸ hc)
      rw [hcut]
      refine literal_of_part haddress hpercent hslash (List.takeWhile_prefix _) ?_
      cases scope with
      | nil => exact absurd rfl hscope
      | cons c scope =>
          have hc : c ≠ Str.point ']' := fun heq => hkeeps (by simp [heq])
          simp [hc]

theorem permitted_bracketed (h : Literal literal) (hkeeps : KeepsScopeInBrackets literal)
    (hheader : Addresses (bracketed literal) header) : hostIsPermitted u header config := by
  have hrest : ∃ rest, header = Str.point '[' :: literal ++ Str.point ']' :: rest := by
    cases hheader with
    | alone => exact ⟨[], rfl⟩
    | withPort port _ => exact ⟨Str.point ':' :: port, by simp [bracketed]⟩
  obtain ⟨rest, rfl⟩ := hrest
  have hstrip : strip (Str.point '[' :: literal ++ Str.point ']' :: rest) =
      Str.point '[' :: literal ++ Str.point ']' :: rstrip rest := by
    have hopening : ∀ d ∈ (Str.point '[' :: literal).head?, isSpacePoint d = false := by
      rintro d hd
      obtain rfl : Str.point '[' = d := by simpa using hd
      exact isSpacePoint_of_visible ⟨by decide, by decide⟩
    have hclosing : isSpacePoint (Str.point ']') = false :=
      isSpacePoint_of_visible ⟨by decide, by decide⟩
    exact strip_unpadded hopening hclosing rest
  exact permitted_of_hostnameOf (hostnameOf_inBrackets hstrip)
    (isSome_parse_of_literal (literal_takeWhile h hkeeps))

/-! ### The law -/

/-- The check lets pass every spelling of a permitted name, every literal of an
IPv6 address whose scope id reaches it, and no other name. -/
theorem hostIsPermitted_law (u : UnicodeTables) (config : ServerConfig) : ChecksHost u config where
  configured host hhost hname :=
    List.mem_map.mpr ⟨host, hhost, hostnameOf_header hname .alone⟩
  names name hpermitted spelling hname hcase header hheader before after hbefore hafter := by
    rw [hostIsPermitted_iff, hostnameOf_addresses hname hheader hbefore hafter]
    exact .inr (.inr ⟨name, hpermitted, hcase.symm⟩)
  literals literal value hparse hkeeps := permitted_literal (literal_of_parse hparse) hkeeps
  inBrackets literal value hparse hkeeps header hheader :=
    permitted_bracketed (literal_of_parse hparse) hkeeps hheader
  others name hname hparse hforeign header hheader := by
    rw [hostIsPermitted_iff, hostnameOf_header hname hheader]
    rintro (hempty | hliteral | ⟨permitted, hpermitted, hcase⟩)
    · exact hname.ne_nil hempty
    · simp [hparse] at hliteral
    · exact hforeign permitted hpermitted hcase.symm

/-- The literal of an address whose scope id is a closing bracket, in brackets. -/
theorem literal_can_be_refused :
    ¬∀ (u : UnicodeTables) (config : ServerConfig) (literal : Str) (value : ℕ),
      parse literal = some (.v6 value) → hostIsPermitted u (bracketed literal) config := by
  intro hall
  have hpermitted := hall asciiTables tokenConfig (Str.of "::1%]") 1 (by decide +kernel)
  exact absurd hpermitted (by decide +kernel)

end Bedjet.Integrations
