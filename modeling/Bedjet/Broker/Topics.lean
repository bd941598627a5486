import Mathlib.Data.List.Forall2

/-!
Topics, and the filters a client subscribes to: both are levels between slashes, and in a
filter `+` stands for any one level. Which messages go to who subscribed is the broker's;
what is asked of it here is what the protocol says of filters without `#`.
-/

namespace Bedjet.Broker

abbrev Level := List Char

def levels (topic : String) : List Level :=
  topic.toList.splitOn '/'

/-- A level of a filter admits a level of a topic. -/
def Admits (filter level : Level) : Prop :=
  filter = ['+'] ∨ filter = level

/-- The filter admits the topic level by level. -/
def Levelwise (filter topic : String) : Prop :=
  List.Forall₂ Admits (levels filter) (levels topic)

/-- A filter without `#`, whose `+` are whole levels. Those that begin with a wildcard or
with `$` are matched by rules of their own. -/
structure Simple (filter : String) : Prop where
  hash : '#' ∉ filter.toList
  plus : ∀ level ∈ levels filter, '+' ∈ level → level = ['+']
  first : ∃ c, filter.toList.head? = some c ∧ c ≠ '+' ∧ c ≠ '$'

/-- A topic that a message may be published on has no wildcard. -/
def Plain (topic : String) : Prop :=
  '+' ∉ topic.toList ∧ '#' ∉ topic.toList

/-- `delivers` tells which messages the broker hands to a subscription, by the filter of the
one and the topic of the other: a simple filter is matched level by level. -/
def KeepsLevels (delivers : String → String → Prop) : Prop :=
  ∀ filter topic, Simple filter → Plain topic → (delivers filter topic ↔ Levelwise filter topic)

/-! ### Levels -/

theorem levels_slash (a b : String) : levels (a ++ "/" ++ b) = levels a ++ levels b := by
  have htext : (a ++ "/" ++ b).toList = a.toList ++ '/' :: b.toList := by simp
  rw [levels, htext, List.splitOn_append_cons_self]
  rfl

theorem levels_single {name : String} (h : '/' ∉ name.toList) : levels name = [name.toList] :=
  List.splitOn_eq_singleton h

theorem levels_inj {a b : String} : levels a = levels b ↔ a = b := by
  refine ⟨fun h => ?_, fun h => h ▸ rfl⟩
  have htext := congrArg (List.intercalate ['/']) h
  rw [levels, levels, List.intercalate_splitOn, List.intercalate_splitOn] at htext
  exact String.toList_inj.mp htext

/-- No level has a slash. -/
theorem slash_notMem_of_mem_splitOn (text : List Char) :
    ∀ level ∈ text.splitOn '/', '/' ∉ level := by
  induction text with
  | nil => simp [List.splitOn_nil]
  | cons c text ih =>
      rw [List.splitOn_cons_eq_if_modifyHead]
      by_cases hc : c = '/'
      · simpa [hc] using ih
      · obtain ⟨first, rest, hsplit⟩ := List.exists_cons_of_ne_nil (List.splitOn_ne_nil '/' text)
        rw [hsplit] at ih ⊢
        simp only [beq_iff_eq, hc, if_false, List.modifyHead_cons, List.mem_cons] at ih ⊢
        rintro level (rfl | hrest)
        · simp [Ne.symm hc, ih first (.inl rfl)]
        · exact ih level (.inr hrest)

theorem char_of_mem_levels {topic : String} {level : Level} (hlevel : level ∈ levels topic)
    {c : Char} (hc : c ∈ level) : c ∈ topic.toList := by
  have htext : topic.toList = List.intercalate ['/'] (levels topic) :=
    (List.intercalate_splitOn '/').symm
  obtain ⟨before, after, hsplit⟩ := List.append_of_mem hlevel
  rw [htext, hsplit]
  clear htext hsplit hlevel
  induction before with
  | nil => cases after <;> simp [List.intercalate_cons_cons, hc]
  | cons first before ih =>
      cases hrest : before ++ level :: after with
      | nil => simp at hrest
      | cons second rest =>
          rw [hrest] at ih
          simp only [List.cons_append, hrest, List.intercalate_cons_cons, List.mem_append]
          exact .inr ih

/-! ### Filters -/

/-- Where no level but the last is a wildcard, the filter admits what is one level below. -/
theorem forall₂_admits_below {above topic : List Level} (habove : ∀ level ∈ above, level ≠ ['+']) :
    List.Forall₂ Admits (above ++ [['+']]) topic ↔ ∃ level, topic = above ++ [level] := by
  induction above generalizing topic with
  | nil => simp [Admits, List.forall₂_cons_left_iff]
  | cons first above ih =>
      obtain ⟨hfirst, hrest⟩ := List.forall_mem_cons.mp habove
      rw [List.cons_append, List.forall₂_cons_left_iff]
      constructor
      · rintro ⟨level, rest, hadmits, hall, rfl⟩
        obtain rfl := hadmits.resolve_left hfirst
        obtain ⟨last, rfl⟩ := (ih hrest).mp hall
        exact ⟨last, rfl⟩
      · rintro ⟨last, rfl⟩
        exact ⟨first, above ++ [last], .inr rfl, (ih hrest).mpr ⟨last, rfl⟩, rfl⟩

section

variable {above topic : String}

theorem levelwise_below (hplus : '+' ∉ above.toList) :
    Levelwise (above ++ "/" ++ "+") topic ↔
      ∃ name : String, topic = above ++ "/" ++ name ∧ '/' ∉ name.toList := by
  have habove : ∀ level ∈ levels above, level ≠ ['+'] := by
    rintro level hlevel rfl
    exact hplus (char_of_mem_levels hlevel (List.mem_singleton_self _))
  rw [Levelwise, levels_slash, show levels "+" = [['+']] from rfl, forall₂_admits_below habove]
  constructor
  · rintro ⟨level, htopic⟩
    have hslash : '/' ∉ level :=
      slash_notMem_of_mem_splitOn topic.toList level (by
        rw [show topic.toList.splitOn '/' = _ from htopic]
        simp)
    have hname : '/' ∉ (String.ofList level).toList := by simpa using hslash
    refine ⟨String.ofList level, ?_, hname⟩
    rw [← levels_inj, levels_slash, levels_single hname, htopic, String.toList_ofList]
  · rintro ⟨name, rfl, hslash⟩
    exact ⟨name.toList, by rw [levels_slash, levels_single hslash]⟩

theorem simple_below (h : Plain above) {c : Char} (hfirst : above.toList.head? = some c)
    (hc : c ≠ '$') : Simple (above ++ "/" ++ "+") where
  hash := by simpa using h.2
  plus level hlevel hplus := by
    rw [levels_slash] at hlevel
    rcases List.mem_append.mp hlevel with habove | hlast
    · exact absurd (char_of_mem_levels habove hplus) h.1
    · exact List.mem_singleton.mp hlast
  first := by
    have hmem : c ∈ above.toList := List.mem_of_mem_head? hfirst
    refine ⟨c, by simp [hfirst], ?_, hc⟩
    rintro rfl
    exact h.1 hmem

/-- A broker that keeps to the levels hands out what is one level below. -/
theorem KeepsLevels.below {delivers : String → String → Prop} (hbroker : KeepsLevels delivers)
    (h : Plain above) {c : Char} (hfirst : above.toList.head? = some c) (hc : c ≠ '$')
    (htopic : Plain topic) :
    delivers (above ++ "/" ++ "+") topic ↔
      ∃ name : String, topic = above ++ "/" ++ name ∧ '/' ∉ name.toList :=
  (hbroker _ _ (simple_below h hfirst hc) htopic).trans (levelwise_below h.1)

end

end Bedjet.Broker
