import Mathlib.Data.List.Nodup

/-!
A `dict` as the list of its items, in the order in which its keys were first set.
-/

namespace Bedjet.Python

abbrev Dict (κ α : Type*) := List (κ × α)

namespace Dict

variable {κ α : Type*} [DecidableEq κ] {d : Dict κ α} {k k' : κ} {v : α}

def keys (d : Dict κ α) : List κ :=
  List.map (·.1) d

def values (d : Dict κ α) : List α :=
  List.map (·.2) d

/-- `d.get(k)` -/
def get (d : Dict κ α) (k : κ) : Option α :=
  (d.find? (·.1 = k)).map (·.2)

/-- `d[k] = v` -/
def set (d : Dict κ α) (k : κ) (v : α) : Dict κ α :=
  if k ∈ d.keys then d.map fun item => if item.1 = k then (k, v) else item else d ++ [(k, v)]

theorem get_cons (item : κ × α) (d : Dict κ α) (k : κ) :
    get (item :: d) k = if item.1 = k then some item.2 else get d k := by
  by_cases h : item.1 = k <;> simp [get, h]

theorem get_append (d d' : Dict κ α) (k : κ) : get (d ++ d') k = (get d k).or (get d' k) := by
  induction d with
  | nil => simp [get]
  | cons item d ih =>
      rw [List.cons_append, get_cons, get_cons, ih]
      by_cases h : item.1 = k <;> simp [h]

omit [DecidableEq κ] in
theorem mem_keys_cons (item : κ × α) (d : Dict κ α) (k : κ) :
    k ∈ keys (item :: d) ↔ k = item.1 ∨ k ∈ d.keys :=
  List.mem_cons

theorem get_eq_none_iff : get d k = none ↔ k ∉ d.keys := by
  induction d with
  | nil => simp [get, keys]
  | cons item d ih =>
      rw [get_cons, mem_keys_cons]
      by_cases h : item.1 = k
      · simp [h]
      · simp [h, Ne.symm h, ih]

theorem get_map_set (d : Dict κ α) (k k' : κ) (v : α) :
    get (d.map fun item => if item.1 = k then (k, v) else item) k' =
      if k' = k ∧ k ∈ d.keys then some v else get d k' := by
  induction d with
  | nil => simp [get, keys]
  | cons item d ih =>
      rw [List.map_cons, get_cons, get_cons, ih]
      simp only [mem_keys_cons]
      by_cases hk' : k' = k
      · subst hk'
        by_cases hk : item.1 = k'
        · simp [hk]
        · simp [hk, Ne.symm hk]
      · by_cases hk : item.1 = k
        · simp [hk, hk', Ne.symm hk']
        · simp [hk, hk']

theorem get_set (d : Dict κ α) (k k' : κ) (v : α) :
    get (d.set k v) k' = if k' = k then some v else get d k' := by
  by_cases hk : k ∈ d.keys
  · rw [set, if_pos hk, get_map_set]
    simp [hk]
  · rw [set, if_neg hk, get_append, get_cons]
    by_cases hk' : k' = k
    · subst hk'
      simp [get_eq_none_iff.mpr hk]
    · simp [hk', Ne.symm hk', get]

theorem keys_set (d : Dict κ α) (k : κ) (v : α) :
    (d.set k v).keys = if k ∈ d.keys then d.keys else d.keys ++ [k] := by
  by_cases hk : k ∈ d.keys
  · rw [set, if_pos hk, if_pos hk, keys, keys, List.map_map]
    refine List.map_congr_left fun item _ => ?_
    by_cases h : item.1 = k <;> simp [h]
  · rw [set, if_neg hk, if_neg hk, keys, List.map_append]
    rfl

theorem mem_keys_set : k' ∈ (d.set k v).keys ↔ k' = k ∨ k' ∈ d.keys := by
  rw [keys_set]
  by_cases hk : k ∈ d.keys
  · rw [if_pos hk]
    refine ⟨.inr, ?_⟩
    rintro (rfl | h)
    · exact hk
    · exact h
  · simp [hk, or_comm]

end Dict

end Bedjet.Python
