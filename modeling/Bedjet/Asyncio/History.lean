import Mathlib.Data.List.Basic

/-!
Histories: the events of a run so far, the newest first. A history only ever
grows at its head, so what is said of an event and the events before it stays
true.
-/

namespace Bedjet.Asyncio

namespace History

variable {ε : Type*}

/-- `y` happened, and `x` had happened before it. -/
def Before (x y : ε) (h : List ε) : Prop :=
  ∃ later between earlier, h = later ++ y :: (between ++ x :: earlier)

/-- Every event has the property, judged by the events before it. -/
def Each (P : ε → List ε → Prop) (h : List ε) : Prop :=
  ∀ later e earlier, h = later ++ e :: earlier → P e earlier

theorem before_head {x y : ε} {h : List ε} (hx : x ∈ h) : Before x y (y :: h) := by
  obtain ⟨between, earlier, rfl⟩ := List.append_of_mem hx
  exact ⟨[], between, earlier, rfl⟩

theorem before_append {x y : ε} {es h : List ε} (hx : x ∈ h) (hy : y ∈ es) :
    Before x y (es ++ h) := by
  obtain ⟨later, between, rfl⟩ := List.append_of_mem hy
  obtain ⟨between', earlier, rfl⟩ := List.append_of_mem hx
  exact ⟨later, between ++ between', earlier, by simp⟩

theorem Before.cons {x y : ε} {h : List ε} (hb : Before x y h) (e : ε) :
    Before x y (e :: h) := by
  obtain ⟨later, between, earlier, rfl⟩ := hb
  exact ⟨e :: later, between, earlier, rfl⟩

theorem Before.append {x y : ε} {h : List ε} (hb : Before x y h) (es : List ε) :
    Before x y (es ++ h) := by
  induction es with
  | nil => exact hb
  | cons e es ih => exact ih.cons e

theorem Before.mem_right {x y : ε} {h : List ε} (hb : Before x y h) : y ∈ h := by
  obtain ⟨later, between, earlier, rfl⟩ := hb
  simp

/-- What `x` came before is more recent than any part of the history without `x`. -/
theorem Before.mem_recent {x y : ε} {later earlier : List ε} (hb : Before x y (later ++ earlier))
    (hx : x ∉ earlier) : y ∈ later := by
  obtain ⟨l, between, e, heq⟩ := hb
  rcases List.append_eq_append_iff.mp heq with ⟨c, -, rfl⟩ | ⟨c, rfl, hc⟩
  · simp at hx
  · cases c with
    | nil =>
        obtain rfl : _ = earlier := hc
        simp at hx
    | cons z c =>
        obtain ⟨rfl, -⟩ := List.cons_eq_cons.mp hc
        simp

theorem each_nil (P : ε → List ε → Prop) : Each P [] := by
  intro later e earlier h
  simp at h

theorem Each.cons {P : ε → List ε → Prop} {e : ε} {h : List ε} (he : P e h) (hh : Each P h) :
    Each P (e :: h) := by
  intro later e' earlier heq
  cases later with
  | nil =>
      obtain ⟨rfl, rfl⟩ : e = e' ∧ h = earlier := by simpa using heq
      exact he
  | cons d later =>
      obtain ⟨-, htail⟩ : e = d ∧ h = later ++ e' :: earlier := by simpa using heq
      exact hh later e' earlier htail

/-- Some more events, each judged by a part of them and the history before. -/
theorem Each.append {P : ε → List ε → Prop} {es h : List ε}
    (hes : ∀ e ∈ es, ∀ between ⊆ es, P e (between ++ h)) (hh : Each P h) : Each P (es ++ h) := by
  induction es with
  | nil => exact hh
  | cons e es ih =>
      have hsub : es ⊆ e :: es := List.subset_cons_self e es
      have hrest : Each P (es ++ h) :=
        ih fun e' he' between hbetween =>
          hes e' (hsub he') between (List.Subset.trans hbetween hsub)
      exact hrest.cons (hes e List.mem_cons_self es hsub)

theorem Each.imp {P Q : ε → List ε → Prop} {h : List ε}
    (hPQ : ∀ e earlier, P e earlier → Q e earlier) (hh : Each P h) : Each Q h :=
  fun later e earlier heq => hPQ e earlier (hh later e earlier heq)

end History

end Bedjet.Asyncio
