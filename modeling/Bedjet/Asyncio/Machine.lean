import Mathlib.Algebra.GroupWithZero.Nat
import Mathlib.Data.List.Basic

/-!
Machines that take one action at a time, their runs, and the induction over
them. An action names everything a step does not determine by itself (which
coroutine is resumed, what the environment answers), so a step is a function; it
is `none` where the action is not enabled.

A program of cooperating coroutines is such a machine: a step is what happens
between two suspension points, and a run is one interleaving.
-/

namespace Bedjet.Asyncio

structure Machine (σ α : Type*) where
  step : σ → α → Option σ

namespace Machine

variable {σ α : Type*} (M : Machine σ α)

/-- The state after a list of actions, if all are enabled. -/
def run : σ → List α → Option σ
  | s, [] => some s
  | s, a :: as => (M.step s a).bind fun s' => run s' as

/-- Every action of the run is taken in a state that allows it. -/
def Meets (ok : σ → α → Prop) : σ → List α → Prop
  | _, [] => True
  | s, a :: as => ok s a ∧ ∀ s' ∈ M.step s a, Meets ok s' as

/-- Every state of the run, first and last included, has the property. -/
def Always (P : σ → Prop) : σ → List α → Prop
  | s, [] => P s
  | s, a :: as => P s ∧ ∀ s' ∈ M.step s a, Always P s' as

instance decidableMeets (ok : σ → α → Prop) [∀ s a, Decidable (ok s a)] :
    (s : σ) → (as : List α) → Decidable (M.Meets ok s as)
  | _, [] => isTrue trivial
  | s, a :: as =>
      have (s' : σ) : Decidable (M.Meets ok s' as) := decidableMeets ok s' as
      inferInstanceAs (Decidable (ok s a ∧ ∀ s' ∈ M.step s a, M.Meets ok s' as))

variable {M}

@[simp] theorem run_nil (s : σ) : M.run s [] = some s := rfl

theorem run_cons_eq_some {s s' : σ} {a : α} {as : List α} :
    M.run s (a :: as) = some s' ↔ ∃ t, M.step s a = some t ∧ M.run t as = some s' := by
  simp [run, Option.bind_eq_some_iff]

/-- A run that can be evaluated: it ends in a state that passes the check. -/
theorem exists_of_run_any {s : σ} {as : List α} {check : σ → Bool}
    (h : (M.run s as).any check) : ∃ s', M.run s as = some s' ∧ check s' := by
  cases hrun : M.run s as with
  | none => simp [hrun] at h
  | some s' => exact ⟨s', rfl, by simpa [hrun] using h⟩

theorem run_append {s : σ} {as bs : List α} :
    M.run s (as ++ bs) = (M.run s as).bind fun t => M.run t bs := by
  induction as generalizing s with
  | nil => rfl
  | cons a as ih =>
      cases h : M.step s a with
      | none => simp [run, h]
      | some t => simp [run, h, ih]

theorem Meets.imp {ok ok' : σ → α → Prop} (himp : ∀ s a, ok s a → ok' s a) {s : σ} {as : List α}
    (h : M.Meets ok s as) : M.Meets ok' s as := by
  induction as generalizing s with
  | nil => trivial
  | cons a as ih => exact ⟨himp s a h.1, fun s' hs' => ih (h.2 s' hs')⟩

theorem meets_of_forall {ok : σ → α → Prop} {as : List α} (h : ∀ a ∈ as, ∀ s, ok s a) {s : σ} :
    M.Meets ok s as := by
  induction as generalizing s with
  | nil => trivial
  | cons a as ih =>
      have hrest (a' : α) (ha' : a' ∈ as) (s : σ) : ok s a' := h a' (List.mem_cons_of_mem a ha') s
      exact ⟨h a List.mem_cons_self s, fun _ _ => ih hrest⟩

theorem meets_true {s : σ} {as : List α} : M.Meets (fun _ _ => True) s as := by
  induction as generalizing s with
  | nil => trivial
  | cons a as ih => exact ⟨trivial, fun _ _ => ih⟩

/-- The invariant rule: what holds at the start and is kept by every allowed
step holds at the end of every run of allowed steps. -/
theorem run_invariant {ok : σ → α → Prop} {I : σ → Prop}
    (hstep : ∀ s a s', I s → ok s a → M.step s a = some s' → I s')
    {s s' : σ} {as : List α} (hI : I s) (hok : M.Meets ok s as)
    (hrun : M.run s as = some s') : I s' := by
  induction as generalizing s with
  | nil =>
      obtain rfl : s = s' := by simpa using hrun
      exact hI
  | cons a as ih =>
      obtain ⟨t, ht, hrest⟩ := run_cons_eq_some.mp hrun
      exact ih (hstep s a t hI hok.1 ht) (hok.2 t ht) hrest

/-- The invariant rule for unrestricted runs. -/
theorem run_invariant' {I : σ → Prop}
    (hstep : ∀ s a s', I s → M.step s a = some s' → I s')
    {s s' : σ} {as : List α} (hI : I s) (hrun : M.run s as = some s') : I s' :=
  run_invariant (fun s a s' h _ => hstep s a s' h) hI meets_true hrun

/-- An invariant kept by every allowed step holds all along a run of them. -/
theorem always_of_meets {ok : σ → α → Prop} {I P : σ → Prop}
    (hstep : ∀ s a s', I s → ok s a → M.step s a = some s' → I s') (hIP : ∀ s, I s → P s)
    {s : σ} {as : List α} (hI : I s) (hok : M.Meets ok s as) : M.Always P s as := by
  induction as generalizing s with
  | nil => exact hIP s hI
  | cons a as ih =>
      exact ⟨hIP s hI, fun t ht => ih (hstep s a t hI hok.1 ht) (hok.2 t ht)⟩

/-- The variant rule: where some step always leads on, with less left to do, a
run leads to where nothing is. -/
theorem exists_run_of_variant {I P : σ → Prop} (left : σ → ℕ)
    (hstep : ∀ s, I s → ¬P s → ∃ a s', M.step s a = some s' ∧ I s' ∧ left s' < left s)
    {s : σ} (hI : I s) : ∃ as s', M.run s as = some s' ∧ I s' ∧ P s' := by
  induction hleft : left s using Nat.strongRecOn generalizing s with
  | ind n ih =>
      by_cases hP : P s
      · exact ⟨[], s, rfl, hI, hP⟩
      · obtain ⟨a, t, ht, hIt, hless⟩ := hstep s hI hP
        obtain ⟨as, s', hrun, hs'⟩ := ih (left t) (hleft ▸ hless) hIt rfl
        exact ⟨a :: as, s', run_cons_eq_some.mpr ⟨t, ht, hrun⟩, hs'⟩

/-- What every counted action takes something from is counted no more often than there
was at the start. -/
theorem count_le_of_variant {I : σ → Prop} (left : σ → ℕ) (counted : α → Bool)
    (hstep : ∀ s a s', I s → M.step s a = some s' →
      I s' ∧ left s' + (counted a).toNat ≤ left s)
    {s s' : σ} {as : List α} (hI : I s) (hrun : M.run s as = some s') :
    I s' ∧ left s' + as.countP counted ≤ left s := by
  induction as generalizing s with
  | nil =>
      obtain rfl : s = s' := by simpa using hrun
      exact ⟨hI, by simp⟩
  | cons a as ih =>
      obtain ⟨t, ht, hrest⟩ := run_cons_eq_some.mp hrun
      obtain ⟨hIt, hfirst⟩ := hstep s a t hI ht
      obtain ⟨hI', htail⟩ := ih hIt hrest
      refine ⟨hI', ?_⟩
      cases hcounted : counted a <;>
        simp only [hcounted, Bool.toNat_true, Bool.toNat_false, List.countP_cons] at hfirst ⊢ <;>
        grind

/-- Where a step that is not allowed breaks the property, a run with the
property throughout takes only allowed steps. -/
theorem meets_of_always {ok : σ → α → Prop} {I P : σ → Prop}
    (hstep : ∀ s a s', I s → M.step s a = some s' → I s')
    (hbreak : ∀ s a s', I s → P s → ¬ok s a → M.step s a = some s' → ¬P s')
    {s s' : σ} {as : List α} (hI : I s) (hrun : M.run s as = some s')
    (h : M.Always P s as) : M.Meets ok s as := by
  induction as generalizing s with
  | nil => trivial
  | cons a as ih =>
      obtain ⟨t, ht, hrest⟩ := run_cons_eq_some.mp hrun
      have hallowed : ok s a := by
        by_contra hno
        have hP : P t := by
          have htail := h.2 t ht
          cases as with
          | nil => exact htail
          | cons => exact htail.1
        exact hbreak s a t hI h.1 hno ht hP
      refine ⟨hallowed, fun u hu => ?_⟩
      obtain rfl : t = u := by simpa [ht] using hu
      exact ih (hstep s a t hI ht) hrest (h.2 t ht)

end Machine

end Bedjet.Asyncio
