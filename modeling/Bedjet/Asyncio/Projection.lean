import Bedjet.Asyncio.Machine
import Mathlib.Data.List.Forall2

/-!
A component of a machine. A run of the whole, seen through the component, is a run of
the component's own machine over the actions that concern it. Actions that concern nothing
do not count.
-/

namespace Bedjet.Asyncio.Machine

variable {σ α τ β : Type*} {M : Machine σ α} {N : Machine τ β} {I : σ → Prop} {view : σ → τ}
  {part : α → Option β}

/-- In a state of `I`, a step of `M` is a step of `N` where it concerns the component,
and leaves it alone where it does not. -/
structure Projects (M : Machine σ α) (N : Machine τ β) (I : σ → Prop) (view : σ → τ)
    (part : α → Option β) : Prop where
  acts : ∀ s a s' b, I s → M.step s a = some s' → part a = some b →
    N.step (view s) b = some (view s')
  rests : ∀ s a s', I s → M.step s a = some s' → part a = none → view s' = view s

theorem Projects.run (h : M.Projects N I view part)
    (hkeep : ∀ s a s', I s → M.step s a = some s' → I s') {s s' : σ} {as : List α} (hI : I s)
    (hrun : M.run s as = some s') : N.run (view s) (as.filterMap part) = some (view s') := by
  induction as generalizing s with
  | nil =>
      obtain rfl := Option.some.inj hrun
      rfl
  | cons a as ih =>
      obtain ⟨t, ht, hrest⟩ := run_cons_eq_some.mp hrun
      have hcomponent := ih (hkeep s a t hI ht) hrest
      cases hpart : part a with
      | none =>
          rw [List.filterMap_cons_none hpart, ← h.rests s a t hI ht hpart]
          exact hcomponent
      | some b =>
          rw [List.filterMap_cons_some hpart]
          exact run_cons_eq_some.mpr ⟨view t, h.acts s a t b hI ht hpart, hcomponent⟩

/-- What is related to some of the actions that concern the component is related to actions
of the whole. -/
theorem forall₂_of_sublist_filterMap {γ : Type*} {R : β → γ → Prop} {as : List α} {bs : List β}
    {cs : List γ} (hsub : bs.Sublist (as.filterMap part)) (h : List.Forall₂ R bs cs) :
    ∃ as', as'.Sublist as ∧
      List.Forall₂ (fun a c => a ∈ as ∧ ∃ b, part a = some b ∧ R b c) as' cs := by
  induction as generalizing bs cs with
  | nil =>
      obtain rfl := List.sublist_nil.mp hsub
      obtain rfl := List.forall₂_nil_left_iff.mp h
      exact ⟨[], .slnil, .nil⟩
  | cons a as ih =>
      have hweaken {a' : α} {c : γ} (h : a' ∈ as ∧ ∃ b, part a' = some b ∧ R b c) :
          a' ∈ a :: as ∧ ∃ b, part a' = some b ∧ R b c := ⟨List.mem_cons_of_mem a h.1, h.2⟩
      have hskip {bs : List β} {cs : List γ} (hsub : bs.Sublist (as.filterMap part))
          (h : List.Forall₂ R bs cs) : ∃ as', as'.Sublist (a :: as) ∧
            List.Forall₂ (fun a' c => a' ∈ a :: as ∧ ∃ b, part a' = some b ∧ R b c) as' cs := by
        obtain ⟨as', hsub', hall⟩ := ih hsub h
        exact ⟨as', hsub'.cons a, hall.imp fun _ _ => hweaken⟩
      cases hpart : part a with
      | none =>
          rw [List.filterMap_cons_none hpart] at hsub
          exact hskip hsub h
      | some b =>
          rw [List.filterMap_cons_some hpart] at hsub
          cases hsub with
          | cons _ hsub => exact hskip hsub h
          | cons_cons _ hsub =>
              cases h with
              | cons hhead htail =>
                  obtain ⟨as', hsub', hall⟩ := ih hsub htail
                  have hfirst : a ∈ a :: as ∧ ∃ b, part a = some b ∧ R b _ :=
                    ⟨List.mem_cons_self, b, hpart, hhead⟩
                  refine ⟨a :: as', hsub'.cons_cons a, .cons hfirst ?_⟩
                  exact hall.imp fun _ _ => hweaken

/-- Actions that change nothing anywhere can be left out of a run. -/
theorem run_filter_of_idle {keep : α → Bool} {as : List α}
    (hidle : ∀ a ∈ as, keep a = false → ∀ s, M.step s a = some s) {s : σ} :
    M.run s (as.filter keep) = M.run s as := by
  induction as generalizing s with
  | nil => rfl
  | cons a as ih =>
      have hrest {t : σ} : M.run t (as.filter keep) = M.run t as :=
        ih fun b hb => hidle b (List.mem_cons_of_mem a hb)
      cases hkeep : keep a with
      | false => simp [hkeep, hrest, run, hidle a List.mem_cons_self hkeep s]
      | true => simp [hkeep, run, hrest]

end Bedjet.Asyncio.Machine
