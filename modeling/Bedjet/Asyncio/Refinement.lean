import Bedjet.Asyncio.Machine
import Mathlib.Logic.Relation

/-!
Refinement: each step of a machine is, seen through an abstraction, a sequence of
moves of a transition relation. What the moves preserve then holds along the
runs of the machine.
-/

namespace Bedjet.Asyncio

open Relation

section

variable {τ : Type*} {R : τ → τ → Prop}

/-- What every move preserves, every sequence of moves preserves. -/
theorem keeps_of_moves {I : τ → Prop} (hkeep : ∀ a b, I a → R a b → I b) {a b : τ} (hI : I a)
    (hmoves : ReflTransGen R a b) : I b := by
  induction hmoves with
  | refl => exact hI
  | tail _ hmove ih => exact hkeep _ _ ih hmove

end

namespace Machine

variable {σ α τ : Type*} {M : Machine σ α}

/-- The allowed steps of the machine are sequences of moves, from states whose
abstraction has the invariant. -/
def Refines (M : Machine σ α) (abs : σ → τ) (R : τ → τ → Prop) (I : τ → Prop)
    (ok : σ → α → Prop) : Prop :=
  ∀ s a s', I (abs s) → ok s a → M.step s a = some s' → ReflTransGen R (abs s) (abs s')

variable {abs : σ → τ} {R : τ → τ → Prop} {I : τ → Prop} {ok : σ → α → Prop}

theorem Refines.imp {I' : τ → Prop} (h : M.Refines abs R I ok) (himp : ∀ a, I' a → I a) :
    M.Refines abs R I' ok :=
  fun s a s' hI hok hstep => h s a s' (himp _ hI) hok hstep

theorem Refines.step_keeps (h : M.Refines abs R I ok) (hkeep : ∀ a b, I a → R a b → I b)
    {s s' : σ} {a : α} (hI : I (abs s)) (hok : ok s a) (hstep : M.step s a = some s') :
    I (abs s') :=
  keeps_of_moves hkeep hI (h s a s' hI hok hstep)

theorem Refines.run_keeps (h : M.Refines abs R I ok) (hkeep : ∀ a b, I a → R a b → I b)
    {s s' : σ} {as : List α} (hI : I (abs s)) (hok : M.Meets ok s as)
    (hrun : M.run s as = some s') : I (abs s') := by
  have hstep (s : σ) (a : α) (s' : σ) (hI : I (abs s)) (hok : ok s a)
      (hs : M.step s a = some s') : I (abs s') := h.step_keeps hkeep hI hok hs
  exact run_invariant hstep hI hok hrun

theorem Refines.always (h : M.Refines abs R I ok) (hkeep : ∀ a b, I a → R a b → I b)
    {P : σ → Prop} (hIP : ∀ s, I (abs s) → P s) {s : σ} {as : List α} (hI : I (abs s))
    (hok : M.Meets ok s as) : M.Always P s as := by
  have hstep (s : σ) (a : α) (s' : σ) (hI : I (abs s)) (hok : ok s a)
      (hs : M.step s a = some s') : I (abs s') := h.step_keeps hkeep hI hok hs
  exact always_of_meets hstep hIP hI hok

end Machine

end Bedjet.Asyncio
