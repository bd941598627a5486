import Bedjet.Asyncio.Machine

/-!
Machines with a record of what their steps come to, the newest first. The record
stands beside the state and no step looks at it, so the machine runs as it does
without.
-/

namespace Bedjet.Asyncio

namespace Machine

variable {σ α ε : Type*} {M : Machine σ α} {note : σ → α → σ → List ε}

/-- The machine that keeps a record; `note` says what a step adds to it. -/
def recording (M : Machine σ α) (note : σ → α → σ → List ε) : Machine (σ × List ε) α where
  step x a := (M.step x.1 a).map fun s => (s, note x.1 a s ++ x.2)

theorem step_recording {x y : σ × List ε} {a : α} :
    (M.recording note).step x a = some y ↔
      M.step x.1 a = some y.1 ∧ y.2 = note x.1 a y.1 ++ x.2 := by
  obtain ⟨s', history'⟩ := y
  constructor
  · intro h
    obtain ⟨t, ht, heq⟩ := Option.map_eq_some_iff.mp h
    obtain ⟨rfl, rfl⟩ := Prod.mk.inj heq
    exact ⟨ht, rfl⟩
  · rintro ⟨hstep, hhistory⟩
    have hstep' : M.step x.1 a = some s' := hstep
    have hhistory' : history' = note x.1 a s' ++ x.2 := hhistory
    rw [hhistory']
    exact Option.map_eq_some_iff.mpr ⟨s', hstep', rfl⟩

theorem exists_recording {s s' : σ} {as : List α} (h : M.run s as = some s') (history : List ε) :
    ∃ history', (M.recording note).run (s, history) as = some (s', history') := by
  induction as generalizing s history with
  | nil =>
      obtain rfl : s = s' := by simpa using h
      exact ⟨history, rfl⟩
  | cons a as ih =>
      obtain ⟨t, ht, hrest⟩ := run_cons_eq_some.mp h
      obtain ⟨history', hrun⟩ := ih hrest (note s a t ++ history)
      exact ⟨history', run_cons_eq_some.mpr ⟨_, step_recording.mpr ⟨ht, rfl⟩, hrun⟩⟩

/-- A run is allowed with a record if it is without. -/
theorem Meets.recording {ok : σ → α → Prop} {s : σ} {as : List α} (h : M.Meets ok s as)
    (history : List ε) :
    (M.recording note).Meets (fun x a => ok x.1 a) (s, history) as := by
  induction as generalizing s history with
  | nil => trivial
  | cons a as ih =>
      refine ⟨h.1, ?_⟩
      rintro ⟨t, history'⟩ ht
      exact ih (h.2 t (step_recording.mp ht).1) history'

/-- The invariant rule for a machine with a record. -/
theorem recording_invariant {ok : σ → α → Prop} {I : σ → List ε → Prop}
    (hstep : ∀ s a s' history, I s history → ok s a → M.step s a = some s' →
      I s' (note s a s' ++ history))
    {s s' : σ} {history history' : List ε} {as : List α} (hI : I s history)
    (hok : M.Meets ok s as)
    (hrun : (M.recording note).run (s, history) as = some (s', history')) : I s' history' := by
  have hkeep (x : σ × List ε) (a : α) (y : σ × List ε) (hx : I x.1 x.2) (hok : ok x.1 a)
      (hxy : (M.recording note).step x a = some y) : I y.1 y.2 := by
    obtain ⟨hy, hhistory⟩ := step_recording.mp hxy
    rw [hhistory]
    exact hstep x.1 a y.1 x.2 hx hok hy
  exact run_invariant (I := fun x => I x.1 x.2) hkeep hI (hok.recording history) hrun

/-- The rule where every step is allowed. -/
theorem recording_invariant_of_step {I : σ → List ε → Prop}
    (hstep : ∀ s a s' history, I s history → M.step s a = some s' →
      I s' (note s a s' ++ history))
    {s s' : σ} {history history' : List ε} {as : List α} (hI : I s history)
    (hrun : (M.recording note).run (s, history) as = some (s', history')) : I s' history' :=
  recording_invariant (fun s a s' history h _ => hstep s a s' history h) hI meets_true hrun

end Machine

end Bedjet.Asyncio
