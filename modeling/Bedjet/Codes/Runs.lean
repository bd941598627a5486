import Mathlib.Data.List.SplitBy

/-!
The runs of a list: its longest stretches of entries that follow one another by a
relation, as `List.splitBy` gives them. A program that reads its input entry by entry
sees them grow from the back, so what it needs to know is what one more entry does:
it begins a run, or lengthens the last.
-/

namespace Bedjet.Codes

variable {α : Type*} {r : α → α → Bool} {l : List α} {a : α}

/-- An entry that does not follow the last begins a run. -/
theorem runs_concat_of_not (h : ∀ x ∈ l.getLast?, r x a = false) :
    (l ++ [a]).splitBy r = l.splitBy r ++ [[a]] := by
  rw [List.splitBy_append_cons [] h]
  rfl

/-- The last run has the last entry. -/
theorem getLast?_of_runs {runs : List (List α)} {run : List α}
    (hruns : l.splitBy r = runs ++ [run]) : run ≠ [] ∧ l.getLast? = run.getLast? := by
  have hrun : run ≠ [] := List.ne_nil_of_mem_splitBy (r := r) (l := l) (by simp [hruns])
  have hl : l = runs.flatten ++ run := by
    rw [← List.flatten_splitBy r l, hruns]
    simp
  exact ⟨hrun, by rw [hl, List.getLast?_append_of_ne_nil _ hrun]⟩

/-- An entry that follows the last joins its run. -/
theorem runs_concat_of (hne : l ≠ []) (h : ∀ x ∈ l.getLast?, r x a) :
    ∃ runs first rest, l.splitBy r = runs ++ [first :: rest] ∧
      (l ++ [a]).splitBy r = runs ++ [first :: (rest ++ [a])] := by
  obtain ⟨runs, run, hruns⟩ :=
    (List.eq_nil_or_concat' (l.splitBy r)).resolve_left (List.splitBy_ne_nil.mpr hne)
  obtain ⟨hrun, hlast⟩ := getLast?_of_runs hruns
  obtain ⟨first, rest, rfl⟩ := List.exists_cons_of_ne_nil hrun
  refine ⟨runs, first, rest, hruns, ?_⟩
  obtain ⟨hl, hnil, hchain, hbetween⟩ := List.splitBy_eq_iff.mp hruns
  refine List.splitBy_eq_iff.mpr ⟨by simp [hl], by simp_all, fun m hm => ?_, ?_⟩
  · obtain hm | rfl : m ∈ runs ∨ m = first :: rest ++ [a] := by simpa using hm
    · exact hchain m (List.mem_append_left _ hm)
    · refine List.isChain_append.mpr ⟨hchain _ (by simp), List.isChain_singleton a, ?_⟩
      simpa [hlast] using h
  · obtain ⟨hbefore, -, hapart⟩ := List.isChain_append.mp hbetween
    refine List.isChain_append.mpr ⟨hbefore, List.isChain_singleton _, fun m hm m' hm' => ?_⟩
    obtain rfl : first :: (rest ++ [a]) = m' := by simpa using hm'
    obtain ⟨hm, hhead, hfirst⟩ := hapart m hm (first :: rest) (by simp)
    exact ⟨hm, by simp, hfirst⟩

end Bedjet.Codes
