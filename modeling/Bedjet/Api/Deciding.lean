import Bedjet.Api.Following
import Bedjet.Service.Deciding

/-!
The decisions of the adjustments in a run. Once a command has based itself on a
reading, everything it does afterwards is what its request came to on it.
-/

namespace Bedjet.Api

open Python Protocol Device Service Asyncio

theorem writesOf_segment (i : ℕ) (segment : Segment) :
    writesOf i (segment.events.map (.command i)) = segment.writes := by
  rw [writesOf, Segment.writes, List.filterMap_map]
  congr 1
  funext event
  cases event <;> simp

/-- A command that accepted its request is not answered by a refusal. -/
theorem Judged.not_refused {order : Order} {before : Sample} {writes : List Bytes}
    {ending : Ending} (h : Judged (.ok order) before writes (.ended ending)) (description : String)
    (dryRun : Bool) (first last : DeviceSnapshot) (message : String) :
    translate description dryRun first last ending ≠ .refused message := by
  cases ending with
  | returned => simp [translate]
  | raised exception =>
      cases exception with
      | refused => exact h.elim
      | encode => simp [Judged] at h
      | _ => simp [translate]

namespace System

variable {cfg : Config} {s s' : System} {a : Action}

theorem Executes.runs {c : Command} {segment : Segment} (h : s.Executes cfg c segment)
    (hsound : c.Sound) :
    ∃ why, Runs cfg.settleTimeout s.now c s.commander.shared why segment := by
  rcases h with ⟨hfresh, rfl⟩ | ⟨why, hresume⟩
  · exact ⟨none, begin_runs _ _ hfresh⟩
  · exact ⟨some why, resume_runs _ _ hsound hresume⟩

/-- Every adjustment is where its decision has left it, on whatever reading of a
running unit it has based itself. -/
def Decided (s : System) : Prop :=
  ∀ i c adjustment base, s.commander.commands[i]? = some c → c.request = .adjust adjustment →
    .command i (.based base) ∈ s.trace → adjustment.Applies base →
      Judged (adjustment.order c.dryRun base) base (writesOf i s.trace) c.pc

theorem Accounted.trustworthy (h : s.Accounted) {sample : Sample}
    (hlatest : s.commander.shared.latest = some sample) : sample.packet.isTrustworthy :=
  (h.attested (h.latest sample hlatest)).trustworthy

/-- What a command writes in a segment is added to what it wrote before. -/
theorem writesOf_runs {i : ℕ} {segment : Segment}
    (htrace : s'.trace = segment.events.map (.command i) ++ s.trace) :
    writesOf i s'.trace = segment.writes ++ writesOf i s.trace := by
  rw [htrace, writesOf_append, writesOf_segment]

theorem Decided.step (h : s.Decided) (hsound : s.Sound) (haccounted : s.Accounted)
    (hstep : (machine cfg).step s a = some s') : s'.Decided := by
  intro i c' adjustment base hc' hrequest hbased happlies
  cases touches_of_step hstep i with
  | spares htrace hquiet hcommand =>
      have hsame : writesOf i s'.trace = writesOf i s.trace := by
        rw [htrace, writesOf_append, writesOf_eq_nil (fun payload => hquiet _), List.nil_append]
      have hold : .command i (.based base) ∈ s.trace := by
        rw [htrace] at hbased
        exact (List.mem_append.mp hbased).resolve_left (hquiet _)
      rw [hsame]
      rcases hcommand with hcommand | hcommand
      · exact h i c' adjustment base (hcommand ▸ hc') hrequest hold happlies
      · rw [hcommand] at hc'
        obtain ⟨c, hc, rfl⟩ := Option.map_eq_some_iff.mp hc'
        exact (h i c adjustment base hc hrequest hold happlies).mapWait _
  | @runs c segment hc hexecutes htrace hcommand =>
      obtain rfl : { c with pc := segment.pc } = c' := by simpa [hcommand] using hc'
      have hsoundc : c.Sound := by
        rcases hc with hc | ⟨-, hfresh⟩
        · exact hsound c (List.mem_of_getElem? hc)
        · simp [Command.Sound, hfresh]
      have hrequest : c.request = .adjust adjustment := hrequest
      obtain ⟨why, hruns⟩ := hexecutes.runs hsoundc
      rw [writesOf_runs htrace]
      rw [htrace] at hbased
      rcases List.mem_append.mp hbased with hnew | hold
      · -- this is the segment it decides in
        obtain ⟨x, hx, heq⟩ := List.mem_map.mp hnew
        obtain rfl : x = .based base := by simpa using heq
        have hearly := hruns.early_of_based hx
        have hlatest := hruns.based hx
        have hnone : writesOf i s.trace = [] := by
          rcases hc with hc | ⟨rfl, -⟩
          · exact (haccounted.ledger i c hc).writesOf_early hearly
          · apply writesOf_eq_nil
            intro payload hmem
            exact absurd (haccounted.numbered _ _ hmem) (lt_irrefl _)
        rcases adjusts hrequest hsoundc hearly hexecutes with hnothing | ⟨before, hbefore, rfl⟩
        · exact absurd hx (hnothing base)
        · obtain rfl : before = base := by simpa [hlatest] using hbefore.symm
          rw [hnone, List.append_nil]
          exact judged_from happlies hlatest (haccounted.trustworthy hlatest)
      · rcases hc with hc | ⟨rfl, -⟩
        · obtain ⟨hjudged, hnone⟩ := hruns.judged (h i c adjustment base hc hrequest hold happlies)
          rw [hnone, List.nil_append]
          exact hjudged
        · exact absurd (haccounted.numbered _ _ hold) (lt_irrefl _)
  | @delivers c order before hc hpc htrace hcommand =>
      obtain rfl : { c with pc := .writing order before true } = c' := by
        simpa [hcommand] using hc'
      have hold : .command i (.based base) ∈ s.trace := by
        rw [htrace] at hbased
        simpa using hbased
      have hjudged := h i c adjustment base hc hrequest hold happlies
      rw [hpc] at hjudged
      rw [htrace]
      exact hjudged.delivered

theorem Reachable.decided (h : Reachable cfg s) : s.Decided := by
  obtain ⟨actions, hrun⟩ := h
  have hall : s.Sound ∧ s.Accounted ∧ s.Decided := by
    refine Machine.run_invariant' (I := fun s => s.Sound ∧ s.Accounted ∧ s.Decided) ?_ ?_ hrun
    · rintro s a s' ⟨hs, ha, hd⟩ hstep
      have heffect := step_effect hs hstep
      exact ⟨heffect.sound hs, ha.effect hs heffect, hd.step hs ha hstep⟩
    · refine ⟨sound_initial, accounted_initial, ?_⟩
      intro i c adjustment base hc
      simp at hc
  exact hall.2.2

end System

end Bedjet.Api
