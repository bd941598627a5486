import Bedjet.Api.Adoption
import Bedjet.Api.Deciding
import Bedjet.Asyncio.Projection

/-!
Where what is written comes from. A command is put on the list by the action that asks
for it and by nothing else, and writes once at most; so the writes of a run go back, each
to one of its own, to actions that asked for them.
-/

namespace Bedjet.Api

open Python Protocol Device Service Asyncio History

/-- Whether an action asks for a command with this request, for real or as a dry run. -/
inductive Action.Asks (request : Request) (dryRun : Bool) : Action → Prop
  | command : Action.Asks request dryRun (.command request dryRun)
  | call {asked : ApiRequest} {description : String}
      (hresolve : asked.resolve = .ok ⟨request, description⟩) :
      Action.Asks request dryRun (.call asked dryRun)

/-- Whether an action is none of those that clients ask for. -/
def Action.isOwn : Action → Bool
  | .command _ _ | .call _ _ | .yieldLink _ | .resume => false
  | _ => true

/-- The account of a run: its commands were asked for by actions of it, in their order and
no two by one; and a write is that of a real command, which orders it, and its only one. -/
structure Accounts {α : Type*} (asks : α → Request → Bool → Prop) (actions : List α)
    (s : System) : Prop where
  commands : ∃ askers, askers.Sublist actions ∧
    List.Forall₂ (fun a c => asks a c.request c.dryRun) askers s.commander.commands
  writes : ∀ n payload, .command n (.wrote payload) ∈ s.trace →
    ∃ c base goal, s.commander.commands[n]? = some c ∧ c.dryRun = false ∧
      c.request.Orders base payload goal ∧ writesOf n s.trace = [payload]

namespace System

variable {cfg : Config} {s s' : System} {a : Action} {n : ℕ} {c : Command}

/-! ### What is asked for -/

/-- What was asked for, command by command. -/
def asked (s : System) : List (Request × Bool) :=
  s.commander.commands.map fun c => (c.request, c.dryRun)

/-- A command that goes on is the same command. -/
theorem map_set_asked {commands : List Command} (hc : commands[n]? = some c) (pc : Pc) :
    (commands.set n { c with pc }).map (fun c => (c.request, c.dryRun)) =
      commands.map fun c => (c.request, c.dryRun) := by
  obtain ⟨hlt, hget⟩ := List.getElem?_eq_some_iff.mp hc
  ext i : 1
  by_cases hi : n = i
  · subst hi
    simp [hlt, hget]
  · simp [List.getElem?_set_ne hi]

theorem asked_runCommand {segment : Segment} (hc : s.commander.commands[n]? = some c) :
    (s.runCommand cfg n c segment).asked = s.asked := by
  rw [asked, commander_runCommand]
  exact map_set_asked hc segment.pc

theorem asked_beginCommand (request : Request) (dryRun : Bool) (calls : List ApiCall) :
    ({ s with calls }.beginCommand cfg request dryRun).asked = s.asked ++ [(request, dryRun)] := by
  rw [beginCommand, asked_runCommand (List.getElem?_concat_length ..)]
  simp [asked]

theorem asked_takeIn (intake : Intake) : (s.takeIn intake).asked = s.asked := by
  rw [takeIn]
  cases intake.published with
  | none => rfl
  | some sample =>
      simp only [asked, onState, Commander.onState, List.map_map]
      rfl

/-- A step begins a command that its action asks for, or none. -/
theorem asks_of_step (hstep : (machine cfg).step s a = some s') :
    s'.asked = s.asked ∨
      ∃ request dryRun, a.Asks request dryRun ∧ s'.asked = s.asked ++ [(request, dryRun)] := by
  cases acts_of_step hstep with
  | passes | drops | powersOn | starts | stops | yields | resumes | links | refuses | misses |
    connects => exact .inl rfl
  | notifies | completes | polls => exact .inl (asked_takeIn _)
  | commands request dryRun => exact .inr ⟨request, dryRun, .command, asked_beginCommand _ _ _⟩
  | @calls _ dryRun resolved hresolve =>
      exact .inr ⟨resolved.request, dryRun, .call hresolve, asked_beginCommand _ _ _⟩
  | delivers hc => exact .inl (map_set_asked hc _)
  | wakes hc => exact .inl (asked_runCommand hc)

theorem asks_of_run {t : System} {actions : List Action}
    (hrun : (machine cfg).run s actions = some t) :
    ∃ askers new, askers.Sublist actions ∧
      List.Forall₂ (fun (a : Action) p => a.Asks p.1 p.2) askers new ∧
      t.asked = s.asked ++ new := by
  induction actions generalizing s with
  | nil =>
      obtain rfl := Option.some.inj hrun
      exact ⟨[], [], .slnil, .nil, (List.append_nil _).symm⟩
  | cons a actions ih =>
      obtain ⟨s', hstep, hrest⟩ := Machine.run_cons_eq_some.mp hrun
      obtain ⟨askers, new, hsub, hasks, ht⟩ := ih hrest
      rcases asks_of_step hstep with hsame | ⟨request, dryRun, hask, hnew⟩
      · exact ⟨askers, new, hsub.cons a, hasks, hsame ▸ ht⟩
      · refine ⟨a :: askers, (request, dryRun) :: new, hsub.cons_cons a, .cons hask hasks, ?_⟩
        rw [ht, hnew, List.append_assoc, List.singleton_append]

/-! ### What is written -/

/-- No command has written twice. -/
def WritesOnce (s : System) : Prop :=
  ∀ n, (writesOf n s.trace).length ≤ 1

theorem length_writes {shared : Shared} {why : Option Wakeup} {settleTimeout now : ℚ}
    {segment : Segment} (h : Runs settleTimeout now c shared why segment) :
    segment.writes.length ≤ if c.pc.early then 1 else 0 := by
  rw [← writesOf_segment 0]
  rcases h.writes_or_keeps with ⟨order, base, hwrites⟩ | ⟨-, hquiet⟩
  · obtain ⟨based, hbased, rfl⟩ := hwrites.shape
    change (writesOf 0 ([.command 0 (.wrote order.payload)] ++ based.map (.command 0))).length ≤ _
    rw [writesOf_append, writesOf_based hbased, if_pos hwrites.early]
    simp [writesOf]
  · have hnone : writesOf 0 (segment.events.map (.command 0)) = [] := by
      apply writesOf_eq_nil
      intro payload hmem
      obtain ⟨x, hx, heq⟩ := List.mem_map.mp hmem
      obtain rfl : x = .wrote payload := by simpa using heq
      exact hquiet payload hx
    simp [hnone]

theorem WritesOnce.step (h : s.WritesOnce) (hreach : Reachable cfg s)
    (hstep : (machine cfg).step s a = some s') : s'.WritesOnce := by
  intro n
  cases touches_of_step hstep n with
  | spares htrace hquiet =>
      rw [htrace, writesOf_append, writesOf_eq_nil fun payload => hquiet _]
      exact h n
  | @runs c segment hc hexecutes htrace =>
      have hsound : c.Sound := by
        rcases hc with hc | ⟨-, hfresh⟩
        · exact hreach.sound c (List.mem_of_getElem? hc)
        · simp [Command.Sound, hfresh]
      obtain ⟨why, hruns⟩ := hexecutes.runs hsound
      have hlength := length_writes hruns
      rw [writesOf_runs htrace, List.length_append]
      by_cases hearly : c.pc.early
      · -- a command that decides has not written before
        have hnone : writesOf n s.trace = [] := by
          rcases hc with hc | ⟨rfl, -⟩
          · exact (hreach.accounted.ledger n c hc).writesOf_early hearly
          · exact writesOf_eq_nil fun payload hmem =>
              lt_irrefl _ (hreach.accounted.numbered _ _ hmem)
        rw [if_pos hearly] at hlength
        simp [hnone, hlength]
      · rw [if_neg hearly] at hlength
        have hbefore := h n
        omega
  | delivers hc hpc htrace =>
      rw [htrace]
      exact h n

theorem Reachable.writesOnce (h : Reachable cfg s) : s.WritesOnce := by
  obtain ⟨actions, hrun⟩ := h
  have hall : Reachable cfg s ∧ s.WritesOnce := by
    refine Machine.run_invariant' (I := fun s => Reachable cfg s ∧ s.WritesOnce) ?_ ?_ hrun
    · rintro s a s' ⟨hreach, honce⟩ hstep
      have hone : (machine cfg).run s [a] = some s' := Machine.run_cons_eq_some.mpr ⟨s', hstep, rfl⟩
      exact ⟨hreach.run hone, honce.step hreach hstep⟩
    · exact ⟨⟨[], rfl⟩, fun n => by simp [writesOf]⟩
  exact hall.2

/-! ### The account -/

theorem accounts_of_run {actions : List Action} (hrun : (machine cfg).run {} actions = some s) :
    Accounts (fun a request dryRun => a.Asks request dryRun) actions s where
  commands := by
    obtain ⟨askers, new, hsub, hasks, hs⟩ := asks_of_run hrun
    obtain rfl : s.asked = new := hs
    exact ⟨askers, hsub, List.forall₂_map_right_iff.mp hasks⟩
  writes := by
    intro n payload hwrote
    have hreach : Reachable cfg s := ⟨actions, hrun⟩
    have hmem := mem_writesOf.mpr hwrote
    obtain ⟨c, order, base, hc, hsound, rfl⟩ := hreach.issued n payload hmem
    refine ⟨c, base, order.goal, hc, hsound.dryRun, hsound.orders, ?_⟩
    obtain ⟨only, honly⟩ := List.length_eq_one_iff.mp
      (le_antisymm (hreach.writesOnce n) (List.length_pos_of_mem hmem))
    rw [honly, List.mem_singleton] at hmem
    rw [honly, hmem]

end System

/-- The account of a part of a machine is one of the whole. -/
theorem Accounts.of_part {α β : Type*} {part : β → Option α} {asks : α → Request → Bool → Prop}
    {asks' : β → Request → Bool → Prop} {actions : List β} {s : System}
    (h : Accounts asks (actions.filterMap part) s)
    (hasks : ∀ b ∈ actions, ∀ a request dryRun, part b = some a → asks a request dryRun →
      asks' b request dryRun) : Accounts asks' actions s where
  commands := by
    obtain ⟨askers, hsub, hall⟩ := h.commands
    obtain ⟨wholes, hsub', hall'⟩ := Machine.forall₂_of_sublist_filterMap hsub hall
    refine ⟨wholes, hsub', hall'.imp ?_⟩
    rintro b c ⟨hb, a, hpart, ha⟩
    exact hasks b hb a c.request c.dryRun hpart ha
  writes := h.writes

end Bedjet.Api
