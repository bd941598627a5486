import Bedjet.Api.Evidence

/-!
One command followed through a run. To a single command a step of the service is
one of three things: it runs, its bytes reach the device, or it is left alone or
at most told of a reading.
-/

namespace Bedjet.Api

open Python Protocol Device Service Asyncio

namespace System

/-- The segment a command runs: its first, or the one it is resumed for. -/
def Executes (cfg : Config) (s : System) (c : Command) (segment : Segment) : Prop :=
  c.pc = .fresh ∧
      segment = c.request.begin cfg.settleTimeout s.now c.dryRun s.commander.shared ∨
    ∃ why, c.pc.resume cfg.settleTimeout s.now c.dryRun s.commander.shared why = some segment

/-- What a step of the service is to command `i`. -/
inductive Touches (cfg : Config) (s : System) (i : ℕ) (s' : System) : Prop
  | spares {events : List Event} (htrace : s'.trace = events ++ s.trace)
      (hquiet : ∀ event, .command i event ∉ events)
      (hcommand : s'.commander.commands[i]? = s.commander.commands[i]? ∨
        s'.commander.commands[i]? = s.commander.commands[i]?.map Command.wake)
  | runs {c : Command} {segment : Segment}
      (hc : s.commander.commands[i]? = some c ∨
        s.commander.commands.length = i ∧ c.pc = .fresh)
      (hexecutes : s.Executes cfg c segment)
      (htrace : s'.trace = segment.events.map (.command i) ++ s.trace)
      (hcommand : s'.commander.commands[i]? = some { c with pc := segment.pc })
  | delivers {c : Command} {order : Order} {base : Sample}
      (hc : s.commander.commands[i]? = some c) (hpc : c.pc = .writing order base false)
      (htrace : s'.trace = .command i (.delivered order.payload) :: s.trace)
      (hcommand : s'.commander.commands[i]? = some { c with pc := .writing order base true })

variable {cfg : Config} {s s' : System} {a : Action} {i j : ℕ}

theorem not_mem_events {segment : Segment} (hij : j ≠ i) (event : CommandEvent) :
    .command i event ∉ segment.events.map (Event.command j) := by
  intro hmem
  obtain ⟨x, -, heq⟩ := List.mem_map.mp hmem
  simp [hij] at heq

theorem touches_wake {c : Command} {why : Wakeup} {segment : Segment}
    (hc : s.commander.commands[j]? = some c)
    (hresume : c.pc.resume cfg.settleTimeout s.now c.dryRun s.commander.shared why =
      some segment) : s.Touches cfg i (s.runCommand cfg j c segment) := by
  have htrace := trace_runCommand cfg s j c segment
  by_cases hji : j = i
  · subst hji
    exact .runs (.inl hc) (.inr ⟨why, hresume⟩) htrace (commands_runCommand_self hc)
  · refine .spares htrace (not_mem_events hji) (.inl ?_)
    rw [commander_runCommand, Commander.put, List.getElem?_set_ne hji]

theorem touches_begin (request : Request) (dryRun : Bool) (calls : List ApiCall) :
    s.Touches cfg i ({ s with calls }.beginCommand cfg request dryRun) := by
  let c : Command := { request, dryRun }
  let segment := request.begin cfg.settleTimeout s.now dryRun s.commander.shared
  let began : System := { s with
    calls
    commander := { s.commander with commands := s.commander.commands ++ [c] } }
  show s.Touches cfg i (began.runCommand cfg s.commander.commands.length c segment)
  have htrace := trace_runCommand cfg began s.commander.commands.length c segment
  have hget : began.commander.commands[s.commander.commands.length]? = some c :=
    List.getElem?_concat_length ..
  by_cases hi : s.commander.commands.length = i
  · subst hi
    exact .runs (.inr ⟨rfl, rfl⟩) (.inl ⟨rfl, rfl⟩) htrace (commands_runCommand_self hget)
  · refine .spares htrace (not_mem_events hi) (.inl ?_)
    rw [commander_runCommand, Commander.put, List.getElem?_set_ne hi]
    show (s.commander.commands ++ [c])[i]? = _
    rcases lt_or_ge i s.commander.commands.length with hlt | hge
    · rw [List.getElem?_append_left hlt]
    · rw [List.getElem?_eq_none hge, List.getElem?_eq_none]
      simp only [List.length_append, List.length_singleton]
      omega

theorem touches_takeIn (intake : Intake) : s.Touches cfg i (s.takeIn intake) := by
  have hquiet (event : CommandEvent) :
      .command i event ∉ intake.events.map Event.reader := by
    intro hmem
    obtain ⟨r, -, heq⟩ := List.mem_map.mp hmem
    simp at heq
  rw [takeIn]
  cases intake.published with
  | none => exact .spares rfl hquiet (.inl rfl)
  | some sample =>
      have hquiet' (event : CommandEvent) :
          .command i event ∉ .published sample :: intake.events.map Event.reader := by
        simp
      exact .spares rfl hquiet' (.inr (List.getElem?_map ..))

/-- A step is one of these to any command. -/
theorem touches_of_step (h : (machine cfg).step s a = some s') (i : ℕ) : s.Touches cfg i s' := by
  have hnone : ∀ event, Event.command i event ∉ ([] : List Event) := by simp
  cases acts_of_step h with
  | passes | drops | powersOn | starts | stops | yields | resumes | links | refuses | misses =>
      exact .spares (List.nil_append _).symm hnone (.inl rfl)
  | connects =>
      have hquiet : ∀ event, Event.command i event ∉ [Event.connected] := by simp
      exact .spares rfl hquiet (.inl rfl)
  | notifies | completes | polls => exact touches_takeIn _
  | commands request dryRun => exact touches_begin request dryRun s.calls
  | calls => exact touches_begin _ _ _
  | @delivers j c order base hc hpc hconnected =>
      by_cases hji : j = i
      · subst hji
        exact .delivers hc hpc rfl (List.getElem?_set_self (List.getElem?_eq_some_iff.mp hc).1)
      · have hquiet : ∀ event, Event.command i event ∉
            [Event.command j (.delivered order.payload)] := by
          simp [Ne.symm hji]
        exact .spares rfl hquiet (.inl (List.getElem?_set_ne hji))
  | wakes hc hresume => exact touches_wake hc hresume

end System

end Bedjet.Api
