import Bedjet.Api.Wire

/-!
How old the reading is on which a command decides. The slot of the commander is
filled by the reader and emptied by writes; connecting does neither, so a
reading can outlive the connection it came over.
-/

namespace Bedjet.Api

open Python Protocol Device Service Asyncio History

def Event.isConnect : Event → Bool
  | .connected => true
  | _ => false

/-- The part of a history since the last connection was made. -/
def sinceConnect (trace : List Event) : List Event :=
  trace.takeWhile (!·.isConnect)

/-- A command decides on a reading published since the last connection was
made. -/
def FreshBaseline : Event → List Event → Prop
  | .command _ (.based sample), earlier => .published sample ∈ sinceConnect earlier
  | _, _ => True

theorem sinceConnect_append {events trace : List Event} (h : ∀ e ∈ events, e.isConnect = false) :
    sinceConnect (events ++ trace) = events ++ sinceConnect trace :=
  List.takeWhile_append_of_pos fun e he => by simp [h e he]

theorem freshBaseline_of_mem {events trace : List Event} {e : Event}
    (hevents : ∀ e ∈ events, e.isConnect = false)
    (hbased : ∀ i sample, e = .command i (.based sample) →
      .published sample ∈ sinceConnect trace) :
    FreshBaseline e (events ++ trace) := by
  cases e with
  | command i event =>
      cases event with
      | based sample =>
          show .published sample ∈ sinceConnect (events ++ trace)
          rw [sinceConnect_append hevents]
          exact List.mem_append_right _ (hbased i sample rfl)
      | _ => trivial
  | _ => trivial

namespace System

variable {cfg : Config} {s s' : System}

/-- Every decision so far was taken on a reading of its connection, and so will
the next one be. -/
structure Fresh (s : System) : Prop where
  baselines : Each FreshBaseline s.trace
  latest : ∀ a, s.commander.shared.latest = some a → .published a ∈ sinceConnect s.trace

theorem fresh_initial : Fresh {} := ⟨each_nil _, by simp⟩

/-- Steps that neither connect nor decide nor publish. -/
theorem Fresh.grow {events : List Event} (h : s.Fresh) (htrace : s'.trace = events ++ s.trace)
    (hlatest : ∀ a, s'.commander.shared.latest = some a → s.commander.shared.latest = some a)
    (hevents : ∀ e ∈ events, e.isConnect = false)
    (hbased : ∀ i sample, .command i (.based sample) ∈ events →
      s.commander.shared.latest = some sample) : s'.Fresh where
  baselines := by
    rw [htrace]
    apply h.baselines.append
    intro e he between hbetween
    refine freshBaseline_of_mem (fun e he => hevents e (hbetween he)) fun i sample heq => ?_
    exact h.latest sample (hbased i sample (heq ▸ he))
  latest a ha := by
    rw [htrace, sinceConnect_append hevents]
    exact List.mem_append_right _ (h.latest a (hlatest a ha))

theorem Fresh.onState (h : s.Fresh) (sample : Sample) : (s.onState sample).Fresh where
  baselines := h.baselines.cons trivial
  latest a ha := by
    obtain rfl : sample = a := by simpa [Commander.onState] using ha
    exact List.mem_cons_self

theorem Fresh.takeIn (h : s.Fresh) (intake : Intake) : (s.takeIn intake).Fresh := by
  have h₁ : ((s.setLease { s.lease with reader := intake.reader }).emit
      (intake.events.map .reader)).Fresh := by
    refine h.grow rfl (fun a ha => ha) (fun e he => ?_) fun i sample hmem => ?_
    · obtain ⟨r, -, rfl⟩ := List.mem_map.mp he
      rfl
    · simp at hmem
  rw [System.takeIn]
  cases intake.published with
  | none => exact h₁
  | some sample => exact h₁.onState sample

/-- A command decides on what is held. -/
theorem Fresh.run {i : ℕ} {c : Command} {why : Option Wakeup} {segment : Segment} (h : s.Fresh)
    (hruns : Runs cfg.settleTimeout s.now c s.commander.shared why segment) :
    (s.runCommand cfg i c segment).Fresh := by
  refine h.grow (trace_runCommand cfg s i c segment) (fun a ha => ?_) (fun e he => ?_)
    fun j sample hmem => ?_
  · rw [commander_runCommand] at ha
    exact hruns.latest ha
  · obtain ⟨x, -, rfl⟩ := List.mem_map.mp he
    rfl
  · obtain ⟨x, hx, heq⟩ := List.mem_map.mp hmem
    obtain ⟨-, rfl⟩ : i = j ∧ x = .based sample := by simpa using heq
    exact hruns.based hx

theorem Fresh.enroll (h : s.Fresh) (request : Request) (dryRun : Bool) (calls : List ApiCall) :
    (s.enroll request dryRun calls).Fresh :=
  ⟨h.baselines, h.latest⟩

/-- A connection is made only while the commander holds no reading. -/
def ConnectsEmpty (s : System) : Action → Prop
  | .link _ .connected => s.commander.shared.latest = none
  | _ => True

theorem Fresh.effect {a : Action} (h : s.Fresh) (hempty : s.ConnectsEmpty a)
    (heffect : Effect cfg s a s') : s'.Fresh := by
  cases heffect with
  | passes => exact ⟨h.baselines, h.latest⟩
  | links => exact ⟨h.baselines, h.latest⟩
  | connects =>
      -- nothing is held, so nothing held is from an earlier connection
      have hnone : s.commander.shared.latest = none := hempty
      exact ⟨h.baselines.cons trivial, fun a ha => by simp [hnone] at ha⟩
  | takesIn => exact h.takeIn _
  | rejects => exact ⟨h.baselines, h.latest⟩
  | begins hcalls hruns => exact (h.enroll _ _ _).run hruns
  | wakes hcommand hruns => exact h.run hruns
  | delivers =>
      refine h.grow rfl (fun a ha => ha) (by simp [Event.isConnect]) fun i sample hmem => ?_
      simp at hmem

theorem Fresh.beginCommand (h : s.Fresh) (request : Request) (dryRun : Bool) :
    (s.beginCommand cfg request dryRun).Fresh := by
  have hruns : Runs cfg.settleTimeout s.now { request, dryRun } s.commander.shared none _ :=
    begin_runs cfg.settleTimeout s.now rfl
  have hrun := (h.enroll request dryRun []).run (i := s.commander.commands.length) hruns
  simpa [System.beginCommand, System.enroll] using hrun

theorem step_connected {t : ℕ} (h : (machine cfg).step s (.link t .connected) = some s') :
    ∃ lease, s' = (s.setLease lease).emit [.connected] := by
  obtain ⟨lease, -, hs'⟩ := Option.bind_eq_some_iff.mp h
  exact ⟨lease, (Option.some.inj hs').symm⟩

theorem events_proceed (order : Order) (shared : Shared) (before : Sample) :
    ∃ x, (proceed order shared before).events = [x, .based before] := by
  rw [proceed]
  split
  · exact ⟨_, rfl⟩
  · split
    · exact ⟨_, rfl⟩
    · split <;> exact ⟨_, rfl⟩

/-- A command called right after a connection was made decides on whatever is
held, however old. -/
theorem stale_after_connect {lease : Lease} {b : Sample}
    (hlatest : s.commander.shared.latest = some b) :
    ¬Each FreshBaseline
      (((s.setLease lease).emit [.connected]).beginCommand cfg .off false).trace := by
  intro h
  let order : Order :=
    { payload := Encode.turnOff, description := "mode -> off", goal := .standby, dryRun := false }
  obtain ⟨x, hx⟩ := events_proceed order s.commander.shared b
  have htrace : (((s.setLease lease).emit [.connected]).beginCommand cfg .off false).trace =
      [.command s.commander.commands.length x] ++
        .command s.commander.commands.length (.based b) :: .connected :: s.trace := by
    have hsegment : Request.begin cfg.settleTimeout s.now false s.commander.shared .off =
        proceed order s.commander.shared b := by
      simp [Request.begin, sendOff, sendVerified, hlatest, order]
    simp only [System.beginCommand, trace_runCommand]
    show ((Request.begin cfg.settleTimeout s.now false s.commander.shared .off).events.map _) ++
      (.connected :: s.trace) = _
    rw [hsegment, hx]
    rfl
  have hfresh := h _ _ _ htrace
  simp [FreshBaseline, sinceConnect, Event.isConnect] at hfresh

/-- In a run, the decisions taken so far and whichever is taken next always rest
on a reading published since the last connection was made, if and only if every
connection is made while the commander holds no reading. -/
theorem decisions_are_fresh_iff {actions : List Action}
    (hrun : (machine cfg).run {} actions = some s) :
    (machine cfg).Always (fun s => ∀ request dryRun,
        Each FreshBaseline (s.beginCommand cfg request dryRun).trace) {} actions ↔
      (machine cfg).Meets ConnectsEmpty {} actions := by
  constructor
  · refine Machine.meets_of_always (I := System.Sound) ?_ ?_ sound_initial hrun
    · intro s a s' hs hstep
      exact (step_effect hs hstep).sound hs
    · -- a command called now decides on what was held before the connection
      intro s a s' hs _ hno hstep hfresh
      cases a with
      | link t step =>
          cases step with
          | connected =>
              obtain ⟨b, hb⟩ := Option.ne_none_iff_exists'.mp hno
              obtain ⟨lease, rfl⟩ := step_connected hstep
              exact stale_after_connect hb (hfresh .off false)
          | _ => exact hno trivial
      | _ => exact hno trivial
  · refine Machine.always_of_meets (I := fun s => s.Sound ∧ s.Fresh) ?_ ?_
      ⟨sound_initial, fresh_initial⟩
    · intro s a s' hI hempty hstep
      have heffect := step_effect hI.1 hstep
      exact ⟨heffect.sound hI.1, hI.2.effect hempty heffect⟩
    · intro s hI request dryRun
      exact (hI.2.beginCommand request dryRun).baselines

theorem decisions_are_fresh_iff_switchOff :
    (machine {}).Always (fun s => ∀ request dryRun,
        Each FreshBaseline (s.beginCommand {} request dryRun).trace) {} switchOff ↔
      (machine {}).Meets ConnectsEmpty {} switchOff := by
  have hany : ((machine {}).run {} switchOff).any fun _ => true := by decide +kernel
  obtain ⟨s, hrun, -⟩ := Machine.exists_of_run_any hany
  exact decisions_are_fresh_iff hrun

/-- A unit in standby is yielded for five seconds and taken back; then it is to
be switched off. -/
def offAfterYield : List Action :=
  [.start, .link 0 .connected, .link 0 .subscribed, .notify standbyPacket,
    .yieldLink 5, .link 2 .unsubscribed, .link 2 .disconnected,
    .link 1 .begun, .pass 6, .link 1 .slept, .link 1 .disconnected, .link 1 .connected,
    .link 1 .subscribed, .command .off false]

/-- Whether the last thing that happened since a connection is that a command
found itself satisfied by what was held before. -/
def satisfiedByOld (s : System) : Bool :=
  match s.trace with
  | .command _ (.ended (.raised (.alreadySatisfied _))) :: .command _ (.based _) ::
      .connected :: _ => true
  | _ => false

/-- After a yield the commander still answers from the reading of the earlier
connection: it refuses to switch off a unit its owner may have turned on. -/
theorem decisions_can_be_stale :
    ¬∀ (cfg : Config) (s : System), Reachable cfg s → Each FreshBaseline s.trace := by
  intro h
  have hany : ((machine {}).run {} offAfterYield).any satisfiedByOld := by decide +kernel
  obtain ⟨s, hrun, hold⟩ := Machine.exists_of_run_any hany
  have heach := h {} s ⟨_, hrun⟩
  rw [satisfiedByOld] at hold
  split at hold
  · rename_i htrace
    have hfresh := heach [_] _ _ htrace
    simp [FreshBaseline, sinceConnect, Event.isConnect] at hfresh
  · simp at hold

end System

end Bedjet.Api
