import Bedjet.Api.Wire

/-!
How commands end when several run at once. All of them share one slot: a command
that was told of a reading can find the slot emptied by another one that was
told of the same reading and ran first.
-/

namespace Bedjet.Api

open Python Protocol Device Service Asyncio History
open Encode (EncodeError)

/-- The arguments a command can work with: a finite temperature whose double is
finite, and a percentage that can be written out. -/
def Fits : Request → Prop
  | .adjust (.temperature celsius) => ∃ q, celsius = .finite q ∧
      -Double.overflowBound < q * tempScale ∧ q * tempScale < Double.overflowBound
  | .adjust (.fan percent) => percent.natAbs < 10 ^ 4300
  | .off | .mode _ => True

theorem fits_target_iff {celsius : Double} :
    Fits (.adjust (.temperature celsius)) ↔ (celsius.lift (· * tempScale)).isFinite := by
  cases celsius with
  | nan | inf _ => simp [Fits, Double.lift, Double.isFinite]
  | finite q => simp [Fits, Double.lift, Double.isFinite_ofRat]

theorem command_of_raises {request : Request} {e : EncodeError} (hfits : Fits request)
    (h : request.Raises e) : ∃ message, e = .command message := by
  cases h with
  | target hsnap => exact Encode.error_snapTargetC (fits_target_iff.mp hfits) hsnap
  | temperature hsnap hset => exact Encode.error_setTemperature hsnap hset
  | percent hsnap => exact Encode.error_snapFanPercent hfits hsnap
  | fan hsnap hset => exact absurd hset (Encode.setFanPercent_ne_error hsnap _)

/-- The endings a caller is told of: a result, or one of the three exceptions of
the commander and its encoder. -/
def Classified : Ending → Bool
  | .returned _ => true
  | .raised (.refused _) | .raised (.alreadySatisfied _) | .raised (.unverified _ _) => true
  | .raised (.encode (.command _)) => true
  | .raised (.encode (.conversion _)) | .raised .assertion => false

namespace System

variable {cfg : Config} {s s' : System}

/-- The endings of the commands with arguments that fit. -/
def Endings (P : ℕ → Ending → Prop) (s : System) : Prop :=
  ∀ i c ending, s.commander.commands[i]? = some c → Fits c.request → c.pc = .ended ending →
    P i ending

/-- Whoever has been told of a reading, woken for it or by finding the event
set, finds one. -/
structure Slotted (s : System) : Prop where
  updated : s.commander.shared.updated → s.commander.shared.latest ≠ none
  woken : ∀ (j : ℕ) (c : Command), s.commander.commands[j]? = some c → Fits c.request →
    c.pc.woken → s.commander.shared.latest ≠ none

/-- No command discards the reading held while another one has been told of it
and has not run since. -/
def NoDiscard (cfg : Config) (s : System) (a : Action) : Prop :=
  ∀ s', (machine cfg).step s a = some s' → s.commander.shared.latest ≠ none →
    s'.commander.shared.latest = none →
    ∀ (j : ℕ) (c : Command), s'.commander.commands[j]? = some c → Fits c.request →
      c.pc.woken = false

/-- Where the slot is filled for whoever was told, a segment ends its command in
a classified way. -/
theorem classified_of_runs {settleTimeout now : ℚ} {c : Command} {shared : Shared}
    {why : Option Wakeup} {segment : Segment} {ending : Ending}
    (hruns : Runs settleTimeout now c shared why segment) (hfits : Fits c.request)
    (hwoken : c.pc.woken → shared.latest ≠ none) (hpc : segment.pc = .ended ending) :
    Classified ending := by
  cases hruns with
  | decides hearly hdecides =>
      cases hdecides with
      | @declines e based he hencode hbased =>
          obtain rfl : .raised e = ending := by simpa using hpc
          cases e with
          | encode error =>
              obtain ⟨message, rfl⟩ := command_of_raises hfits (hencode error rfl)
              rfl
          | unverified => simp [Raised.early] at he
          | assertion => simp [Raised.early] at he
          | _ => rfl
      | pretends =>
          obtain rfl : _ = ending := by simpa using hpc
          rfl
      | writes => simp at hpc
  | awaits hfresh hnone hearly =>
      have hwaits := hearly { due := now + settleTimeout }
      simp only [awaitState] at hpc
      simp [hpc, Pc.early] at hwaits
  | looks hunlooked =>
      rw [Pc.mapWait_eq_ended] at hpc
      simp [hpc, Pc.unlooked] at hunlooked
  | misses hwoke hearly hnone =>
      -- the assertion after a wake-up: whoever was told finds the slot filled
      exact absurd hnone (hwoken hwoke)
  | linkFails =>
      obtain rfl : _ = ending := by simpa [Segment.raises] using hpc
      rfl
  | returns hwriting hsettles =>
      cases hsettles with
      | trips hset => simp at hset
      | waits => simp [Segment.after, Segment.poke] at hpc
      | _ =>
          obtain rfl : _ = ending := by
            simpa [Segment.after, Segment.poke, Segment.raises, Segment.returns] using hpc
          rfl
  | settles hsettling hwhy hsettles =>
      cases hsettles with
      | trips hset hnone =>
          subst hset
          have hwoke : c.pc.woken := by simpa [hsettling, Pc.woken] using hwhy
          exact absurd hnone (hwoken hwoke)
      | waits => simp at hpc
      | _ =>
          obtain rfl : _ = ending := by simpa [Segment.raises, Segment.returns] using hpc
          rfl

/-! ### One command -/

/-- An event that is set comes with a reading. -/
def Filled (s : System) : Prop :=
  s.commander.shared.updated → s.commander.shared.latest ≠ none

/-- Command `j` finds a reading where it has been told of one. -/
def Finds (s : System) (j : ℕ) : Prop :=
  ∀ c, s.commander.commands[j]? = some c → Fits c.request → c.pc.woken →
    s.commander.shared.latest ≠ none

/-- Command `j` has not ended outside the taxonomy. -/
def EndsWell (s : System) (j : ℕ) : Prop :=
  ∀ c ending, s.commander.commands[j]? = some c → Fits c.request → c.pc = .ended ending →
    Classified ending

theorem Filled.takeIn (h : s.Filled) (intake : Intake) : (s.takeIn intake).Filled := by
  rw [System.takeIn]
  cases intake.published with
  | none => exact h
  | some sample => simp [Filled, System.onState, Commander.onState]

theorem Filled.enroll (h : s.Filled) (request : Request) (dryRun : Bool)
    (calls : List ApiCall) : (s.enroll request dryRun calls).Filled := h

theorem Filled.run {i : ℕ} {c : Command} {why : Option Wakeup} {segment : Segment}
    (h : s.Filled) (hruns : Runs cfg.settleTimeout s.now c s.commander.shared why segment) :
    (s.runCommand cfg i c segment).Filled := by
  intro hupdated
  rw [commander_runCommand] at hupdated ⊢
  rcases hruns.writes_or_keeps with ⟨order, base, hwrites⟩ | ⟨hkeeps, -⟩
  · obtain ⟨based, -, rfl⟩ := hwrites.shape
    simp [Commander.put] at hupdated
  · -- nothing but a publication sets the event, and that fills the slot
    have hlatest := h (hruns.updated hupdated)
    rwa [← hkeeps] at hlatest

theorem Filled.effect {a : Action} (h : s.Filled) (heffect : Effect cfg s a s') : s'.Filled := by
  cases heffect with
  | passes | links | connects | rejects | delivers => exact h
  | takesIn => exact h.takeIn _
  | begins hcalls hruns => exact (h.enroll _ _ _).run hruns
  | wakes hcommand hruns => exact h.run hruns

theorem Finds.takeIn {j : ℕ} (h : s.Finds j) (intake : Intake) : (s.takeIn intake).Finds j := by
  rw [System.takeIn]
  cases intake.published with
  | none => exact h
  | some sample => simp [Finds, System.onState, Commander.onState]

theorem Finds.enroll {j : ℕ} (h : s.Finds j) (request : Request) (dryRun : Bool)
    (calls : List ApiCall) : (s.enroll request dryRun calls).Finds j := by
  intro c hc hfits hwoken
  rcases commands_enroll hc with hc | ⟨-, rfl⟩
  · exact h c hc hfits hwoken
  · simp [Pc.woken] at hwoken

theorem Finds.run {i j : ℕ} {c : Command} {why : Option Wakeup} {segment : Segment}
    (h : s.Finds j) (hfilled : s.Filled)
    (hkeep : s.commander.shared.latest ≠ none →
      (s.runCommand cfg i c segment).commander.shared.latest = none →
      ∀ d, (s.runCommand cfg i c segment).commander.commands[j]? = some d →
        Fits d.request → d.pc.woken = false)
    (hruns : Runs cfg.settleTimeout s.now c s.commander.shared why segment) :
    (s.runCommand cfg i c segment).Finds j := by
  intro d hd hfits hwoken
  rcases commands_runCommand hd with ⟨hji, hold⟩ | ⟨rfl, rfl⟩
  · intro hnone
    have hlatest := h d hold hfits hwoken
    simp [hkeep hlatest hnone d hd hfits] at hwoken
  · -- it has just found the event set
    obtain ⟨-, -, hset⟩ := hruns.updated_of_woken hwoken
    intro hnone
    have hlatest := hfilled hset
    simp [hkeep hlatest hnone _ hd hfits] at hwoken

/-- It goes on finding a reading, unless the step discards one it was told of. -/
theorem Finds.effect {a : Action} {j : ℕ} (h : s.Finds j) (hfilled : s.Filled)
    (hkeep : s.commander.shared.latest ≠ none → s'.commander.shared.latest = none →
      ∀ c, s'.commander.commands[j]? = some c → Fits c.request → c.pc.woken = false)
    (heffect : Effect cfg s a s') : s'.Finds j := by
  cases heffect with
  | passes | links | connects | rejects => exact h
  | takesIn => exact h.takeIn _
  | begins hcalls hruns => exact (h.enroll _ _ _).run (hfilled.enroll _ _ _) hkeep hruns
  | wakes hcommand hruns => exact h.run hfilled hkeep hruns
  | delivers hcommand hpc =>
      intro d hd hfits hwoken
      rcases commands_reach hd with ⟨-, hd⟩ | ⟨-, rfl⟩
      · exact h d hd hfits hwoken
      · simp [Pc.woken] at hwoken

theorem EndsWell.enroll {j : ℕ} (h : s.EndsWell j) (request : Request) (dryRun : Bool)
    (calls : List ApiCall) : (s.enroll request dryRun calls).EndsWell j := by
  intro c ending hc hfits hpc
  rcases commands_enroll hc with hc | ⟨-, rfl⟩
  · exact h c ending hc hfits hpc
  · simp at hpc

theorem EndsWell.run {i j : ℕ} {c : Command} {why : Option Wakeup} {segment : Segment}
    (h : s.EndsWell j) (hfinds : s.Finds j) (hc : s.commander.commands[i]? = some c)
    (hruns : Runs cfg.settleTimeout s.now c s.commander.shared why segment) :
    (s.runCommand cfg i c segment).EndsWell j := by
  intro d ending hd hfits hpc
  rcases commands_runCommand hd with ⟨-, hd⟩ | ⟨rfl, rfl⟩
  · exact h d ending hd hfits hpc
  · exact classified_of_runs hruns hfits (hfinds c hc hfits) hpc

theorem EndsWell.effect {a : Action} {j : ℕ} (h : s.EndsWell j) (hfinds : s.Finds j)
    (heffect : Effect cfg s a s') : s'.EndsWell j := by
  cases heffect with
  | passes | links | connects | rejects => exact h
  | takesIn =>
      rw [System.takeIn]
      dsimp only
      split
      · intro d ending hd hfits hpc
        obtain ⟨c, hc, rfl⟩ := commands_onState hd
        exact h c ending hc hfits (Pc.mapWait_eq_ended.mp hpc)
      · exact h
  | begins hcalls hruns =>
      exact (h.enroll _ _ _).run (hfinds.enroll _ _ _) (enroll_getElem? s _ _ _) hruns
  | wakes hcommand hruns => exact h.run hfinds hcommand hruns
  | delivers hcommand hpc =>
      intro d ending hd hfits hpc'
      rcases commands_reach hd with ⟨-, hd⟩ | ⟨-, rfl⟩
      · exact h d ending hd hfits hpc'
      · simp at hpc'

/-! ### All of them -/

theorem Slotted.effect {a : Action} (h : s.Slotted) (hok : s.NoDiscard cfg a)
    (hstep : (machine cfg).step s a = some s') (heffect : Effect cfg s a s') : s'.Slotted where
  updated := Filled.effect h.updated heffect
  woken j :=
    Finds.effect (h.woken j) h.updated (fun hsome hnone => hok s' hstep hsome hnone j) heffect

theorem Endings.effect {a : Action} (h : s.Endings fun _ ending => Classified ending)
    (hslotted : s.Slotted) (heffect : Effect cfg s a s') :
    s'.Endings fun _ ending => Classified ending :=
  fun j => EndsWell.effect (h j) (hslotted.woken j) heffect

/-! ### When all endings are in the taxonomy -/

/-- The invariant of the runs in which nothing is discarded under a command that
was told of it. -/
structure Orderly (s : System) : Prop where
  sound : s.Sound
  accounted : s.Accounted
  slotted : s.Slotted
  classified : s.Endings fun _ ending => Classified ending

theorem Orderly.step {a : Action} (h : s.Orderly) (hok : NoDiscard cfg s a)
    (hstep : (machine cfg).step s a = some s') : s'.Orderly := by
  have heffect := step_effect h.sound hstep
  exact ⟨heffect.sound h.sound, h.accounted.effect h.sound heffect,
    h.slotted.effect hok hstep heffect, h.classified.effect h.slotted heffect⟩

/-- A command that was told of a reading and finds the slot empty fails its
assertion. -/
theorem wake_empty {i : ℕ} {c : Command} (hc : s.commander.commands[i]? = some c)
    (hwoken : c.pc.woken) (hnone : s.commander.shared.latest = none) :
    ∃ s', (machine cfg).step s (.wake i .woken) = some s' ∧
      s'.commander.commands[i]? = some { c with pc := .ended (.raised .assertion) } := by
  have hresume : ∃ segment,
      c.pc.resume cfg.settleTimeout s.now c.dryRun s.commander.shared .woken = some segment ∧
        segment.pc = .ended (.raised .assertion) := by
    -- each of the three waits is followed by an assertion on the slot
    cases hpc : c.pc with
    | baseline adjustment wait =>
        have hwait : wait.woken := by simpa [hpc, Pc.woken] using hwoken
        exact ⟨_, if_pos hwait, by simp [onWoken, hnone, Segment.raises]⟩
    | before order wait =>
        have hwait : wait.woken := by simpa [hpc, Pc.woken] using hwoken
        exact ⟨_, if_pos hwait, by simp [onWoken, hnone, Segment.raises]⟩
    | settling order base deadline wait =>
        have hwait : wait.woken := by simpa [hpc, Pc.woken] using hwoken
        exact ⟨_, if_pos hwait, by simp [examine, hnone, Segment.raises]⟩
    | _ => simp [hpc, Pc.woken] at hwoken
  obtain ⟨segment, hsegment, hended⟩ := hresume
  refine ⟨s.runCommand cfg i c segment, by simp [machine, step, wake, hc, hsegment], ?_⟩
  rw [commands_runCommand_self hc, hended]

end System

end Bedjet.Api
