import Bedjet.Api.Wire

/-!
Whether a confirmation can be lost. The event says that a reading arrived, to
whoever waits for it and to whoever looks at it next; a settle loop that looks
clears it for all. A command that is still inside its write is not waiting, and
one whose wait has not looked yet cannot be woken: the event is all they will be
told.
-/

namespace Bedjet.Api

open Python Protocol Device Service Asyncio History

/-- A command that gives up for lack of confirmation does so while nothing that
is held confirms it. -/
def JustlyGivesUp (requests : ℕ → Option Request) : Event → List Event → Prop
  | .command i (.ended (.raised (.unverified _ none))), earlier =>
      ∃ request goal, requests i = some request ∧ request.goal? = some goal ∧
        ∀ a, held earlier = some a → goal.satisfied a.state = false
  | _, _ => True

/-- The predicate of a command that has written and will learn of a reading from
the event alone: it is inside its write, or its wait has not looked yet. -/
def Relies (pc : Pc) : Option Goal :=
  match pc with
  | .writing order _ _ => some order.goal
  | .settling order _ _ wait => if wait.looked then none else some order.goal
  | _ => none

/-- A command that has written has looked at what is held, or will be told. -/
def Looked (shared : Shared) (pc : Pc) : Prop :=
  match pc with
  | .writing order _ _ => shared.updated ∨ Unconfirmed order.goal shared
  | .settling order _ _ wait =>
      (if wait.looked then wait.woken else shared.updated) ∨ Unconfirmed order.goal shared
  | _ => True

theorem Looked.wake (pc : Pc) (sample : Sample) :
    Looked { latest := some sample, updated := true } pc.wake := by
  cases pc with
  | writing => exact .inl rfl
  | settling order base deadline wait => exact .inl (by cases hlook : wait.looked <;> simp [hlook])
  | _ => trivial

/-- The first look of a wait finds out what the event has to say. -/
theorem Looked.look {shared : Shared} {pc : Pc} (h : Looked shared pc) (hpc : pc.unlooked) :
    Looked shared (pc.mapWait (·.look shared.updated)) := by
  cases pc with
  | settling order base deadline wait =>
      have hunlooked : wait.looked = false := by simpa [Pc.unlooked] using hpc
      have hlook : shared.updated ∨ Unconfirmed order.goal shared := by
        simpa [Looked, hunlooked] using h
      simpa [Looked, Pc.mapWait] using hlook
  | writing => exact h
  | _ => trivial

instance (goal : Goal) (shared : Shared) : Decidable (Unconfirmed goal shared) :=
  decidable_of_iff
    (shared.latest.all fun a => !a.packet.isTrustworthy || !goal.satisfied a.state)
    (by simp [Unconfirmed, Option.all_eq_true, or_iff_not_imp_left])

theorem unconfirmed_of_none {goal : Goal} {shared : Shared} (h : shared.latest = none) :
    Unconfirmed goal shared := by
  intro a ha
  simp [h] at ha

/-- Where the event is not cleared under a confirmation that it alone will tell
of, who had looked or was to be told still has or is. -/
theorem Looked.keep {shared shared' : Shared} {pc : Pc} (h : Looked shared pc)
    (hlatest : ∀ {a}, shared'.latest = some a → shared.latest = some a)
    (hevent : ∀ goal, Relies pc = some goal → shared.updated → shared'.updated = false →
      Unconfirmed goal shared') : Looked shared' pc := by
  have hkeep {goal : Goal} (hu : Unconfirmed goal shared) : Unconfirmed goal shared' :=
    fun a ha => hu a (hlatest ha)
  have hrelies {goal : Goal} (hgoal : Relies pc = some goal)
      (hlook : shared.updated ∨ Unconfirmed goal shared) :
      shared'.updated ∨ Unconfirmed goal shared' := by
    cases hset : shared'.updated with
    | true => exact .inl rfl
    | false => exact .inr (hlook.elim (hevent goal hgoal · hset) hkeep)
  cases pc with
  | writing order base delivered => exact hrelies rfl (by simpa [Looked] using h)
  | settling order base deadline wait =>
      cases hwait : wait.looked with
      | true =>
          have hlook : wait.woken ∨ Unconfirmed order.goal shared := by
            simpa [Looked, hwait] using h
          simpa [Looked, hwait] using hlook.imp_right hkeep
      | false =>
          have hlook : shared.updated ∨ Unconfirmed order.goal shared := by
            simpa [Looked, hwait] using h
          simpa [Looked, hwait] using hrelies (by simp [Relies, hwait]) hlook
  | _ => trivial

/-- A settle loop that goes on has looked at what is held or finds the event as
it was; one that gives up has looked, unless it was not the event that made it
run. -/
theorem looked_of_settles {now : ℚ} {order : Order} {base : Sample} {deadline : ℚ}
    {shared : Shared} {why : Wakeup} {segment : Segment}
    (hsettles : Settles now order base deadline shared why segment)
    (hlook : why ≠ .woken → shared.updated ∨ Unconfirmed order.goal shared)
    (hlate : why ≠ .woken → deadline ≤ now → Unconfirmed order.goal shared) :
    Looked segment.shared segment.pc ∧
      ∀ message, segment.pc = .ended (.raised (.unverified message none)) →
        Unconfirmed order.goal shared := by
  cases hsettles with
  | confirms => exact ⟨trivial, by simp [Segment.returns]⟩
  | waits hlt h =>
      refine ⟨?_, by simp⟩
      rcases h with ⟨-, -, hunconfirmed⟩ | ⟨hwhy, rfl⟩
      · exact .inr hunconfirmed
      · exact hlook hwhy
  | givesUp hle h =>
      refine ⟨trivial, fun _ _ => ?_⟩
      rcases h with ⟨-, -, hunconfirmed⟩ | ⟨hwhy, -⟩
      · exact hunconfirmed
      · exact hlate hwhy hle
  | trips => exact ⟨trivial, by simp [Segment.raises]⟩

/-- Where a command gives up, it has looked at what is held: when it was told
of a reading it looks at it first, and otherwise there was nothing new. -/
theorem looked_of_runs {settleTimeout now : ℚ} {c : Command} {shared : Shared}
    {why : Option Wakeup} {segment : Segment} (htimeout : 0 < settleTimeout) (hsound : c.Sound)
    (hlooked : Looked shared c.pc)
    (hwait : ∀ order base deadline wait, why = some .timedOut →
      c.pc = .settling order base deadline wait → wait.woken → Unconfirmed order.goal shared)
    (hruns : Runs settleTimeout now c shared why segment) :
    Looked segment.shared segment.pc ∧
      ∀ message, segment.pc = .ended (.raised (.unverified message none)) →
        ∃ goal, c.request.goal? = some goal ∧ Unconfirmed goal shared := by
  cases hruns with
  | decides hearly hdecides =>
      cases hdecides with
      | @declines e based he =>
          refine ⟨trivial, fun message hpc => ?_⟩
          obtain rfl : e = .unverified message none := by simpa using hpc
          simp [Raised.early] at he
      | pretends => exact ⟨trivial, by simp⟩
      | writes => exact ⟨.inr (unconfirmed_of_none rfl), by simp⟩
  | @awaits pc hpc hnone hearly =>
      have hwaits := hearly { due := now + settleTimeout }
      simp only [awaitState]
      cases hcase : pc { due := now + settleTimeout } <;> simp_all [Pc.early, Looked]
  | looks hpc =>
      refine ⟨hlooked.look hpc, fun message hended => ?_⟩
      rw [Pc.mapWait_eq_ended] at hended
      simp [hended, Pc.unlooked] at hpc
  | misses => exact ⟨trivial, by simp [Segment.raises]⟩
  | linkFails => exact ⟨trivial, by simp [Segment.raises]⟩
  | @returns order base delivered segment hpc hsettles =>
      have hlook : shared.updated ∨ Unconfirmed order.goal shared := by
        simpa [Looked, hpc] using hlooked
      -- the deadline of a settle loop that has just begun lies ahead
      obtain ⟨hnext, hgiveUp⟩ :=
        looked_of_settles hsettles (fun _ => hlook) fun _ hlate => by linarith
      exact ⟨hnext, fun message hend =>
        ⟨order.goal, (hsound.wrote_of_writing hpc).orders.goal_eq, hgiveUp message hend⟩⟩
  | @settles order base deadline wait why segment poked hpc hwhy hsettles =>
      have hlook : (if wait.looked then wait.woken else shared.updated) ∨
          Unconfirmed order.goal shared := by
        simpa [Looked, hpc] using hlooked
      have hunconfirmed (hne : why ≠ .woken) : Unconfirmed order.goal shared := by
        rcases hwhy with ⟨rfl, -⟩ | ⟨rfl, hpast, -⟩
        · exact absurd rfl hne
        · rw [if_pos hpast] at hlook
          exact hlook.elim (hwait order base deadline wait rfl hpc) id
      obtain ⟨hnext, hgiveUp⟩ :=
        looked_of_settles hsettles (fun hne => .inr (hunconfirmed hne))
          fun hne _ => hunconfirmed hne
      exact ⟨hnext, fun message hend =>
        ⟨order.goal, (hsound.wrote_of_settling hpc).orders.goal_eq, hgiveUp message hend⟩⟩

namespace System

variable {cfg : Config} {s s' : System}

/-- The wait of a command that was told of its confirmation does not time out,
and the event is not cleared while a command that it alone will tell has its
confirmation held. -/
structure KeepsTold (cfg : Config) (s : System) (a : Action) : Prop where
  wait : ∀ (j : ℕ) (c : Command) (order : Order) (base : Sample) (deadline : ℚ) (wait : Wait),
    a = .wake j .timedOut → s.commander.commands[j]? = some c →
    c.pc = .settling order base deadline wait → wait.woken →
    Unconfirmed order.goal s.commander.shared
  event : ∀ s', (machine cfg).step s a = some s' → s.commander.shared.updated →
    s'.commander.shared.updated = false →
    ∀ (j : ℕ) (c : Command) (goal : Goal), s'.commander.commands[j]? = some c →
      Relies c.pc = some goal → Unconfirmed goal s'.commander.shared

/-- Every command has looked or will be told, and those that gave up had looked. -/
structure Attentive (s : System) : Prop where
  looked : ∀ (j : ℕ) (c : Command), s.commander.commands[j]? = some c →
    Looked s.commander.shared c.pc
  justly : Each (JustlyGivesUp s.requestOf) s.trace

theorem attentive_initial : Attentive {} := ⟨by simp, each_nil _⟩

theorem Attentive.justly_mono (h : s.Attentive)
    (hrequests : ∀ i request, s.requestOf i = some request → s'.requestOf i = some request) :
    Each (JustlyGivesUp s'.requestOf) s.trace := by
  refine h.justly.imp fun e earlier hjustly => ?_
  unfold JustlyGivesUp at hjustly ⊢
  split at hjustly
  · obtain ⟨request, goal, hrequest, hrest⟩ := hjustly
    exact ⟨request, goal, hrequests _ request hrequest, hrest⟩
  · trivial

theorem Attentive.quiet {events : List Event} (h : s.Attentive)
    (hcommander : s'.commander = s.commander) (htrace : s'.trace = events ++ s.trace)
    (hevents : ∀ e ∈ events, e = .connected ∨ ∃ r, e = .reader r) : s'.Attentive where
  looked j c hc := by
    rw [hcommander] at hc ⊢
    exact h.looked j c hc
  justly := by
    have hrequests : s'.requestOf = s.requestOf := by
      funext j
      rw [requestOf, requestOf, hcommander]
    rw [htrace, hrequests]
    apply h.justly.append
    intro e he between _
    rcases hevents e he with rfl | ⟨r, rfl⟩ <;> trivial

theorem Attentive.onState (h : s.Attentive) (sample : Sample) : (s.onState sample).Attentive where
  looked j d hd := by
    obtain ⟨c, -, rfl⟩ := commands_onState hd
    exact Looked.wake c.pc sample
  justly := by
    rw [requestOf_onState]
    exact h.justly.cons trivial

theorem Attentive.takeIn (h : s.Attentive) (intake : Intake) : (s.takeIn intake).Attentive := by
  have h₁ : ((s.setLease { s.lease with reader := intake.reader }).emit
      (intake.events.map .reader)).Attentive := by
    refine h.quiet rfl rfl fun e he => ?_
    obtain ⟨r, -, rfl⟩ := List.mem_map.mp he
    exact .inr ⟨r, rfl⟩
  rw [System.takeIn]
  cases intake.published with
  | none => exact h₁
  | some sample => exact h₁.onState sample

theorem Attentive.enroll (h : s.Attentive) (request : Request) (dryRun : Bool)
    (calls : List ApiCall) : (s.enroll request dryRun calls).Attentive where
  looked j d hd := by
    rcases commands_enroll hd with hd | ⟨-, rfl⟩
    · exact h.looked j d hd
    · trivial
  justly := h.justly_mono fun _ _ hrequest => requestOf_enroll hrequest

theorem Attentive.run {i : ℕ} {c : Command} {why : Option Wakeup} {segment : Segment}
    (htimeout : 0 < cfg.settleTimeout) (hsound : c.Sound) (h : s.Attentive) (hwired : s.Wired)
    (haccounted : s.Accounted) (hc : s.commander.commands[i]? = some c)
    (hwait : ∀ order base deadline wait, why = some .timedOut →
      c.pc = .settling order base deadline wait → wait.woken →
      Unconfirmed order.goal s.commander.shared)
    (hevent : s.commander.shared.updated →
      (s.runCommand cfg i c segment).commander.shared.updated = false →
      ∀ (j : ℕ) (d : Command) (goal : Goal),
        (s.runCommand cfg i c segment).commander.commands[j]? = some d →
        Relies d.pc = some goal →
        Unconfirmed goal (s.runCommand cfg i c segment).commander.shared)
    (hruns : Runs cfg.settleTimeout s.now c s.commander.shared why segment) :
    (s.runCommand cfg i c segment).Attentive := by
  obtain ⟨hself, hgiveUp⟩ := looked_of_runs htimeout hsound (h.looked i c hc) hwait hruns
  constructor
  · intro j d hd
    have hshared : (s.runCommand cfg i c segment).commander.shared = segment.shared := by
      rw [commander_runCommand]
      rfl
    rw [hshared] at hevent ⊢
    rcases commands_runCommand hd with ⟨-, hold⟩ | ⟨-, rfl⟩
    · -- the segment may have cleared the event, but not under a confirmed command
      exact (h.looked j d hold).keep hruns.latest fun goal hgoal hset hclear =>
        hevent hset hclear j d goal hd hgoal
    · exact hself
  · rw [trace_runCommand, requestOf_runCommand hc]
    apply h.justly.append
    intro e he between hbetween
    obtain ⟨x, hx, rfl⟩ := List.mem_map.mp he
    unfold JustlyGivesUp
    split
    · rename_i heq
      obtain ⟨rfl, rfl⟩ : i = _ ∧ x = _ := by simpa using heq
      -- it has just looked, and what it looked at is what the history says is held
      have hended := hruns.ended hx
      obtain ⟨goal, hgoal, hunconfirmed⟩ := hgiveUp _ hended
      refine ⟨c.request, goal, by simp [requestOf, hc], hgoal, fun a ha => ?_⟩
      have hevents : ∀ e ∈ between, e.keepsHeld := by
        intro e he
        obtain ⟨y, hy, rfl⟩ := List.mem_map.mp (hbetween he)
        rcases hruns.writes_or_keeps with ⟨order, base, hwrites⟩ | ⟨-, hquiet⟩
        · obtain ⟨based, -, rfl⟩ := hwrites.shape
          simp at hended
        · cases y with
          | wrote payload => exact absurd hy (hquiet payload)
          | _ => rfl
      rw [held_append hevents, ← hwired.latest] at ha
      obtain ⟨chunk, data, -, hmade⟩ := haccounted.genuine a (haccounted.latest a ha)
      exact hunconfirmed a ha hmade.trustworthy
    · trivial

theorem Attentive.effect {a : Action} (htimeout : 0 < cfg.settleTimeout) (hs : s.Sound)
    (h : s.Attentive) (hwired : s.Wired) (haccounted : s.Accounted) (hok : s.KeepsTold cfg a)
    (hstep : (machine cfg).step s a = some s') (heffect : Effect cfg s a s') : s'.Attentive := by
  have hevent := hok.event s' hstep
  cases heffect with
  | passes => exact ⟨h.looked, h.justly⟩
  | links => exact ⟨h.looked, h.justly⟩
  | connects => exact h.quiet rfl rfl (by simp)
  | takesIn => exact h.takeIn _
  | rejects => exact ⟨h.looked, h.justly⟩
  | begins hcalls hruns =>
      exact (h.enroll _ _ _).run htimeout trivial (hwired.enroll _ _ _) (haccounted.enroll _ _ _)
        (enroll_getElem? s _ _ _) (by simp) hevent hruns
  | @wakes i c why segment hcommand hruns =>
      refine h.run htimeout (hs c (List.mem_of_getElem? hcommand)) hwired haccounted hcommand
        (fun order base deadline wait hwhy hpc hwoke => ?_) hevent hruns
      obtain rfl : why = .timedOut := Option.some.inj hwhy
      exact hok.wait i c order base deadline wait rfl hcommand hpc hwoke
  | delivers hcommand hpc =>
      constructor
      · intro j d hd
        rcases commands_reach hd with ⟨-, hd⟩ | ⟨-, rfl⟩
        · exact h.looked j d hd
        · have hlooked := h.looked _ _ hcommand
          rw [hpc] at hlooked
          exact hlooked
      · rw [requestOf_reach hcommand]
        exact h.justly.cons trivial

/-- In a run in which nobody's notice is taken away, a command gives up only
while nothing that is held confirms it. -/
theorem no_confirmation_lost (htimeout : 0 < cfg.settleTimeout) {actions : List Action}
    (hok : (machine cfg).Meets (KeepsTold cfg) {} actions)
    (hrun : (machine cfg).run {} actions = some s) : Each (JustlyGivesUp s.requestOf) s.trace := by
  have hfinal := invariant_of_effects (I := fun s => s.Attentive ∧ s.Wired ∧ s.Accounted)
    ⟨attentive_initial, wired_initial, accounted_initial⟩
    (fun s a s' hs ⟨h, hwired, haccounted⟩ hkeeps hstep heffect =>
      ⟨h.effect htimeout hs hwired haccounted hkeeps hstep heffect, hwired.effect heffect,
        haccounted.effect hs heffect⟩) hok hrun
  exact hfinal.2.1.justly

/-! ### A confirmation kept and a confirmation lost -/

/-- Enough for a step to take nobody's notice away, and evaluable. -/
def Calm (cfg : Config) (s : System) (a : Action) : Bool :=
  (match a with
    | .wake j .timedOut => s.commander.commands[j]?.all (!·.pc.woken)
    | _ => true) &&
  ((machine cfg).step s a).all fun s' =>
    !s.commander.shared.updated || s'.commander.shared.updated ||
      s'.commander.commands.all fun c =>
        (Relies c.pc).all fun goal => Unconfirmed goal s'.commander.shared

theorem keepsTold_of_calm {a : Action} (h : s.Calm cfg a) : s.KeepsTold cfg a := by
  obtain ⟨hwait, hevent⟩ := Bool.and_eq_true_iff.mp h
  constructor
  · rintro j c order base deadline wait rfl hc hpc hwoke
    simp [hc, hpc, Pc.woken, hwoke] at hwait
  · intro s' hstep hset hclear j c goal hc hgoal
    have hall : ∀ c ∈ s'.commander.commands, ∀ goal, Relies c.pc = some goal →
        Unconfirmed goal s'.commander.shared := by
      simpa [hstep, hset, hclear, Option.all_eq_true] using hevent
    exact hall c (List.mem_of_getElem? hc) goal hgoal

/-- A unit that goes on cooling is told to switch off. -/
def ignoredOff : List Action :=
  [.start, .link 0 .connected, .link 0 .subscribed, .notify coolPacket, .command .off false,
    .wake 0 .writeReturned, .wake 0 .looked, .notify coolPacket, .wake 0 .woken, .wake 0 .looked,
    .pass 11, .wake 0 .timedOut]

theorem no_confirmation_lost_ignoredOff :
    ∃ s, (machine {}).run {} ignoredOff = some s ∧ Each (JustlyGivesUp s.requestOf) s.trace := by
  have hany : ((machine {}).run {} ignoredOff).any fun _ => true := by decide +kernel
  obtain ⟨s, hrun, -⟩ := Machine.exists_of_run_any hany
  have hcalm : (machine {}).Meets (fun s a => s.Calm {} a) {} ignoredOff := by decide +kernel
  have htimeout : (0 : ℚ) < Config.settleTimeout {} := by norm_num
  exact ⟨s, hrun, no_confirmation_lost htimeout (hcalm.imp fun _ _ => keepsTold_of_calm) hrun⟩

/-- A wait times out only while the event is not set. -/
def TimesOutClear (s : System) : Action → Bool
  | .wake _ .timedOut => !s.commander.shared.updated
  | _ => true

/-- A status packet captured from a unit that heats. -/
def heatPacket : Bytes :=
  [0x01, 0x56, 0x1b, 0x01, 0x00, 0x1d, 0x28, 0x3f, 0x3f, 0x01, 0x13, 0x0c, 0x00, 0x2d, 0x50, 0x00,
    0x00, 0x2c, 0x00, 0x12, 0x01, 0x9a, 0x01, 0x10, 0xff, 0x00, 0x15, 0x34, 0x00, 0x00, 0xfb]

/-- The unit reports that it heats while the command to heat is inside its write
and the command to switch off waits; the latter looks first. -/
def clearedUnseen : List Action :=
  [.start, .link 0 .connected, .link 0 .subscribed, .notify coolPacket, .command .off false,
    .notify coolPacket, .command (.mode .heat) false, .wake 0 .writeReturned, .wake 0 .looked,
    .notify heatPacket, .wake 0 .woken, .wake 1 .writeReturned, .wake 1 .looked, .pass 11,
    .wake 1 .timedOut]

/-- Whether the last thing that happened is that command `i` gave up although
the unit had reported to heat, as it was told. -/
def gaveUpHeating (s : System) (i : ℕ) : Bool :=
  match s.trace with
  | .command j (.ended (.raised (.unverified _ none))) :: earlier =>
      i = j ∧ (s.requestOf i).bind Request.goal? = some (.mode .heat) ∧
        ((held earlier).any fun a => (Goal.mode .heat).satisfied a.state)
  | _ => false

/-- A command is reported unverified while the reading that confirms it is held. -/
theorem confirmation_can_be_lost :
    ¬∀ (cfg : Config) (actions : List Action) (s : System), 0 < cfg.settleTimeout →
      (machine cfg).Meets (fun s a => s.TimesOutClear a) {} actions →
      (machine cfg).run {} actions = some s → Each (JustlyGivesUp s.requestOf) s.trace := by
  intro h
  have hany : ((machine {}).run {} clearedUnseen).any (·.gaveUpHeating 1) := by decide +kernel
  obtain ⟨s, hrun, hgaveUp⟩ := Machine.exists_of_run_any hany
  have hclear : (machine {}).Meets (fun s a => s.TimesOutClear a) {} clearedUnseen := by
    decide +kernel
  have htimeout : (0 : ℚ) < Config.settleTimeout {} := by norm_num
  have heach := h {} clearedUnseen s htimeout hclear hrun
  rw [gaveUpHeating] at hgaveUp
  split at hgaveUp
  · rename_i htrace
    obtain ⟨rfl, hgoal, hheld⟩ := of_decide_eq_true hgaveUp
    obtain ⟨request, goal, hrequest, hgoal', hjust⟩ := heach [] _ _ htrace
    obtain rfl : goal = .mode .heat := by simpa [hrequest, hgoal'] using hgoal
    obtain ⟨a, ha, hsatisfied⟩ := (Option.any_eq_true _ _).mp hheld
    simp [hjust a ha] at hsatisfied
  · simp at hgaveUp

end System

end Bedjet.Api
