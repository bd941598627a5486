import Bedjet.Cli.Subcommands

/-!
How the link is given back. A command that borrows it disconnects however it ends, unless
stopping the reader raises first; `watch` does so from its loop on, and not before. A
daemon comes to `_release` however its wait ends; what its closers then come to is not
told here.
-/

namespace Bedjet.Cli

open Asyncio Python Device Device.Registry Service

/-! ### Holding the link -/

/-- Whether the link is held after one more operation: a `disconnect` that raises has not
given it back. -/
def holds (held : Bool) : Step → Bool
  | ⟨.connect _ _, .ok _⟩ => true
  | ⟨.disconnect, .ok _⟩ => false
  | _ => held

/-- Whether it is held after all of them: some `connect` has returned, and no `disconnect`
since. -/
def held (h : List Step) : Bool :=
  h.foldl holds false

/-- `stop` of the reader has raised. -/
def StopFailed (h : List Step) : Prop :=
  ∃ e, ⟨.stopReader, .error e⟩ ∈ h

/-- `disconnect` has raised. -/
def DisconnectFailed (h : List Step) : Prop :=
  ∃ e, ⟨.disconnect, .error e⟩ ∈ h

/-- It has connected, and has never come to stopping the reader. -/
def Unguarded (h : List Step) : Prop :=
  (∃ address timeout, ⟨.connect address timeout, .ok ()⟩ ∈ h) ∧
    ∀ e ∈ h, e.operation ≠ .stopReader

def Op.leavesLink : Op → Bool
  | .connect _ _ | .disconnect | .stopReader => false
  | _ => true

/-- It has nothing to do with the link. -/
def Quiet (h : List Step) : Prop :=
  ∀ e ∈ h, e.operation.leavesLink

/-- In the end the link is held just if the reader could not be stopped, or the link not be
given back. -/
def EndsWell (before : Bool) (h : List Step) : Prop :=
  h.foldl holds before = true ↔ StopFailed h ∨ DisconnectFailed h

section

variable {α : Type} {h h₁ h₂ : List Step} {b : Bool}

theorem Quiet.foldl_holds (hquiet : Quiet h) (b : Bool) : h.foldl holds b = b := by
  induction h with
  | nil => rfl
  | cons e h ih =>
      obtain ⟨he, hrest⟩ := List.forall_mem_cons.mp hquiet
      have hsame : holds b e = b := by
        obtain ⟨op, r⟩ := e
        cases op <;> first | rfl | simp [Op.leavesLink] at he
      rw [List.foldl_cons, hsame, ih hrest]

theorem Quiet.ne_stopReader (hquiet : Quiet h) {e : Step} (he : e ∈ h) :
    e.operation ≠ .stopReader := by
  intro hop
  have hleaves := hquiet e he
  simp [hop, Op.leavesLink] at hleaves

theorem Quiet.not_failed (hquiet : Quiet h) : ¬(StopFailed h ∨ DisconnectFailed h) := by
  rintro (⟨e, he⟩ | ⟨e, he⟩) <;> simpa [Op.leavesLink] using hquiet _ he

theorem quiet_append : Quiet (h₁ ++ h₂) ↔ Quiet h₁ ∧ Quiet h₂ :=
  List.forall_mem_append

theorem stopFailed_append : StopFailed (h₁ ++ h₂) ↔ StopFailed h₁ ∨ StopFailed h₂ := by
  simp [StopFailed, exists_or]

theorem disconnectFailed_append :
    DisconnectFailed (h₁ ++ h₂) ↔ DisconnectFailed h₁ ∨ DisconnectFailed h₂ := by
  simp [DisconnectFailed, exists_or]

theorem failed_append : (StopFailed (h₁ ++ h₂) ∨ DisconnectFailed (h₁ ++ h₂)) ↔
    (StopFailed h₁ ∨ DisconnectFailed h₁) ∨ StopFailed h₂ ∨ DisconnectFailed h₂ := by
  rw [stopFailed_append, disconnectFailed_append, or_or_or_comm]

theorem Quiet.endsWell (hquiet : Quiet h) : EndsWell false h := by
  simp [EndsWell, hquiet.foldl_holds, hquiet.not_failed]

theorem EndsWell.before (hends : EndsWell b h₂) (hquiet : Quiet h₁) : EndsWell b (h₁ ++ h₂) := by
  rw [EndsWell, List.foldl_append, hquiet.foldl_holds, failed_append]
  simp only [hquiet.not_failed, false_or]
  exact hends

theorem EndsWell.after (hends : EndsWell b h₁) (hquiet : Quiet h₂) : EndsWell b (h₁ ++ h₂) := by
  rw [EndsWell, List.foldl_append, hquiet.foldl_holds, failed_append]
  simp only [hquiet.not_failed, or_false]
  exact hends

theorem EndsWell.connected (hends : EndsWell true h) (address : String) (timeout : ℚ) :
    EndsWell false (⟨.connect address timeout, .ok ()⟩ :: h) := by
  have hfailed : (StopFailed (⟨.connect address timeout, .ok ()⟩ :: h) ∨
      DisconnectFailed (⟨.connect address timeout, .ok ()⟩ :: h)) ↔
        StopFailed h ∨ DisconnectFailed h := by
    simp [StopFailed, DisconnectFailed]
  rw [EndsWell, hfailed]
  exact hends

/-! ### The `finally` clauses -/

theorem endsWell_disconnect (r : Except CliError Unit) : EndsWell true [⟨.disconnect, r⟩] := by
  cases r with
  | error e => exact iff_of_true rfl (.inr ⟨e, List.mem_singleton_self _⟩)
  | ok answer =>
      refine iff_of_false (by simp [holds]) ?_
      rintro (⟨e, he⟩ | ⟨e, he⟩) <;> cases List.mem_singleton.mp he

theorem giveBack_endsWell {o : Progress CliError Unit} (hruns : giveBack.Runs h o)
    (hover : o.finished) : EndsWell true h ∧ ∃ r, ⟨.stopReader, r⟩ ∈ h := by
  rcases hruns.of_bind with ⟨-, rfl⟩ | ⟨e, hstop, rfl⟩ | ⟨_, h₁, h₂, hstop, hrest, rfl⟩
  · simp [Progress.finished] at hover
  · rcases hstop.of_ask with ⟨-, ho⟩ | ⟨a, -, ho | ho⟩ | ⟨e', rfl, -⟩
    · simp at ho
    · simp at ho
    · simp at ho
    · exact ⟨by simp [EndsWell, holds, StopFailed, DisconnectFailed], _,
        List.mem_singleton_self _⟩
  · obtain rfl := hstop.of_ask_returned
    refine ⟨?_, _, List.mem_append_left _ (List.mem_singleton_self _)⟩
    have hstopped {h : List Step} (hends : EndsWell true h) :
        EndsWell true ([⟨.stopReader, .ok ()⟩] ++ h) := by
      rw [EndsWell, failed_append]
      simpa [EndsWell, holds, StopFailed, DisconnectFailed] using hends
    rcases hrest.of_bind_finished hover with
      ⟨e, hdisconnect, -⟩ | ⟨_, h₃, h₄, hdisconnect, hprint, rfl⟩
    · obtain ⟨r, rfl⟩ := hdisconnect.of_ask_finished rfl
      exact hstopped (endsWell_disconnect r)
    · obtain ⟨r, rfl⟩ := hdisconnect.of_ask_finished rfl
      have hquiet : Quiet h₄ :=
        asks_print (S := (·.leavesLink = true)) (fun _ => rfl) _ h₄ o hprint
      exact hstopped ((endsWell_disconnect r).after hquiet)

/-- A block that has nothing to do with the link, and gives it back. -/
theorem guarded_endsWell {d : Command α} {o : Progress CliError α}
    (hd : d.Asks (·.leavesLink = true))
    (hruns : (d.tryFinally giveBack).Runs h o) (hover : o.finished) :
    EndsWell true h ∧ ∃ r, ⟨.stopReader, r⟩ ∈ h := by
  obtain ⟨o₁, o₂, h₁, h₂, hblock, -, hfinal, hended, rfl⟩ := hruns.of_tryFinally_finished hover
  obtain ⟨hends, r, hmem⟩ := giveBack_endsWell hfinal hended
  exact ⟨hends.before (hd h₁ o₁ hblock), r, List.mem_append_right _ hmem⟩

/-! ### The commands that borrow the link -/

section

variable {file : RegistryFile} {target address : String} {force : Bool} {timeout : ℚ}
  {o : Progress CliError ℕ}

/-- What a command comes to that checks, connects, and goes on. -/
theorem runs_borrowing {k : Unit → Command ℕ}
    (hruns : ((checkOwnership file target address force).bind fun _ =>
      (Command.ask (.connect address timeout)).bind k).Runs h o) (hover : o.finished) :
    (Quiet h ∨ ∃ h' e, Quiet h' ∧ h = h' ++ [⟨.connect address timeout, .error e⟩]) ∨
      ∃ h₁ h₂, Quiet h₁ ∧ (k ()).Runs h₂ o ∧
        h = h₁ ++ ⟨.connect address timeout, .ok ()⟩ :: h₂ := by
  have hcheck {h : List Step} {o : Progress CliError Unit}
      (hruns : (checkOwnership file target address force).Runs h o) : Quiet h :=
    asks_checkOwnership (S := (·.leavesLink = true)) (fun _ => rfl) h o hruns
  rcases hruns.of_bind_finished hover with ⟨e, hfirst, -⟩ | ⟨_, h₁, h₂, hfirst, hrest, rfl⟩
  · exact .inl (.inl (hcheck hfirst))
  · have hquiet := hcheck hfirst
    rcases hrest.of_bind with ⟨-, rfl⟩ | ⟨e, hconnect, rfl⟩ | ⟨_, h₃, h₄, hconnect, hk, rfl⟩
    · simp [Progress.finished] at hover
    · rcases hconnect.of_ask with ⟨-, ho⟩ | ⟨a, -, ho | ho⟩ | ⟨e', rfl, -⟩
      · simp at ho
      · simp at ho
      · simp at ho
      · exact .inl (.inr ⟨h₁, e', hquiet, rfl⟩)
    · obtain rfl := hconnect.of_ask_returned
      exact .inr ⟨h₁, h₄, hquiet, hk, rfl⟩

theorem endsWell_connectFailed {h' : List Step} (hquiet : Quiet h') (e : CliError) :
    EndsWell false (h' ++ [⟨.connect address timeout, .error e⟩]) := by
  refine EndsWell.before ?_ hquiet
  simp [EndsWell, holds, StopFailed, DisconnectFailed]

/-- A command that connects, and does the rest where the link is given back. -/
theorem borrowing_endsWell {d : Command α} {rest : α → Command ℕ}
    (hd : ∀ h o, d.Runs h o → o.finished → EndsWell true h)
    (hrest : ∀ a, (rest a).Asks (·.leavesLink = true))
    (hruns : ((checkOwnership file target address force).bind fun _ =>
      (Command.ask (.connect address timeout)).bind fun _ => d.bind rest).Runs h o)
    (hover : o.finished) : EndsWell false h := by
  rcases runs_borrowing hruns hover with (hquiet | ⟨h', e, hquiet, rfl⟩) | ⟨h₁, h₂, hquiet, hk, rfl⟩
  · exact hquiet.endsWell
  · exact endsWell_connectFailed hquiet e
  · refine EndsWell.before (EndsWell.connected ?_ address timeout) hquiet
    rcases hk.of_bind_finished hover with ⟨e, hblock, -⟩ | ⟨a, h₃, h₄, hblock, hafter, rfl⟩
    · exact hd _ _ hblock rfl
    · exact (hd _ _ hblock rfl).after (hrest a h₄ o hafter)

theorem leavesLink_of_harmless (op : Op) (h : op.isHarmless = true) : op.leavesLink = true := by
  cases op <;> simp_all [Op.isHarmless, Op.leavesLink]

theorem control_endsWell {args : ControlArgs} {c : Control}
    (hruns : (control file target args c).Runs h o) (hover : o.finished) : EndsWell false h := by
  refine borrowing_endsWell ?_ (fun outcome => ?_) hruns hover
  · intro h o hblock hover
    have hhandled : ((attempt args c).tryExcept (onError c)).Asks (·.leavesLink) :=
      Subcommand.asks_handled leavesLink_of_harmless rfl
    exact (guarded_endsWell hhandled hblock hover).1
  · cases outcome with
    | inl code => exact Coroutine.asks_ret _
    | inr result =>
        exact (asks_finish result).imp fun op hop =>
          leavesLink_of_harmless op (Subcommand.harmless_of_talk hop)

theorem identify_endsWell {args : IdentifyArgs} (hruns : (cmdIdentify file target args).Runs h o)
    (hover : o.finished) : EndsWell false h := by
  refine borrowing_endsWell ?_ (fun _ => Coroutine.asks_ret _) hruns hover
  intro h o hblock hover
  obtain ⟨o₁, o₂, h₁, h₂, hinspect, -, hfinal, hended, rfl⟩ := hblock.of_tryFinally_finished hover
  obtain ⟨r, rfl⟩ := hfinal.of_ask_finished hended
  exact (endsWell_disconnect r).before
    (Subcommand.asks_inspect leavesLink_of_harmless args.address h₁ o₁ hinspect)

/-- What `watch` does when it has connected: it comes to its loop, or is left before. -/
theorem watch_connected {args : WatchArgs} {turns : ℕ}
    (hruns : ((Command.ask (.startReader (args.poll.map (·.val)))).bind fun _ =>
      (Command.printAll ((watchTexts args).map .ok)).bind fun _ =>
        (Coroutine.tryFinally (untilInterrupted (watchLoop args.deadline turns 0)) giveBack).bind
          fun _ => (summarize args).bind fun _ => .ret 0).Runs h o) (hover : o.finished) :
    Quiet h ∨ EndsWell true h ∧ ∃ r, ⟨.stopReader, r⟩ ∈ h := by
  have hstart := Coroutine.asks_ask (κ := Op.Answer) (ε := CliError) (S := (·.leavesLink = true))
    (i := .startReader (args.poll.map (·.val))) rfl
  have htexts := asks_printAll (S := (·.leavesLink = true)) (fun _ => rfl)
    ((watchTexts args).map .ok)
  have hloop := Subcommand.asks_untilInterrupted
    (Subcommand.asks_watchLoop (S := (·.leavesLink = true)) rfl args.deadline turns 0)
  rcases hruns.of_bind_finished hover with ⟨e, hfirst, -⟩ | ⟨_, h₁, h₂, hfirst, hruns₁, rfl⟩
  · exact .inl (hstart _ _ hfirst)
  rcases hruns₁.of_bind_finished hover with ⟨e, hprint, -⟩ | ⟨_, h₃, h₄, hprint, hruns₂, rfl⟩
  · exact .inl (quiet_append.mpr ⟨hstart _ _ hfirst, htexts _ _ hprint⟩)
  have hguarded {h : List Step} {o : Progress CliError Unit} (hruns :
      (Coroutine.tryFinally (untilInterrupted (watchLoop args.deadline turns 0)) giveBack).Runs h o)
      (hover : o.finished) := guarded_endsWell hloop hruns hover
  refine .inr ?_
  rcases hruns₂.of_bind_finished hover with ⟨e, hblock, -⟩ | ⟨_, h₅, h₆, hblock, hsummary, rfl⟩
  · obtain ⟨hends, r, hmem⟩ := hguarded hblock rfl
    refine ⟨(hends.before (htexts _ _ hprint)).before (hstart _ _ hfirst), r, ?_⟩
    exact List.mem_append_right _ (List.mem_append_right _ hmem)
  · obtain ⟨hends, r, hmem⟩ := hguarded hblock rfl
    have hasks : (summarize args).Asks (·.leavesLink = true) :=
      Subcommand.asks_summarize args rfl (fun _ => rfl) fun _ => rfl
    have hafter : Quiet h₆ := (hasks.bind fun _ => Coroutine.asks_ret 0) h₆ o hsummary
    refine ⟨((hends.after hafter).before (htexts _ _ hprint)).before (hstart _ _ hfirst), r, ?_⟩
    exact List.mem_append_right _ (List.mem_append_right _ (List.mem_append_left _ hmem))

/-- Beside where the reader cannot be stopped or the link not be given back, `watch` keeps
the link if it is left before its loop. -/
theorem watch_endsWell {args : WatchArgs} {turns : ℕ}
    (hruns : (cmdWatch args file target turns).Runs h o) (hover : o.finished) :
    held h = true ↔ StopFailed h ∨ DisconnectFailed h ∨ Unguarded h := by
  have hguarded {h : List Step} (hends : EndsWell false h) (hnone : ¬Unguarded h) :
      held h = true ↔ StopFailed h ∨ DisconnectFailed h ∨ Unguarded h := by
    simp only [hnone, or_false]
    exact hends
  rcases runs_borrowing hruns hover with (hquiet | ⟨h', e, hquiet, rfl⟩) | ⟨h₁, h₂, hquiet, hk, rfl⟩
  · refine hguarded hquiet.endsWell ?_
    rintro ⟨⟨address, timeout, hmem⟩, -⟩
    exact absurd (hquiet _ hmem) (by simp [Op.leavesLink])
  · refine hguarded (endsWell_connectFailed hquiet e) ?_
    rintro ⟨⟨address, timeout, hmem⟩, -⟩
    rcases List.mem_append.mp hmem with hmem | hmem
    · exact absurd (hquiet _ hmem) (by simp [Op.leavesLink])
    · cases List.mem_singleton.mp hmem
  · rcases watch_connected hk hover with hafter | ⟨hends, r, hmem⟩
    · have hheld : held (h₁ ++ ⟨.connect args.address args.timeout, .ok ()⟩ :: h₂) = true := by
        rw [held, List.foldl_append, List.foldl_cons, hquiet.foldl_holds]
        exact hafter.foldl_holds true
      have hmem : ⟨.connect args.address args.timeout, .ok ()⟩ ∈
          h₁ ++ ⟨.connect args.address args.timeout, .ok ()⟩ :: h₂ :=
        List.mem_append_right _ List.mem_cons_self
      refine iff_of_true hheld (.inr (.inr ⟨⟨_, _, hmem⟩, ?_⟩))
      intro e he
      rcases List.mem_append.mp he with he | he
      · exact hquiet.ne_stopReader he
      · rcases List.mem_cons.mp he with rfl | he
        · simp
        · exact hafter.ne_stopReader he
    · refine hguarded ((hends.connected _ _).before hquiet) ?_
      rintro ⟨-, hnever⟩
      exact hnever _ (List.mem_append_right _ (List.mem_cons_of_mem _ hmem)) rfl

end

/-! ### The daemons -/

def Op.isDaemonic : Op → Bool
  | .untilStopped _ | .release _ => true
  | _ => false

/-- It has come to its wait, which has ended. -/
def Waited (daemon : Daemon) (h : List Step) : Prop :=
  ∃ r, ⟨.untilStopped daemon, r⟩ ∈ h

/-- It has come to `_release`, whatever that came to: a closer may have raised, or the grace
period have run out. -/
def CameToRelease (daemon : Daemon) (h : List Step) : Prop :=
  ∃ r, ⟨.release daemon, r⟩ ∈ h

/-- Once it is over, it has waited and come to `_release`, or neither. -/
def Settled (daemon : Daemon) (c : Command α) : Prop :=
  ∀ h o, c.Runs h o → o.finished →
    (∀ e ∈ h, e.operation.isDaemonic = false) ∨ Waited daemon h ∧ CameToRelease daemon h

section

variable {β : Type} {daemon : Daemon} {c : Command α} {f : α → Command β}

theorem Settled.bind (hc : c.Asks (·.isDaemonic = false)) (hf : ∀ a, Settled daemon (f a)) :
    Settled daemon (c.bind f) := by
  intro h o hruns hover
  rcases hruns.of_bind_finished hover with ⟨e, hfirst, -⟩ | ⟨a, h₁, h₂, hfirst, hrest, rfl⟩
  · exact .inl (hc h _ hfirst)
  · rcases hf a h₂ o hrest hover with hnone | ⟨⟨r, hwaited⟩, r', hrelease⟩
    · exact .inl (List.forall_mem_append.mpr ⟨hc h₁ _ hfirst, hnone⟩)
    · exact .inr ⟨⟨r, List.mem_append_right _ hwaited⟩, r', List.mem_append_right _ hrelease⟩

theorem Settled.before (hc : Settled daemon c) (hf : ∀ a, (f a).Asks (·.isDaemonic = false)) :
    Settled daemon (c.bind f) := by
  intro h o hruns hover
  rcases hruns.of_bind_finished hover with ⟨e, hfirst, -⟩ | ⟨a, h₁, h₂, hfirst, hrest, rfl⟩
  · exact hc h _ hfirst rfl
  · rcases hc h₁ _ hfirst rfl with hnone | ⟨⟨r, hwaited⟩, r', hrelease⟩
    · exact .inl (List.forall_mem_append.mpr ⟨hnone, hf a h₂ o hrest⟩)
    · exact .inr ⟨⟨r, List.mem_append_left _ hwaited⟩, r', List.mem_append_left _ hrelease⟩

theorem settled_of_asks (hc : c.Asks (·.isDaemonic = false)) : Settled daemon c :=
  fun h o hruns _ => .inl (hc h o hruns)

theorem settled_waitAndRelease (daemon : Daemon) : Settled daemon (waitAndRelease daemon) := by
  intro h o hruns hover
  obtain ⟨o₁, o₂, h₁, h₂, hwait, hended, hrelease, hover', rfl⟩ :=
    hruns.of_tryFinally_finished hover
  obtain ⟨r', rfl⟩ := hrelease.of_ask_finished hover'
  have hwaited : Waited daemon h₁ := by
    rcases hwait.of_tryExcept with ⟨hask, -⟩ | ⟨e, clause, h₃, h₄, hask, -, -, rfl⟩
    · obtain ⟨r, rfl⟩ := hask.of_ask_finished hended
      exact ⟨r, List.mem_singleton_self _⟩
    · obtain ⟨r, rfl⟩ := hask.of_ask_finished rfl
      exact ⟨r, List.mem_append_left _ (List.mem_singleton_self _)⟩
  obtain ⟨r, hmem⟩ := hwaited
  exact .inr ⟨⟨r, List.mem_append_left _ hmem⟩, r',
    List.mem_append_right _ (List.mem_singleton_self _)⟩

theorem settled_checked {file : RegistryFile} {target address : String} {force : Bool}
    {refusal : String → String} {g : Bool → Command ℕ}
    (hg : ∀ imported, Settled daemon (g imported)) :
    Settled daemon ((checkOwnership file target address force).bind fun _ =>
      (importExtra daemon refusal).bind g) :=
  Settled.bind (asks_checkOwnership (S := (·.isDaemonic = false)) fun _ => rfl) fun _ =>
    Settled.bind (Subcommand.asks_importExtra (S := (·.isDaemonic = false)) rfl (fun _ => rfl) _) hg

/-- The end of a daemon. -/
theorem settled_waiting (daemon : Daemon) (texts : List String) :
    Settled daemon ((Command.printAll (texts.map .ok)).bind fun _ =>
      (waitAndRelease daemon).bind fun _ => (.ret 0 : Command ℕ)) :=
  Settled.bind (asks_printAll (S := (·.isDaemonic = false)) (fun _ => rfl) _) fun _ =>
    (settled_waitAndRelease daemon).before fun _ => Coroutine.asks_ret _

theorem settled_serve {file : RegistryFile} {target : String} {environ : String → Option String}
    {args : ServeArgs} : Settled .serve (cmdServe file target environ args) := by
  refine settled_checked fun imported => ?_
  cases imported with
  | false => exact settled_of_asks (Coroutine.asks_ret _)
  | true =>
      by_cases haccepted : (args.server environ).postInit = .ok ()
      · simp only [Bool.not_true, Bool.false_eq_true, if_false, dif_pos haccepted]
        exact Settled.bind (Coroutine.asks_ask rfl) fun _ =>
          Settled.bind (Coroutine.asks_ask rfl) fun _ => settled_waiting .serve _
      · simp only [Bool.not_true, Bool.false_eq_true, if_false, dif_neg haccepted]
        exact settled_of_asks ((asks_print (fun _ => rfl) _).bind fun _ => Coroutine.asks_ret _)

theorem settled_mqtt {file : RegistryFile} {target : String} {environ : String → Option String}
    {args : MqttArgs} : Settled .mqtt (cmdMqtt file target environ args) := by
  refine settled_checked fun imported => ?_
  cases imported with
  | false => exact settled_of_asks (Coroutine.asks_ret _)
  | true => exact Settled.bind (Coroutine.asks_ask rfl) fun _ => settled_waiting .mqtt _

end

/-! ### All of them -/

/-- What a subcommand owes the owner of the device, once it is over. -/
def Subcommand.GivesBack : Subcommand → List Step → Prop
  | .discover _, h => held h = false
  | .watch _, h => held h = true ↔ StopFailed h ∨ DisconnectFailed h ∨ Unguarded h
  | .serve _, h => Waited .serve h ↔ CameToRelease .serve h
  | .mqtt _, h => Waited .mqtt h ↔ CameToRelease .mqtt h
  -- they borrow the link from the connection on
  | .identify _, h | .off _ _, h | .fan _ _, h | .mode _ _ _, h | .temp _ _ _, h =>
      held h = true ↔ StopFailed h ∨ DisconnectFailed h

section

variable {file : RegistryFile} {target : String} {environ : String → Option String} {turns : ℕ}
  {daemon : Daemon} {o : Progress CliError ℕ}

theorem iff_of_settled {c : Command ℕ} (hc : Settled daemon c) (hruns : c.Runs h o)
    (hover : o.finished) : Waited daemon h ↔ CameToRelease daemon h := by
  rcases hc h o hruns hover with hnone | ⟨hwaited, hrelease⟩
  · refine iff_of_false ?_ ?_
    · rintro ⟨r, hmem⟩
      exact absurd (hnone _ hmem) (by simp [Op.isDaemonic])
    · rintro ⟨r, hmem⟩
      exact absurd (hnone _ hmem) (by simp [Op.isDaemonic])
  · exact iff_of_true hwaited hrelease

theorem discover_quiet {args : DiscoverArgs} (hruns : (cmdDiscover file target args).Runs h o) :
    Quiet h := by
  have hdiscover : (cmdDiscover file target args).Asks (·.leavesLink = true) := by
    unfold cmdDiscover
    split
    · exact Coroutine.asks_raise _
    · refine Coroutine.Asks.bind (Subcommand.asks_scanRounds leavesLink_of_harmless _ _)
        fun seen => ?_
      unfold conclude
      split
      · exact (asks_printAll (fun _ => rfl) _).bind fun _ => Coroutine.asks_ret _
      · exact (asks_printAll (fun _ => rfl) _).bind fun _ => Coroutine.asks_ret _
  exact hdiscover h o hruns

theorem func_givesBack {sub : Subcommand} (hruns : (sub.func file target environ turns).Runs h o)
    (hover : o.finished) : sub.GivesBack h := by
  cases sub with
  | discover args => exact (discover_quiet hruns).foldl_holds false
  | identify args => exact identify_endsWell hruns hover
  | watch args => exact watch_endsWell hruns hover
  | off args save => exact control_endsWell hruns hover
  | fan args percent => exact control_endsWell hruns hover
  | mode args operand choice => exact control_endsWell hruns hover
  | temp args value celsius => exact control_endsWell hruns hover
  | serve args => exact iff_of_settled settled_serve hruns hover
  | mqtt args => exact iff_of_settled settled_mqtt hruns hover

/-- Once a subcommand is over, a `disconnect` has given back the link that it borrowed, unless
stopping the reader or that `disconnect` raised, or `watch` was left before its loop; and a
daemon has come to `_release` if it came to its wait. -/
theorem link_is_given_back {sub : Subcommand}
    (hruns : (main (sub.func file target environ turns)).Runs h o) (hover : o.finished) :
    sub.GivesBack h := by
  rcases hruns.of_tryExcept with ⟨hfunc, -⟩ | ⟨e, clause, h₁, h₂, hfunc, hclause, hrest, rfl⟩
  · exact func_givesBack hfunc hover
  · obtain ⟨code, rfl, -⟩ := exitCode_clause hclause
    obtain ⟨rfl, -⟩ := hrest.of_ret
    rw [List.append_nil]
    exact func_givesBack hfunc rfl

/-- `watch` by force, interrupted in its loop. -/
def watchInterrupted : List Step × Progress CliError ℕ :=
  let sub : Subcommand := .watch { address := "AA:01", force := true }
  (main (sub.func .missing "devices.local.toml" (fun _ => none) 3)).play fun
    | .print _ | .connect _ _ | .startReader _ | .stopReader | .disconnect => .ok ()
    | .summary => .ok ⟨[], 0, 0, 0, 0, 0, 0, 0, 0, none⟩
    | .sleep _ => .error .keyboardInterrupt
    | _ => .error .cancelledError

theorem link_is_given_back_watchInterrupted :
    held watchInterrupted.1 = true ↔ StopFailed watchInterrupted.1 ∨
      DisconnectFailed watchInterrupted.1 ∨ Unguarded watchInterrupted.1 := by
  have hruns : (main (Subcommand.func .missing "devices.local.toml" (fun _ => none) 3
      (.watch { address := "AA:01", force := true }))).Runs watchInterrupted.1 watchInterrupted.2 :=
    Coroutine.runs_play _ _
  exact link_is_given_back hruns rfl

end

/-! ### The time box of `watch` -/

def Op.isSleep : Op → Bool
  | .sleep _ => true
  | _ => false

section

variable {seconds : ℚ} {turns elapsed : ℕ}

theorem isDue_finite : isDue elapsed (some (.finite seconds)) = true ↔ ⌈seconds⌉₊ ≤ elapsed := by
  rw [isDue, decide_eq_true_iff, Nat.ceil_le]

/-- Each turn of the loop is one second of those that are left. -/
theorem watchLoop_sleeps (turns elapsed : ℕ) :
    (watchLoop (some (.finite seconds)) turns elapsed).AwaitsAtMost (·.isSleep)
      (⌈seconds⌉₊ - elapsed) := by
  induction turns generalizing elapsed with
  | zero => exact (Coroutine.awaitsAtMost_of_asks Coroutine.asks_pending).mono (Nat.zero_le _)
  | succ turns ih =>
      rw [watchLoop]
      by_cases hdue : isDue elapsed (some (.finite seconds))
      · rw [if_pos hdue]
        exact (Coroutine.awaitsAtMost_of_asks (Coroutine.asks_ret ())).mono (Nat.zero_le _)
      · rw [if_neg hdue]
        rw [isDue_finite, not_le] at hdue
        exact ((Coroutine.awaitsAtMost_ask _).bind fun _ => ih (elapsed + 1)).mono (by omega)

/-- Turns beyond those change nothing. -/
theorem watchLoop_enough (more : ℕ) (helapsed : elapsed ≤ ⌈seconds⌉₊)
    (henough : ⌈seconds⌉₊ < elapsed + turns) :
    watchLoop (some (.finite seconds)) (turns + more) elapsed =
      watchLoop (some (.finite seconds)) turns elapsed := by
  induction turns generalizing elapsed with
  | zero => omega
  | succ turns ih =>
      rw [Nat.add_right_comm, watchLoop, watchLoop]
      by_cases hdue : isDue elapsed (some (.finite seconds))
      · rw [if_pos hdue, if_pos hdue]
      · rw [if_neg hdue, if_neg hdue]
        rw [isDue_finite, not_le] at hdue
        rw [ih (by omega) (by omega)]

section

variable {file : RegistryFile} {target : String} {args : WatchArgs} {o : Progress CliError ℕ}

theorem watch_sleeps_seconds :
    (main (cmdWatch args file target turns)).Asks fun op => op.isSleep → op = .sleep 1 := by
  have hprint (text : String) : Op.isSleep (.print text) → Op.print text = .sleep 1 := by
    simp [Op.isSleep]
  have hask {op : Op} (hop : op.isSleep = false) :
      (Command.ask op).Asks fun op => op.isSleep → op = .sleep 1 :=
    Coroutine.asks_ask (by simp [hop])
  refine Coroutine.Asks.tryExcept ?_ fun e clause hclause => ?_
  · refine (asks_checkOwnership hprint).bind fun _ => ?_
    refine Coroutine.Asks.bind (hask rfl) fun _ => ?_
    refine Coroutine.Asks.bind (hask rfl) fun _ => ?_
    refine (asks_printAll hprint _).bind fun _ => ?_
    have hloop := Subcommand.asks_untilInterrupted (Subcommand.asks_watchLoop
      (S := fun op => op.isSleep → op = .sleep 1) (fun _ => rfl) args.deadline turns 0)
    refine (hloop.tryFinally (asks_giveBack ?_ ?_ hprint)).bind fun _ => ?_
    · simp [Op.isSleep]
    · simp [Op.isSleep]
    · refine (Subcommand.asks_summarize args ?_ (fun _ => ?_) hprint).bind fun _ =>
        Coroutine.asks_ret _
      · simp [Op.isSleep]
      · simp [Op.isSleep]
  · obtain ⟨code, rfl, -⟩ := exitCode_clause hclause
    exact Coroutine.asks_ret code

/-- `watch` with a time limit sleeps a second at a time, for the limit rounded up to whole
seconds at most, and then its loop is over. -/
theorem watch_is_time_boxed (hseconds : args.seconds = .finite seconds) (hne : seconds ≠ 0)
    (hruns : (main (cmdWatch args file target turns)).Runs h o) :
    (∀ e ∈ h, e.operation.isSleep → e.operation = .sleep 1) ∧
      h.countP (·.operation.isSleep) ≤ ⌈seconds⌉₊ ∧
      (⌈seconds⌉₊ < turns → ∀ more,
        cmdWatch args file target (turns + more) = cmdWatch args file target turns) := by
  have hdeadline : args.deadline = some (.finite seconds) := by
    simp [WatchArgs.deadline, hseconds, hne]
  have hnone {β : Type} {c : Command β} (hc : c.Asks (·.isSleep = false)) :
      c.AwaitsAtMost (·.isSleep) 0 := Coroutine.awaitsAtMost_of_asks hc
  have hprint (text : String) : Op.isSleep (.print text) = false := rfl
  have hloop : (watchLoop (some (.finite seconds)) turns 0).AwaitsAtMost _ _ :=
    watchLoop_sleeps turns 0
  have hinterrupted : (untilInterrupted (watchLoop (some (.finite seconds)) turns 0)).AwaitsAtMost
      (·.isSleep) (⌈seconds⌉₊ - 0 + 0) := by
    refine hloop.tryExcept fun e clause hclause => hnone ?_
    by_cases hexception : e.isException
    · simp [hexception] at hclause
    · simp only [hexception, Bool.false_eq_true, if_false, Option.some.injEq] at hclause
      exact hclause ▸ Coroutine.asks_ret ()
  refine ⟨?_, ?_, fun henough more => ?_⟩
  · exact fun e he => watch_sleeps_seconds h o hruns e he
  · have hwatch : (main (cmdWatch args file target turns)).AwaitsAtMost (·.isSleep)
        (0 + (0 + (0 + (0 + (⌈seconds⌉₊ - 0 + 0 + 0 + (0 + 0))))) + 0) := by
      refine Coroutine.AwaitsAtMost.tryExcept ?_ fun e clause hclause => ?_
      · refine (hnone (asks_checkOwnership hprint)).bind fun _ => ?_
        refine Coroutine.AwaitsAtMost.bind (hnone (Coroutine.asks_ask rfl)) fun _ => ?_
        refine Coroutine.AwaitsAtMost.bind (hnone (Coroutine.asks_ask rfl)) fun _ => ?_
        refine (hnone (asks_printAll hprint _)).bind fun _ => ?_
        rw [hdeadline]
        refine (hinterrupted.tryFinally (hnone (asks_giveBack rfl rfl hprint))).bind fun _ => ?_
        exact (hnone (Subcommand.asks_summarize args rfl (fun _ => rfl) hprint)).bind fun _ =>
          hnone (Coroutine.asks_ret _)
      · obtain ⟨code, rfl, -⟩ := exitCode_clause hclause
        exact hnone (Coroutine.asks_ret code)
    simpa using hwatch h o hruns
  · rw [cmdWatch, cmdWatch, hdeadline, watchLoop_enough more (Nat.zero_le _) (by omega)]

theorem watch_is_time_boxed_watchInterrupted :
    (∀ e ∈ watchInterrupted.1, e.operation.isSleep → e.operation = .sleep 1) ∧
      watchInterrupted.1.countP (·.operation.isSleep) ≤ ⌈(120 : ℚ)⌉₊ := by
  have hruns : (main (cmdWatch { address := "AA:01", force := true } .missing
      "devices.local.toml" 3)).Runs watchInterrupted.1 watchInterrupted.2 := Coroutine.runs_play _ _
  have hbox := watch_is_time_boxed rfl (by norm_num) hruns
  exact ⟨hbox.1, hbox.2.1⟩

end

end

end

end Bedjet.Cli
