import Bedjet.Cli.Daemons
import Bedjet.Cli.Discover
import Bedjet.Cli.Honesty

/-!
The subcommands, as the parser hands them on, and what each of them may do to a device:
none connects to a device that is not ours, and those that only read call no command.
-/

namespace Bedjet.Cli

open Asyncio Python Device Device.Registry Service Protocol

/-- It neither calls the commander, nor takes or gives back the link. -/
def Op.isHarmless : Op → Bool
  | .connect _ _ | .startSession _ _ _ _ | .command _ _ | .disconnect | .stopReader => false
  | _ => true

/-- What `build_parser` makes of an argument list. The modes to choose from are those
that are unlocked. -/
inductive Subcommand
  | discover (args : DiscoverArgs)
  | identify (args : IdentifyArgs)
  | watch (args : WatchArgs)
  | off (args : ControlArgs) (save : Option String)
  | fan (args : ControlArgs) (percent : ℤ)
  | mode (args : ControlArgs) (operand : CommandMode) (choice : operand ∈ unlockedModes)
  | temp (args : ControlArgs) (value : Double) (celsius : Bool)
  | serve (args : ServeArgs)
  | mqtt (args : MqttArgs)

namespace Subcommand

section

variable (file : RegistryFile) (target : String) (environ : String → Option String) (turns : ℕ)

/-- `args.func(args)`; the loop of `watch` is followed for so many turns. -/
def func : Subcommand → Command ℕ
  | discover args => cmdDiscover file target args
  | identify args => cmdIdentify file target args
  | watch args => cmdWatch args file target turns
  | off args save => cmdOff file target args save
  | fan args percent => cmdFan file target args percent
  | mode args operand _ => cmdMode file target args operand
  | temp args value celsius => cmdTemp file target args value celsius
  | serve args => cmdServe file target environ args
  | mqtt args => cmdMqtt file target environ args

/-- The device that is named on the command line, and whether `--force` is given. -/
def device : Subcommand → Option (String × Bool)
  | discover _ => none
  | identify args => some (args.address, args.force)
  | watch args => some (args.address, args.force)
  | off args _ | fan args _ | mode args _ _ | temp args _ _ => some (args.address, args.force)
  | serve args => some (args.address, args.force)
  | mqtt args => some (args.address, args.force)

/-- The commands that write, and whether they rehearse. -/
def writes : Subcommand → Option Bool
  | off args _ | fan args _ | mode args _ _ | temp args _ _ => some args.dryRun
  | _ => none

/-- What a subcommand may do: beyond printing, it needs a device that is owned, if it
takes any; it takes the one it is given; and it calls the commander only to write, or to
rehearse that. -/
structure Permits (sub : Subcommand) (op : Op) : Prop where
  owned : ∀ address force, sub.device = some (address, force) → op.isPrint = false →
    Owned file address force
  device : ∀ address, op.takes = some address → ∃ force, sub.device = some (address, force)
  command : ∀ request dryRun, op = .command request dryRun → sub.writes = some dryRun

end

section

variable {file : RegistryFile} {target : String} {environ : String → Option String} {turns : ℕ}
  {sub : Subcommand} {address : String} {force : Bool}

theorem permits_harmless {op : Op} (hop : op.isHarmless)
    (howned : ∀ address force, sub.device = some (address, force) → op.isPrint = false →
      Owned file address force) : sub.Permits file op where
  owned := howned
  device a ha := by cases op <;> simp_all [Op.isHarmless, Op.takes]
  command request dryRun h := by simp [h, Op.isHarmless] at hop

theorem permits_print (text : String) : sub.Permits file (.print text) :=
  permits_harmless rfl fun _ _ _ hprint => absurd hprint (by simp [Op.isPrint])

/-! ### The commands that write -/

theorem harmless_of_talk {op : Op} (h : op.isTalk = true) : op.isHarmless = true := by
  cases op <;> simp_all [Op.isTalk, Op.isHarmless]

section

variable {S : Op → Prop} {args : ControlArgs} {c : Control}
  (hharmless : ∀ op : Op, op.isHarmless → S op) (hcommand : S (.command c.request args.dryRun))

include hharmless hcommand

theorem asks_attempt : (attempt args c).Asks S := by
  have hprint (text : String) : (Command.print text).Asks S :=
    asks_print (fun _ => hharmless _ rfl) text
  refine Coroutine.Asks.bind (Coroutine.asks_ask (hharmless _ rfl)) fun _ => ?_
  refine Coroutine.Asks.bind (Coroutine.asks_ask (hharmless _ rfl)) fun before => ?_
  refine (hprint _).bind fun _ => ?_
  refine (asks_printAll (fun _ => hharmless _ rfl) _).bind fun _ => ?_
  cases hdry : args.dryRun with
  | true =>
      rw [hdry] at hcommand
      exact Coroutine.Asks.bind (Coroutine.asks_ask hcommand) fun result =>
        (hprint _).bind fun _ => Coroutine.asks_ret _
  | false =>
      rw [hdry] at hcommand
      refine Coroutine.Asks.bind
        (asks_confirm.imp fun op hop => hharmless op (harmless_of_talk hop)) fun confirmed => ?_
      cases confirmed with
      | true =>
          exact Coroutine.Asks.bind (Coroutine.asks_ask hcommand) fun _ => Coroutine.asks_ret _
      | false => exact Coroutine.asks_ret _

theorem asks_handled : ((attempt args c).tryExcept (onError c)).Asks S := by
  refine (asks_attempt hharmless hcommand).tryExcept fun e clause hclause => ?_
  obtain ⟨text, code, rfl, -⟩ := onError_clause hclause
  exact (asks_print (fun _ => hharmless _ rfl) _).bind fun _ => Coroutine.asks_ret _

end

end

/-! ### All of them -/

section

variable {file : RegistryFile} {target : String} {environ : String → Option String} {turns : ℕ}
  {sub : Subcommand} {address : String} {force : Bool}

theorem permits_owned (hdevice : sub.device = some (address, force))
    (howned : Owned file address force) {op : Op}
    (htakes : ∀ a, op.takes = some a → a = address)
    (hcommand : ∀ request dryRun, op = .command request dryRun → sub.writes = some dryRun) :
    sub.Permits file op where
  owned address' force' hdevice' _ := by
    obtain ⟨rfl, rfl⟩ : address = address' ∧ force = force' := by simpa [hdevice] using hdevice'
    exact howned
  device address' htakes' := ⟨force, htakes address' htakes' ▸ hdevice⟩
  command := hcommand

theorem permits_harmless_owned (hdevice : sub.device = some (address, force))
    (howned : Owned file address force) {op : Op} (hop : op.isHarmless) :
    sub.Permits file op :=
  permits_owned hdevice howned (fun a ha => by cases op <;> simp_all [Op.isHarmless, Op.takes])
    fun request dryRun hcommand => by simp [hcommand, Op.isHarmless] at hop

theorem permits_connect (hdevice : sub.device = some (address, force))
    (howned : Owned file address force) (timeout : ℚ) :
    sub.Permits file (.connect address timeout) :=
  permits_owned hdevice howned (fun a ha => by simpa [Op.takes, eq_comm] using ha) (by simp)

theorem asks_permitted_giveBack (hdevice : sub.device = some (address, force))
    (howned : Owned file address force) : giveBack.Asks (sub.Permits file) :=
  asks_giveBack (permits_owned hdevice howned (by simp [Op.takes]) (by simp))
    (permits_owned hdevice howned (by simp [Op.takes]) (by simp)) permits_print

theorem asks_control {args : ControlArgs} {c : Control}
    (hdevice : sub.device = some (args.address, args.force))
    (hwrites : sub.writes = some args.dryRun) :
    (control file target args c).Asks (sub.Permits file) := by
  refine asks_checked permits_print fun howned => ?_
  have hharmless (op : Op) (hop : op.isHarmless) : sub.Permits file op :=
    permits_harmless_owned hdevice howned hop
  have hcommand : sub.Permits file (.command c.request args.dryRun) :=
    permits_owned hdevice howned (by simp [Op.takes]) fun request dryRun h => by
      rw [hwrites, (Op.command.inj h).2]
  refine Coroutine.Asks.bind (Coroutine.asks_ask (permits_connect hdevice howned _)) fun _ => ?_
  have hguarded := (asks_handled hharmless hcommand).tryFinally
    (asks_permitted_giveBack hdevice howned)
  refine hguarded.bind fun outcome => ?_
  cases outcome with
  | inl code => exact Coroutine.asks_ret _
  | inr result =>
      exact (asks_finish result).imp fun op hop => hharmless op (harmless_of_talk hop)

section

variable {S : Op → Prop} (hharmless : ∀ op : Op, op.isHarmless → S op)

include hharmless

theorem asks_texts (texts : List (Except Protocol.Encode.EncodeError String)) :
    (Command.printAll texts).Asks S :=
  asks_printAll (fun _ => hharmless _ rfl) texts

theorem asks_readName : readName.Asks S := by
  have hprint (text : String) : (Command.print text).Asks S :=
    asks_print (fun _ => hharmless _ rfl) text
  refine Coroutine.Asks.tryExcept ?_ fun e clause hclause => ?_
  · exact Coroutine.Asks.bind (Coroutine.asks_ask (hharmless _ rfl)) fun _ => hprint _
  · by_cases hexception : e.isException
    · simp only [hexception, if_true, Option.some.injEq] at hclause
      exact hclause ▸ hprint _
    · simp [hexception] at hclause

theorem asks_inspect (address : String) : (inspect address).Asks S := by
  have hprint (text : String) : (Command.print text).Asks S :=
    asks_print (fun _ => hharmless _ rfl) text
  refine (hprint _).bind fun _ => ?_
  refine Coroutine.Asks.bind (Coroutine.asks_ask (hharmless _ rfl)) fun layout => ?_
  exact (asks_texts hharmless _).bind fun _ => (asks_readName hharmless).bind fun _ => hprint _

omit hharmless in
theorem asks_untilInterrupted {d : Command Unit} (hd : d.Asks S) : (untilInterrupted d).Asks S := by
  refine hd.tryExcept fun e clause hclause => ?_
  by_cases hexception : e.isException
  · simp [hexception] at hclause
  · simp only [hexception, Bool.false_eq_true, if_false, Option.some.injEq] at hclause
    exact hclause ▸ Coroutine.asks_ret ()

omit hharmless in
theorem asks_watchLoop (hsleep : S (.sleep 1)) (deadline : Option Double) (turns elapsed : ℕ) :
    (watchLoop deadline turns elapsed).Asks S := by
  induction turns generalizing elapsed with
  | zero => exact Coroutine.asks_pending
  | succ turns ih =>
      rw [watchLoop]
      split
      · exact Coroutine.asks_ret ()
      · exact Coroutine.Asks.bind (Coroutine.asks_ask hsleep) fun _ => ih _

omit hharmless in
theorem asks_summarize (args : WatchArgs) (hsummary : S .summary) (hsave : ∀ data, S (.save data))
    (hprint : ∀ text, S (.print text)) : (summarize args).Asks S := by
  refine Coroutine.Asks.bind (Coroutine.asks_ask hsummary) fun s => ?_
  refine (asks_printAll hprint _).bind fun _ => ?_
  split
  · exact Coroutine.Asks.bind (Coroutine.asks_ask (hsave _)) fun _ => asks_printAll hprint _
  · exact Coroutine.asks_ret ()

theorem asks_waitAndRelease (daemon : Daemon) : (waitAndRelease daemon).Asks S :=
  (asks_untilInterrupted (Coroutine.asks_ask (hharmless _ rfl))).tryFinally
    (Coroutine.asks_ask (hharmless _ rfl))

omit hharmless in
theorem asks_importExtra {daemon : Daemon} (himport : S (.importExtra daemon))
    (hprint : ∀ text, S (.print text)) (refusal : String → String) :
    (importExtra daemon refusal).Asks S := by
  refine Coroutine.Asks.tryExcept ?_ fun e clause hclause => ?_
  · exact Coroutine.Asks.bind (Coroutine.asks_ask himport) fun _ => Coroutine.asks_ret _
  · cases e with
    | importError message =>
        simp only [Option.some.injEq] at hclause
        subst hclause
        exact (asks_print hprint _).bind fun _ => Coroutine.asks_ret _
    | _ => simp at hclause

theorem asks_scanRounds {args : DiscoverArgs} {known : Dict String KnownDevice} {seen : Sightings}
    (left index : ℕ) : (scanRounds args known left index seen).Asks S := by
  induction left generalizing index seen with
  | zero => exact Coroutine.asks_ret _
  | succ left ih =>
      refine (asks_print (fun _ => hharmless _ rfl) _).bind fun _ => ?_
      refine Coroutine.Asks.bind (Coroutine.asks_ask (hharmless _ rfl)) fun devices => ?_
      refine (asks_texts hharmless _).bind fun _ => Coroutine.Asks.bind ?_ fun _ => ih _
      obtain hpause | hpause := pause_eq args index
      · rw [hpause]
        exact Coroutine.asks_ask (hharmless _ rfl)
      · rw [hpause]
        exact Coroutine.asks_ret ()

end

theorem asks_discover {args : DiscoverArgs} (hdevice : sub.device = none) :
    (cmdDiscover file target args).Asks (sub.Permits file) := by
  have hharmless (op : Op) (hop : op.isHarmless) : sub.Permits file op :=
    permits_harmless hop fun _ _ hdevice' => by simp [hdevice] at hdevice'
  unfold cmdDiscover
  split
  · exact Coroutine.asks_raise _
  · refine Coroutine.Asks.bind (asks_scanRounds hharmless _ _) fun seen => ?_
    unfold conclude
    split
    · exact (asks_texts hharmless _).bind fun _ => Coroutine.asks_ret _
    · exact (asks_texts hharmless _).bind fun _ => Coroutine.asks_ret _

theorem asks_identify {args : IdentifyArgs}
    (hdevice : sub.device = some (args.address, args.force)) :
    (cmdIdentify file target args).Asks (sub.Permits file) := by
  refine asks_checked permits_print fun howned => ?_
  have hharmless (op : Op) (hop : op.isHarmless) : sub.Permits file op :=
    permits_harmless_owned hdevice howned hop
  refine Coroutine.Asks.bind (Coroutine.asks_ask (permits_connect hdevice howned _)) fun _ => ?_
  have hdisconnect : sub.Permits file .disconnect :=
    permits_owned hdevice howned (by simp [Op.takes]) (by simp)
  exact ((asks_inspect hharmless _).tryFinally (Coroutine.asks_ask hdisconnect)).bind fun _ =>
    Coroutine.asks_ret _

theorem asks_watch {args : WatchArgs} (hdevice : sub.device = some (args.address, args.force)) :
    (cmdWatch args file target turns).Asks (sub.Permits file) := by
  refine asks_checked permits_print fun howned => ?_
  have hharmless (op : Op) (hop : op.isHarmless) : sub.Permits file op :=
    permits_harmless_owned hdevice howned hop
  refine Coroutine.Asks.bind (Coroutine.asks_ask (permits_connect hdevice howned _)) fun _ => ?_
  refine Coroutine.Asks.bind (Coroutine.asks_ask (hharmless _ rfl)) fun _ => ?_
  refine (asks_texts hharmless _).bind fun _ => ?_
  refine Coroutine.Asks.bind ?_ fun _ => Coroutine.Asks.bind ?_ fun _ => Coroutine.asks_ret _
  · exact (asks_untilInterrupted (asks_watchLoop (hharmless _ rfl) _ _ _)).tryFinally
      (asks_permitted_giveBack hdevice howned)
  · exact asks_summarize args (hharmless _ rfl) (fun _ => hharmless _ rfl) permits_print

theorem permits_startSession (hdevice : sub.device = some (address, force))
    (howned : Owned file address force) (timeout settle : ℚ) (poll : Option ℚ) :
    sub.Permits file (.startSession address timeout settle poll) :=
  permits_owned hdevice howned (fun a ha => by simpa [Op.takes, eq_comm] using ha) (by simp)

theorem asks_serve {args : ServeArgs} (hdevice : sub.device = some (args.address, args.force)) :
    (cmdServe file target environ args).Asks (sub.Permits file) := by
  refine asks_checked permits_print fun howned => ?_
  have hharmless (op : Op) (hop : op.isHarmless) : sub.Permits file op :=
    permits_harmless_owned hdevice howned hop
  refine (asks_importExtra (hharmless _ rfl) permits_print _).bind fun imported => ?_
  cases imported with
  | false => exact Coroutine.asks_ret _
  | true =>
      by_cases haccepted : (args.server environ).postInit = .ok ()
      · simp only [Bool.not_true, Bool.false_eq_true, if_false, dif_pos haccepted]
        refine Coroutine.Asks.bind (Coroutine.asks_ask (permits_startSession hdevice howned _ _ _))
          fun _ => ?_
        refine Coroutine.Asks.bind (Coroutine.asks_ask (hharmless _ rfl)) fun _ => ?_
        exact (asks_texts hharmless _).bind fun _ => (asks_waitAndRelease hharmless _).bind fun _ =>
          Coroutine.asks_ret _
      · simp only [Bool.not_true, Bool.false_eq_true, if_false, dif_neg haccepted]
        exact (asks_print permits_print _).bind fun _ => Coroutine.asks_ret _

theorem asks_mqtt {args : MqttArgs} (hdevice : sub.device = some (args.address, args.force)) :
    (cmdMqtt file target environ args).Asks (sub.Permits file) := by
  refine asks_checked permits_print fun howned => ?_
  have hharmless (op : Op) (hop : op.isHarmless) : sub.Permits file op :=
    permits_harmless_owned hdevice howned hop
  refine (asks_importExtra (hharmless _ rfl) permits_print _).bind fun imported => ?_
  cases imported with
  | false => exact Coroutine.asks_ret _
  | true =>
      refine Coroutine.Asks.bind (Coroutine.asks_ask (permits_startSession hdevice howned _ _ _))
        fun _ => ?_
      exact (asks_texts hharmless _).bind fun _ => (asks_waitAndRelease hharmless _).bind fun _ =>
        Coroutine.asks_ret _

/-- No subcommand connects to a device that is not ours, or to another one than it is
given; and only those that write call the commander, to rehearse if that is what was
asked for. -/
theorem subcommands_are_permitted (file : RegistryFile) (target : String)
    (environ : String → Option String) (turns : ℕ) (sub : Subcommand) :
    (main (sub.func file target environ turns)).Asks (sub.Permits file) := by
  refine Coroutine.Asks.tryExcept ?_ fun e clause hclause => ?_
  · cases sub with
    | discover args => exact asks_discover rfl
    | identify args => exact asks_identify rfl
    | watch args => exact asks_watch rfl
    | off args save => exact asks_control rfl rfl
    | fan args percent => exact asks_control rfl rfl
    | mode args operand choice => exact asks_control rfl rfl
    | temp args value celsius => exact asks_control rfl rfl
    | serve args => exact asks_serve rfl
    | mqtt args => exact asks_mqtt rfl
  · obtain ⟨code, rfl, -⟩ := exitCode_clause hclause
    exact Coroutine.asks_ret code

end

end Subcommand

end Bedjet.Cli
