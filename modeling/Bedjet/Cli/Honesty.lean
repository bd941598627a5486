import Bedjet.Cli.Control

/-!
The commands that write do what they say: they send once at most, and nothing in a
rehearsal or before the word was typed; they give the link back; and their exit codes
tell what was proved.
-/

namespace Bedjet.Cli

open Asyncio Python Device Device.Registry Service Protocol
open Protocol.Encode (EncodeError)

def Op.isCommand : Op → Bool
  | .command _ _ => true
  | _ => false

/-- The word of the command was typed. -/
def Typed (c : Control) (h : List Step) : Prop :=
  ∃ prompt text, ⟨.input prompt, .ok text⟩ ∈ h ∧ strip text = c.word.toList

/-- The commander is called once at most, with the request of the command: to rehearse
it if that is what was asked for, and otherwise after the word was typed or waived. -/
inductive Sends (args : ControlArgs) (c : Control) :
    List Step → Option (Except CliError CommandResult) → Prop
  | nothing {h : List Step} (hnone : ∀ e ∈ h, e.operation.isCommand = false) :
      Sends args c h none
  | once {h₁ h₂ : List Step} (r : Except CliError CommandResult)
      (hbefore : ∀ e ∈ h₁, e.operation.isCommand = false)
      (hafter : ∀ e ∈ h₂, e.operation.isCommand = false)
      (hconfirmed : args.dryRun ∨ args.yes ∨ Typed c h₁) :
      Sends args c (h₁ ++ ⟨.command c.request args.dryRun, r⟩ :: h₂) (some r)

namespace Sends

variable {args : ControlArgs} {c : Control} {h h' : List Step}
  {r : Option (Except CliError CommandResult)}

theorem before (hs : Sends args c h r) (hnone : ∀ e ∈ h', e.operation.isCommand = false) :
    Sends args c (h' ++ h) r := by
  cases hs with
  | nothing hnone' =>
      refine .nothing fun e he => ?_
      rcases List.mem_append.mp he with he | he
      · exact hnone e he
      · exact hnone' e he
  | once r hbefore hafter hconfirmed =>
      rw [← List.append_assoc]
      refine .once r (fun e he => ?_) hafter ?_
      · rcases List.mem_append.mp he with he | he
        · exact hnone e he
        · exact hbefore e he
      · refine hconfirmed.imp_right fun hword => hword.imp_right ?_
        rintro ⟨prompt, text, hmem, hstrip⟩
        exact ⟨prompt, text, List.mem_append_right _ hmem, hstrip⟩

theorem after (hs : Sends args c h r) (hnone : ∀ e ∈ h', e.operation.isCommand = false) :
    Sends args c (h ++ h') r := by
  cases hs with
  | nothing hnone' =>
      refine .nothing fun e he => ?_
      rcases List.mem_append.mp he with he | he
      · exact hnone' e he
      · exact hnone e he
  | once r hbefore hafter hconfirmed =>
      rw [List.append_assoc, List.cons_append]
      refine .once r hbefore (fun e he => ?_) hconfirmed
      rcases List.mem_append.mp he with he | he
      · exact hafter e he
      · exact hnone e he

end Sends

section

variable {file : RegistryFile} {target : String} {args : ControlArgs} {c : Control} {h : List Step}

/-- Neither a call of the commander nor an operation of the link. -/
def Op.isTalk : Op → Bool
  | .print _ | .input _ | .save _ => true
  | _ => false

theorem asks_confirm : (confirm args c).Asks (·.isTalk) := by
  unfold confirm
  split
  · exact Coroutine.asks_ret _
  · refine (asks_printAll (fun _ => rfl) _).bind fun _ => ?_
    refine Coroutine.Asks.bind (Coroutine.asks_ask rfl) fun text => ?_
    split
    · exact (asks_print (fun _ => rfl) _).bind fun _ => Coroutine.asks_ret _
    · exact Coroutine.asks_ret _

theorem asks_report (result : CommandResult) : (report c result).Asks (·.isTalk) := by
  have hprint (text : String) : (Command.print text).Asks (·.isTalk) :=
    asks_print (fun _ => rfl) text
  refine (hprint _).bind fun _ => (hprint _).bind fun _ => (hprint _).bind fun _ =>
    (hprint _).bind fun _ => (asks_printAll (fun _ => rfl) _).bind fun _ => ?_
  split
  · exact Coroutine.Asks.bind (Coroutine.asks_ask rfl) fun _ => hprint _
  · exact Coroutine.asks_ret _

theorem not_command_of_talk {op : Op} (h : op.isTalk = true) : op.isCommand = false := by
  cases op <;> simp_all [Op.isTalk, Op.isCommand]

/-- The word was typed, if it was asked for and the command goes on. -/
theorem typed_of_confirm (hruns : (confirm args c).Runs h (.returned true)) :
    args.yes ∨ Typed c h := by
  by_cases hyes : args.yes
  · exact .inl hyes
  · right
    rw [confirm, if_neg hyes] at hruns
    obtain ⟨_, h₁, h₂, -, hrest, rfl⟩ := hruns.of_bind_returned
    obtain ⟨text, h₃, h₄, hask, hanswer, rfl⟩ := hrest.of_bind_returned
    obtain rfl := hask.of_ask_returned
    by_cases hword : strip text = c.word.toList
    · exact ⟨_, text, List.mem_append_right _ List.mem_cons_self, hword⟩
    · rw [if_pos hword] at hanswer
      obtain ⟨_, h₅, h₆, -, hret, rfl⟩ := hanswer.of_bind_returned
      obtain ⟨-, hfalse⟩ := hret.of_ret_returned
      simp at hfalse

/-- How the `try` block is left tells whether the commander was called, and what it came
to. -/
def Settles (args : ControlArgs) (r : Option (Except CliError CommandResult)) :
    Progress CliError Attempt → Prop
  | .returned (.inl 0) => args.dryRun ∧ ∃ result, r = some (.ok result)
  | .returned (.inl code) => code = 1
  | .returned (.inr result) => args.dryRun = false ∧ r = some (.ok result)
  | _ => True

theorem not_command_of_asks {α : Type} {d : Command α} {o : Progress CliError α}
    (hd : d.Asks (·.isTalk)) (hruns : d.Runs h o) : ∀ e ∈ h, e.operation.isCommand = false :=
  fun e he => not_command_of_talk (hd h o hruns e he)

/-- A `try` block that sends as it should, and is left as it should. -/
def Sound (args : ControlArgs) (c : Control) (d : Command Attempt) : Prop :=
  ∀ h o, d.Runs h o → ∃ r, Sends args c h r ∧ Settles args r o

/-- What does not call the commander may come first. -/
theorem Sound.after {α : Type} {d : Command α} {f : α → Command Attempt}
    (hd : d.Asks (·.isCommand = false)) (hf : ∀ a, Sound args c (f a)) :
    Sound args c (d.bind f) := by
  intro h o hruns
  rcases hruns.of_bind with ⟨hfirst, rfl⟩ | ⟨e, hfirst, rfl⟩ | ⟨a, h₁, h₂, hfirst, hrest, rfl⟩
  · exact ⟨none, .nothing (hd h _ hfirst), trivial⟩
  · exact ⟨none, .nothing (hd h _ hfirst), trivial⟩
  · obtain ⟨r, hsends, hsettles⟩ := hf a h₂ o hrest
    exact ⟨r, hsends.before (hd h₁ _ hfirst), hsettles⟩

/-- The rehearsal. -/
theorem rehearse_sends (hdry : args.dryRun = true) {o : Progress CliError Attempt}
    (hruns : ((Command.ask (.command c.request true)).bind fun result =>
      (Command.print (c.rehearsed result)).bind fun _ => .ret (.inl 0)).Runs h o) :
    ∃ r, Sends args c h r ∧ Settles args r o := by
  have honce (r : Except CliError CommandResult) {h₂ : List Step}
      (hafter : ∀ e ∈ h₂, e.operation.isCommand = false) :
      Sends args c (⟨.command c.request true, r⟩ :: h₂) (some r) := by
    have hsends : Sends args c ([] ++ ⟨.command c.request args.dryRun, r⟩ :: h₂) (some r) :=
      .once r (by simp) hafter (.inl hdry)
    rwa [hdry] at hsends
  rcases hruns.of_bind with ⟨hask, rfl⟩ | ⟨e, hask, rfl⟩ | ⟨result, h₁, h₂, hask, hrest, rfl⟩
  · rcases hask.of_ask with ⟨rfl, -⟩ | ⟨result, rfl, -⟩ | ⟨e, rfl, -⟩
    · exact ⟨none, .nothing (by simp), trivial⟩
    · exact ⟨_, honce (.ok result) (by simp), trivial⟩
    · exact ⟨_, honce (.error e) (by simp), trivial⟩
  · rcases hask.of_ask with ⟨-, ho⟩ | ⟨result, -, ho | ho⟩ | ⟨e', rfl, -⟩
    · simp at ho
    · simp at ho
    · simp at ho
    · exact ⟨_, honce (.error e') (by simp), trivial⟩
  · obtain rfl := hask.of_ask_returned
    have hprint : ((Command.print (c.rehearsed result)).bind fun _ =>
        (.ret (.inl 0) : Command Attempt)).Asks (·.isTalk) :=
      (asks_print (fun _ => rfl) _).bind fun _ => Coroutine.asks_ret _
    refine ⟨_, honce (.ok result) (not_command_of_asks hprint hrest), ?_⟩
    cases o with
    | running => trivial
    | raised e => trivial
    | returned outcome =>
        obtain ⟨_, h₃, h₄, -, hret, rfl⟩ := hrest.of_bind_returned
        obtain ⟨rfl, rfl⟩ := hret.of_ret_returned
        exact ⟨hdry, result, rfl⟩

/-- The command itself. -/
theorem send_sends (hdry : args.dryRun = false) {o : Progress CliError Attempt}
    (hruns : ((confirm args c).bind fun confirmed =>
      if confirmed then
        (Command.ask (.command c.request false)).bind fun result => .ret (.inr result)
      else .ret (.inl 1)).Runs h o) :
    ∃ r, Sends args c h r ∧ Settles args r o := by
  have hquiet {h : List Step} {o : Progress CliError Bool} (hconfirm : (confirm args c).Runs h o) :
      Sends args c h none :=
    .nothing (not_command_of_asks asks_confirm hconfirm)
  rcases hruns.of_bind with ⟨hconfirm, rfl⟩ | ⟨e, hconfirm, rfl⟩ |
    ⟨confirmed, h₁, h₂, hconfirm, hrest, rfl⟩
  · exact ⟨none, hquiet hconfirm, trivial⟩
  · exact ⟨none, hquiet hconfirm, trivial⟩
  · cases confirmed with
    | false =>
        rw [if_neg Bool.false_ne_true] at hrest
        obtain ⟨rfl, rfl | rfl⟩ := hrest.of_ret
        · exact ⟨none, by simpa using hquiet hconfirm, trivial⟩
        · exact ⟨none, by simpa using hquiet hconfirm, rfl⟩
    | true =>
        rw [if_pos rfl] at hrest
        have hbefore := not_command_of_asks asks_confirm hconfirm
        have honce (r : Except CliError CommandResult) :
            Sends args c (h₁ ++ [⟨.command c.request false, r⟩]) (some r) := by
          have hsends : Sends args c (h₁ ++ [⟨.command c.request args.dryRun, r⟩]) (some r) :=
            .once r hbefore (by simp) (.inr (typed_of_confirm hconfirm))
          rwa [hdry] at hsends
        rcases hrest.of_bind with ⟨hask, rfl⟩ | ⟨e, hask, rfl⟩ | ⟨result, h₃, h₄, hask, hret, rfl⟩
        · rcases hask.of_ask with ⟨rfl, -⟩ | ⟨result, rfl, -⟩ | ⟨e, rfl, -⟩
          · exact ⟨none, by simpa using hquiet hconfirm, trivial⟩
          · exact ⟨_, honce (.ok result), trivial⟩
          · exact ⟨_, honce (.error e), trivial⟩
        · rcases hask.of_ask with ⟨-, ho⟩ | ⟨result, -, ho | ho⟩ | ⟨e', rfl, -⟩
          · simp at ho
          · simp at ho
          · simp at ho
          · exact ⟨_, honce (.error e'), trivial⟩
        · obtain rfl := hask.of_ask_returned
          obtain ⟨rfl, rfl | rfl⟩ := hret.of_ret
          · exact ⟨_, honce (.ok result), trivial⟩
          · exact ⟨_, honce (.ok result), hdry, rfl⟩

theorem attempt_sends {o : Progress CliError Attempt} (hruns : (attempt args c).Runs h o) :
    ∃ r, Sends args c h r ∧ Settles args r o := by
  have hprint (text : String) : (Command.print text).Asks (·.isCommand = false) :=
    asks_print (fun _ => rfl) text
  have hsound : Sound args c (attempt args c) := by
    refine Sound.after (Coroutine.asks_ask rfl) fun _ => ?_
    refine Sound.after (Coroutine.asks_ask rfl) fun before => ?_
    refine (Sound.after (hprint _) fun _ => ?_)
    refine Sound.after (asks_printAll (fun _ => rfl) _) fun _ => ?_
    cases hdry : args.dryRun with
    | true => exact fun h o hruns => rehearse_sends hdry hruns
    | false => exact fun h o hruns => send_sends hdry hruns
  exact hsound h o hruns

/-! ### The whole command -/

/-- An operation raised a `CommandUnverified`. -/
def Unverified (h : List Step) : Prop :=
  ∃ op message cause, ⟨op, .error (.command (.unverified message cause))⟩ ∈ h

/-- What an exit code tells. -/
def Tells (h : List Step) (r : Option (Except CliError CommandResult)) (code : ℕ) : Prop :=
  (code = 0 → ∃ result, r = some (.ok result)) ∧ (code = 2 → Unverified h)

/-- The `try` statement ends with an exit code that tells the truth, or with what the
device has proved. -/
def Concludes (h : List Step) (r : Option (Except CliError CommandResult)) :
    Progress CliError Attempt → Prop
  | .returned (.inl code) => Tells h r code
  | .returned (.inr result) => r = some (.ok result)
  | _ => True

theorem Unverified.append_right {h' : List Step} (hu : Unverified h) : Unverified (h ++ h') := by
  obtain ⟨op, message, cause, hmem⟩ := hu
  exact ⟨op, message, cause, List.mem_append_left _ hmem⟩

theorem Unverified.append_left {h' : List Step} (hu : Unverified h) : Unverified (h' ++ h) := by
  obtain ⟨op, message, cause, hmem⟩ := hu
  exact ⟨op, message, cause, List.mem_append_right _ hmem⟩

theorem Concludes.append_right {r : Option (Except CliError CommandResult)}
    {o : Progress CliError Attempt} {h' : List Step} (hc : Concludes h r o) :
    Concludes (h ++ h') r o := by
  cases o with
  | returned outcome =>
      cases outcome with
      | inl code => exact ⟨hc.1, fun hcode => (hc.2 hcode).append_right⟩
      | inr result => exact hc
  | _ => trivial

/-- Of the exceptions that the `try` block raises itself, none is a `CommandUnverified`. -/
def OfItsOwn : CliError → Prop
  | .command (.unverified _ _) => False
  | _ => True

theorem throws_printAll (texts : List (Except EncodeError String)) :
    (Command.printAll texts).Throws OfItsOwn := by
  induction texts with
  | nil => exact Coroutine.throws_ret ()
  | cons text texts ih =>
      cases text with
      | ok text => exact Coroutine.Throws.bind (Coroutine.throws_ask _) fun _ => ih
      | error e => exact Coroutine.throws_raise trivial

theorem throws_confirm : (confirm args c).Throws OfItsOwn := by
  unfold confirm
  split
  · exact Coroutine.throws_ret _
  · refine (throws_printAll _).bind fun _ => ?_
    refine Coroutine.Throws.bind (Coroutine.throws_ask _) fun text => ?_
    split
    · exact Coroutine.Throws.bind (Coroutine.throws_ask _) fun _ => Coroutine.throws_ret _
    · exact Coroutine.throws_ret _

theorem throws_attempt : (attempt args c).Throws OfItsOwn := by
  refine Coroutine.Throws.bind (Coroutine.throws_ask _) fun _ => ?_
  refine Coroutine.Throws.bind (Coroutine.throws_ask _) fun before => ?_
  refine Coroutine.Throws.bind (Coroutine.throws_ask _) fun _ => ?_
  refine (throws_printAll _).bind fun _ => ?_
  split
  · refine Coroutine.Throws.bind (Coroutine.throws_ask _) fun result => ?_
    exact Coroutine.Throws.bind (Coroutine.throws_ask _) fun _ => Coroutine.throws_ret _
  · refine throws_confirm.bind fun confirmed => ?_
    split
    · exact Coroutine.Throws.bind (Coroutine.throws_ask _) fun _ => Coroutine.throws_ret _
    · exact Coroutine.throws_ret _

/-- An `except` clause prints, and ends with the code of its exception. -/
theorem onError_clause {e : CliError} {clause : Command Attempt} (he : onError c e = some clause) :
    ∃ text code, clause = (Command.print text).bind (fun _ => .ret (.inl code)) ∧
      (code = 1 ∨ code = 2 ∧ ¬OfItsOwn e) := by
  unfold onError at he
  split at he
  · obtain rfl := Option.some.inj he
    exact ⟨_, 1, rfl, .inl rfl⟩
  · obtain rfl := Option.some.inj he
    exact ⟨_, 1, rfl, .inl rfl⟩
  · split at he
    · obtain rfl := Option.some.inj he
      exact ⟨_, 1, rfl, .inl rfl⟩
    · simp at he
  · obtain rfl := Option.some.inj he
    exact ⟨_, 2, rfl, .inr ⟨rfl, id⟩⟩
  · simp at he

theorem handled_sends {o : Progress CliError Attempt}
    (hruns : ((attempt args c).tryExcept (onError c)).Runs h o) :
    ∃ r, Sends args c h r ∧ Concludes h r o := by
  rcases hruns.of_tryExcept with ⟨hblock, -⟩ | ⟨e, clause, h₁, h₂, hblock, hclause, hrest, rfl⟩
  · obtain ⟨r, hsends, hsettles⟩ := attempt_sends hblock
    refine ⟨r, hsends, ?_⟩
    cases o with
    | returned outcome =>
        cases outcome with
        | inl code =>
            cases code with
            | zero => exact ⟨fun _ => hsettles.2, by simp⟩
            | succ code =>
                obtain rfl : code = 0 := by simpa [Settles] using hsettles
                exact ⟨by simp, by simp⟩
        | inr result => exact hsettles.2
    | _ => trivial
  · obtain ⟨r, hsends, -⟩ := attempt_sends hblock
    obtain ⟨text, code, rfl, hcode⟩ := onError_clause hclause
    have hquiet : ((Command.print text).bind fun _ =>
        (.ret (.inl code) : Command Attempt)).Asks (·.isTalk) :=
      (asks_print (fun _ => rfl) _).bind fun _ => Coroutine.asks_ret _
    refine ⟨r, hsends.after (not_command_of_asks hquiet hrest), ?_⟩
    cases o with
    | running => trivial
    | raised e => trivial
    | returned outcome =>
        obtain ⟨_, h₃, h₄, -, hret, rfl⟩ := hrest.of_bind_returned
        obtain ⟨rfl, rfl⟩ := hret.of_ret_returned
        refine ⟨?_, fun htwo => ?_⟩
        · rintro rfl
          simp at hcode
        · obtain hone | ⟨-, hnot⟩ := hcode
          · omega
          · rcases throws_attempt h₁ e hblock with ⟨op, hmem⟩ | hown
            · cases e with
              | command e =>
                  cases e with
                  | unverified message cause =>
                      exact ⟨op, message, cause, List.mem_append_left _ hmem⟩
                  | _ => exact absurd trivial hnot
              | _ => exact absurd trivial hnot
            · exact absurd hown hnot

theorem asks_giveBack {S : Op → Prop} (hstop : S .stopReader) (hdisconnect : S .disconnect)
    (hprint : ∀ text, S (.print text)) : giveBack.Asks S :=
  Coroutine.Asks.bind (Coroutine.asks_ask hstop) fun _ =>
    Coroutine.Asks.bind (Coroutine.asks_ask hdisconnect) fun _ => asks_print hprint _

theorem guarded_sends {o : Progress CliError Attempt}
    (hruns : (((attempt args c).tryExcept (onError c)).tryFinally giveBack).Runs h o) :
    ∃ r, Sends args c h r ∧ Concludes h r o := by
  rcases hruns.of_tryFinally with ⟨hblock, rfl⟩ |
    ⟨o₁, o₂, h₁, h₂, hblock, -, hfinal, rfl, rfl⟩
  · obtain ⟨r, hsends, -⟩ := handled_sends hblock
    exact ⟨r, hsends, trivial⟩
  · obtain ⟨r, hsends, hconcludes⟩ := handled_sends hblock
    have hquiet := asks_giveBack (S := (·.isCommand = false)) rfl rfl (fun _ => rfl) h₂ _ hfinal
    refine ⟨r, hsends.after hquiet, ?_⟩
    cases o₂ with
    | returned _ => exact hconcludes.append_right
    | _ => trivial

theorem asks_finish (result : CommandResult) :
    ((report c result).bind fun _ => (.ret 0 : Command ℕ)).Asks (·.isTalk) :=
  (asks_report result).bind fun _ => Coroutine.asks_ret _

/-- What follows the connection. -/
theorem connected_sends {o : Progress CliError ℕ}
    (hruns : ((((attempt args c).tryExcept (onError c)).tryFinally giveBack).bind fun outcome =>
      match outcome with
      | .inl code => (.ret code : Command ℕ)
      | .inr result => (report c result).bind fun _ => .ret 0).Runs h o) :
    ∃ r, Sends args c h r ∧ ∀ code, o = .returned code → Tells h r code := by
  rcases hruns.of_bind with ⟨hguarded, rfl⟩ | ⟨e, hguarded, rfl⟩ |
    ⟨outcome, h₁, h₂, hguarded, hrest, rfl⟩
  · obtain ⟨r, hsends, -⟩ := guarded_sends hguarded
    exact ⟨r, hsends, by simp⟩
  · obtain ⟨r, hsends, -⟩ := guarded_sends hguarded
    exact ⟨r, hsends, by simp⟩
  · obtain ⟨r, hsends, hconcludes⟩ := guarded_sends hguarded
    cases outcome with
    | inl code =>
        obtain ⟨rfl, ho⟩ := hrest.of_ret
        rw [List.append_nil]
        refine ⟨r, hsends, fun code' hcode' => ?_⟩
        rw [hcode'] at ho
        obtain rfl : code' = code := by simpa using ho
        exact hconcludes
    | inr result =>
        refine ⟨r, hsends.after (not_command_of_asks (asks_finish result) hrest),
          fun code hcode => ?_⟩
        subst hcode
        obtain ⟨_, h₃, h₄, -, hret, rfl⟩ := hrest.of_bind_returned
        obtain ⟨rfl, rfl⟩ := hret.of_ret_returned
        exact ⟨fun _ => ⟨result, hconcludes⟩, by simp⟩

theorem control_sends {o : Progress CliError ℕ} (hruns : (control file target args c).Runs h o) :
    ∃ r, Sends args c h r ∧ ∀ code, o = .returned code → Tells h r code := by
  have hfirst {h : List Step} {o : Progress CliError Unit}
      (hcheck : (checkOwnership file target args.address args.force).Runs h o) :=
    asks_checkOwnership (S := (·.isCommand = false)) (fun _ => rfl) h o hcheck
  rcases hruns.of_bind with ⟨hcheck, rfl⟩ | ⟨e, hcheck, rfl⟩ | ⟨_, h₁, h₂, hcheck, hrest, rfl⟩
  · exact ⟨none, .nothing (hfirst hcheck), by simp⟩
  · exact ⟨none, .nothing (hfirst hcheck), by simp⟩
  · have hconnect := Coroutine.asks_ask (κ := Op.Answer) (ε := CliError)
      (S := (·.isCommand = false)) (i := .connect args.address args.timeout) rfl
    rcases hrest.of_bind with ⟨hask, rfl⟩ | ⟨e, hask, rfl⟩ | ⟨_, h₃, h₄, hask, hconnected, rfl⟩
    · exact ⟨none, Sends.before (.nothing (hconnect _ _ hask)) (hfirst hcheck), by simp⟩
    · exact ⟨none, Sends.before (.nothing (hconnect _ _ hask)) (hfirst hcheck), by simp⟩
    · obtain ⟨r, hsends, htells⟩ := connected_sends hconnected
      refine ⟨r, (hsends.before (hconnect _ _ hask)).before (hfirst hcheck), fun code ho => ?_⟩
      obtain ⟨hzero, htwo⟩ := htells code ho
      exact ⟨hzero, fun hcode => (htwo hcode).append_left.append_left⟩

/-- In every run of a command that writes: the commander is called once at most, with
its own request, and in earnest only after the word was typed or waived; the exit code
is 0 only if the call succeeded, and 2 only if something was reported as unverified. -/
theorem control_is_honest {o : Progress CliError ℕ}
    (hruns : (main (control file target args c)).Runs h o) :
    ∃ r, Sends args c h r ∧ ∀ code, o = .returned code → Tells h r code := by
  rcases hruns.of_tryExcept with ⟨hcontrol, -⟩ | ⟨e, clause, h₁, h₂, hcontrol, hclause, hrest, rfl⟩
  · exact control_sends hcontrol
  · obtain ⟨r, hsends, -⟩ := control_sends hcontrol
    obtain ⟨code', rfl, hfailed⟩ := exitCode_clause hclause
    obtain ⟨rfl, ho⟩ := hrest.of_ret
    rw [List.append_nil]
    refine ⟨r, hsends, fun code hcode => ?_⟩
    rw [hcode] at ho
    obtain rfl : code = code' := by simpa using ho
    exact ⟨fun hzero => by omega, fun htwo => by omega⟩

/-- `off` by force, rehearsed. -/
def offRehearsed : List Step × Progress CliError ℕ :=
  let sample : Sample := { state := {}, packet := { raw := [], header := [] }, chunk := 0 }
  let args : ControlArgs := { address := "AA:01", force := true, dryRun := true }
  (main (cmdOff .missing "devices.local.toml" args none)).play fun
    | .print _ | .connect _ _ | .startReader _ | .stopReader | .disconnect => .ok ()
    | .waitForState _ => .ok sample
    | .command _ _ => .ok { payload := Encode.turnOff, before := sample, after := sample }
    | _ => .error .cancelledError

theorem control_is_honest_offRehearsed :
    ∃ r, Sends { address := "AA:01", force := true, dryRun := true } (off none) offRehearsed.1 r ∧
      Tells offRehearsed.1 r 0 := by
  have hruns : (main (cmdOff .missing "devices.local.toml"
      { address := "AA:01", force := true, dryRun := true } none)).Runs offRehearsed.1
      (.returned 0) := Coroutine.runs_play _ _
  obtain ⟨r, hsends, htells⟩ := control_is_honest hruns
  exact ⟨r, hsends, htells 0 rfl⟩

end

end Bedjet.Cli
