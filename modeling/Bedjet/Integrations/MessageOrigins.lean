import Bedjet.Api.Origins
import Bedjet.Integrations.MessageRuns

/-!
Where the commands of the bridge come from: from the messages on its command topics, each
of which makes at most the one call that it is dispatched to, and none of them in rehearsal.
-/

namespace Bedjet.Integrations.Messaging

open Python Protocol Device Service Asyncio Api

variable {cfg : Config} {config : MqttConfig} {decimal : Char → Option ℕ} {m m' : Messaging}
  {actions : List MessagingAction}

/-- What the service does of it: a message makes the call that it is dispatched to. -/
def part (decimal : Char → Option ℕ) : MessagingAction → Option Action
  | .service a => some a
  | .message topic payload span =>
      match dispatch decimal (commandName topic) (decodePayload payload) with
      | .error _ => none
      | .ok (.call request) => some (.call request false)
      | .ok (.yieldLink seconds) =>
          if seconds.isNonPositive then none else some (.yieldLink (finiteOr span seconds))
      | .ok .resumeLink => some .resume

theorem step_of_serve {handler : HandlerPc} {a : Action}
    (h : m.serve cfg config handler a = some m') :
    (System.machine cfg).step m.system a = some m'.system := by
  obtain ⟨s, hstep, rfl⟩ := Option.map_eq_some_iff.mp h
  simpa using hstep

/-- What a message is to the service: its call, or nothing. -/
theorem part_of_handle {topic : String} {payload : Bytes} {span : ℚ}
    (h : m.handle cfg config decimal (commandName topic) (decodePayload payload) span = some m') :
    match part decimal (.message topic payload span) with
    | some a => (System.machine cfg).step m.system a = some m'.system
    | none => m'.system = m.system := by
  rw [handle] at h
  cases hdispatch : dispatch decimal (commandName topic) (decodePayload payload) with
  | error exception =>
      obtain rfl : m.conclude config _ = m' := by simpa [hdispatch] using h
      simp [part, hdispatch]
  | ok dispatched =>
      simp only [hdispatch] at h
      simp only [part, hdispatch]
      cases dispatched with
      | call request => exact step_of_serve h
      | yieldLink seconds =>
          dsimp only at h
          split at h
          · rename_i hrefused
            obtain rfl := Option.some.inj h
            simp [hrefused]
          · rename_i hseconds
            split at h
            · simp at h
            · simpa [hseconds] using step_of_serve h
      | resumeLink =>
          obtain ⟨resumed, hresumed, rfl⟩ := Option.map_eq_some_iff.mp h
          simpa using step_of_serve hresumed

/-- A run of the message loop is one of the service. -/
theorem projects : (machine cfg config decimal).Projects (System.machine cfg) (fun _ => True)
    (·.system) (part decimal) := by
  have hpart (m : Messaging) (a : MessagingAction) (m' : Messaging)
      (hstep : (machine cfg config decimal).step m a = some m') :
      match part decimal a with
      | some b => (System.machine cfg).step m.system b = some m'.system
      | none => m'.system = m.system := by
    cases a with
    | service a => exact step_of_serve hstep
    | message topic payload span =>
        simp only [machine, step] at hstep
        split at hstep
        · have hhandle := part_of_handle hstep
          exact hhandle
        · simp at hstep
  constructor
  · intro m a m' b _ hstep hb
    simpa [hb] using hpart m a m' hstep
  · intro m a m' _ hstep hnone
    simpa [hnone] using hpart m a m' hstep

/-- The message asks for a command: what it is dispatched to comes to this. -/
def Asks (decimal : Char → Option ℕ) (a : MessagingAction) (request : Request) (dryRun : Bool) :
    Prop :=
  ∃ topic payload span asked description, a = .message topic payload span ∧
    dispatch decimal (commandName topic) (decodePayload payload) = .ok (.call asked) ∧
    asked.resolve = .ok ⟨request, description⟩ ∧ dryRun = false

/-- As long as nobody but the bridge calls the API: every command of a run was asked for by
a message of its own, in the order of the messages and in earnest; and it writes once at
most, what it orders, and nothing else is written. -/
theorem commands_come_from_messages
    (hown : ∀ a, .service a ∈ actions → a.isOwn)
    (hrun : (machine cfg config decimal).run {} actions = some m) :
    Accounts (Asks decimal) actions m.system := by
  have hservice := projects.run (fun _ _ _ _ _ => trivial) trivial hrun
  refine (System.accounts_of_run hservice).of_part ?_
  rintro (own | ⟨topic, payload, span⟩) hmem a request dryRun hpart hasks
  · -- what the service does of itself asks for nothing
    obtain rfl : own = a := Option.some.inj hpart
    have hnone := hown own hmem
    cases hasks <;> simp [Action.isOwn] at hnone
  · simp only [part] at hpart
    split at hpart
    · simp at hpart
    · rename_i asked hdispatch
      obtain rfl := Option.some.inj hpart
      cases hasks with
      | @call _ description hresolve =>
          exact ⟨topic, payload, span, asked, description, rfl, hdispatch, hresolve, rfl⟩
    · split at hpart
      · simp at hpart
      · obtain rfl := Option.some.inj hpart
        cases hasks
    · obtain rfl := Option.some.inj hpart
      cases hasks

/-- A fan speed is set by a message. -/
theorem commands_come_from_messages_fanSlow :
    ∃ m, (machine {} {} fun _ => none).run {} fanSlow = some m ∧
      writesOf 0 m.system.trace ≠ [] ∧ Accounts (Asks fun _ => none) fanSlow m.system := by
  have hany : ((machine {} {} fun _ => none).run {} fanSlow).any fun m =>
      decide (writesOf 0 m.system.trace ≠ []) := by
    decide +kernel
  obtain ⟨m, hrun, hwrites⟩ := Machine.exists_of_run_any hany
  have hown : ∀ a, .service a ∈ fanSlow → a.isOwn := by
    intro a ha
    simp only [fanSlow, List.mem_cons, MessagingAction.service.injEq, List.not_mem_nil,
      reduceCtorEq, false_or, or_false] at ha
    rcases ha with rfl | rfl | rfl | rfl | rfl <;> rfl
  exact ⟨m, hrun, of_decide_eq_true hwrites, commands_come_from_messages hown hrun⟩

end Bedjet.Integrations.Messaging
