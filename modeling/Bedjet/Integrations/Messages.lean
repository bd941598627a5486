import Bedjet.Api.Awaiting
import Bedjet.Integrations.Mqtt

/-!
The messages on the command topics, one handled after the other beside whatever
else happens to the service. Every message is to be answered by one result. What
keeps it from that are exceptions `_handle` does not catch: the conversion of an
infinity, and the failed assertion of a command whose reading another one
discarded.
-/

namespace Bedjet.Integrations

open Python Protocol Device Service Asyncio Api

/-- Where the message loop is. -/
inductive HandlerPc
  /-- between two messages -/
  | idle
  /-- in `_handle`, awaiting an API call -/
  | awaitsCall (name : String) (call : ℕ)
  /-- in `_handle`, awaiting `yield_link` -/
  | awaitsYield (name : String) (task : ℕ)
  /-- ended by an exception -/
  | raised (exception : MqttRaised)

/-- The service and the message loop, with what it received and published. -/
structure Messaging where
  system : System := {}
  handler : HandlerPc := .idle
  received : ℕ := 0
  published : List Publication := []

inductive MessagingAction
  | service (action : Action)
  /-- a message arrives; a yield of no finite duration ends when the environment
  likes, after the span given -/
  | message (topic : String) (payload : Bytes) (span : ℚ)

/-- The finite value, or the other one. -/
def finiteOr (span : ℚ) : Double → ℚ
  | .finite q => q
  | .nan | .inf _ => span

theorem positive_of_asked {seconds : Double} {span : ℚ} (hseconds : ¬seconds.isNonPositive)
    (hspan : ¬span ≤ 0) : 0 < finiteOr span seconds := by
  cases seconds with
  | finite q => simpa [Double.isNonPositive, finiteOr] using hseconds
  | nan | inf _ => exact not_le.mp hspan

namespace Messaging

section

variable (cfg : Config) (config : MqttConfig) (decimal : Char → Option ℕ) (m : Messaging)

/-- The end of `_handle`: publishing, which succeeds, or an exception. -/
def conclude : Except MqttRaised ResultBody → Messaging
  | .ok body =>
      { m with handler := .idle, published := resultPublication config body :: m.published }
  | .error exception => { m with handler := .raised exception }

/-- `_handle` goes on as soon as what it awaits has ended. -/
def settle : Messaging :=
  match m.handler with
  | .awaitsCall name i =>
      match m.system.calls[i]?.bind (·.answer) with
      | some answer => m.conclude config (report name answer)
      | none => m
  | .awaitsYield name t =>
      match m.system.lease.tasks[t]?.map LinkTask.pc with
      | some .returned => m.conclude config (.ok (.snapshot name (m.system.snapshot cfg)))
      | some .raised => m.conclude config (.error .cancelledError)
      | _ => m
  | .idle | .raised _ => m

/-- The service takes a step, with the message loop at this place. -/
def serve (handler : HandlerPc) (a : Action) : Option Messaging :=
  ((System.machine cfg).step m.system a).map fun system =>
    { m with system, handler }.settle cfg config

/-- `_handle`, up to its first suspension. -/
def handle (name payload : String) (span : ℚ) : Option Messaging :=
  match dispatch decimal name payload with
  | .error exception => some (m.conclude config (reportRaised name exception))
  | .ok (.call request) =>
      m.serve cfg config (.awaitsCall name m.system.calls.length) (.call request false)
  | .ok (.yieldLink seconds) =>
      if seconds.isNonPositive then
        some (m.conclude config (.ok (.error name "refused"
          "a yield needs a positive duration; zero would release nothing")))
      else if span ≤ 0 then none
      else m.serve cfg config (.awaitsYield name m.system.lease.tasks.length)
        (.yieldLink (finiteOr span seconds))
  | .ok .resumeLink =>
      (m.serve cfg config .idle .resume).map fun m =>
        m.conclude config (.ok (.snapshot name (m.system.snapshot cfg)))

def step : MessagingAction → Option Messaging
  | .service a => m.serve cfg config m.handler a
  | .message topic payload span =>
      match m.handler with
      | .idle =>
          { m with received := m.received + 1 }.handle cfg config decimal (commandName topic)
            (decodePayload payload) span
      | _ => none

end

/-- The message loop as a machine. -/
def machine (cfg : Config) (config : MqttConfig) (decimal : Char → Option ℕ) :
    Machine Messaging MessagingAction where
  step m a := m.step cfg config decimal a

/-- The message loop while no further message arrives. -/
def serving (cfg : Config) (config : MqttConfig) : Machine Messaging Action where
  step m a := m.serve cfg config m.handler a

/-- How many messages are being handled. -/
def pending (m : Messaging) : ℕ :=
  match m.handler with
  | .awaitsCall _ _ | .awaitsYield _ _ => 1
  | .idle | .raised _ => 0

/-- The loop goes on, and every message it is done with was answered by one
result that is not retained. -/
structure Answered (config : MqttConfig) (m : Messaging) : Prop where
  alive : ∀ exception, m.handler ≠ .raised exception
  once : m.published.length + m.pending = m.received
  plain : ∀ p ∈ m.published, p.topic = config.resultTopic ∧ p.retain = false

/-- Some steps of the service lead to where every message received was answered,
and the loop waits for the next one. -/
def Answerable (cfg : Config) (config : MqttConfig) (m : Messaging) : Prop :=
  ∃ actions m', (serving cfg config).run m actions = some m' ∧ m'.handler = .idle ∧
    m'.published.length = m.received

/-- The number in the payload leads to the conversion of an infinity: a fan
speed is converted as it is, a temperature doubled. -/
def overflows (decimal : Char → Option ℕ) (name payload : String) : Bool :=
  match parseFloat decimal payload with
  | some x =>
      name = "fan" && x.toInt = .error .overflow ||
        name = "temperature" && (x.lift (· * tempScale)).round = .error .overflow
  | none => false

/-- The command that the message being handled awaits. -/
def awaited (m : Messaging) : Option ℕ :=
  match m.handler with
  | .awaitsCall _ i => m.system.calls[i]?.bind (·.command)
  | .idle | .awaitsYield _ _ | .raised _ => none

/-- No infinity is converted, and no command discards the reading that the one
awaited has been told of and has not run since. -/
def Deliverable (cfg : Config) (decimal : Char → Option ℕ) (m : Messaging) :
    MessagingAction → Prop
  | .service a => ∀ j ∈ m.awaited, m.system.Spares cfg j a
  | .message topic payload _ =>
      overflows decimal (commandName topic) (decodePayload payload) = false

end Messaging

/-! ### Every answer can be reported -/

/-- `_handle` publishes this answer. -/
def Reportable (answer : ApiAnswer) : Prop :=
  ∀ name, ∃ body, report name answer = .ok body

theorem reportable_refused (detail : String) : Reportable (.refused detail) :=
  fun _ => ⟨_, rfl⟩

/-- All that the encoder raises is reported, but for one conversion. -/
theorem reportable_ofEncodeError {e : Encode.EncodeError} (h : e ≠ .conversion .overflow) :
    Reportable (ofEncodeError e) := by
  intro name
  cases e with
  | command message => exact ⟨_, rfl⟩
  | conversion error =>
      cases error with
      | overflow => exact absurd rfl h
      | value => exact ⟨_, rfl⟩

theorem snapFanPercent_ne_overflow {percent : ℤ} {e : Encode.EncodeError}
    (h : Encode.snapFanPercent percent = .error e) : e ≠ .conversion .overflow := by
  have hsnaps := Encode.percentSnaps percent
  rw [h] at hsnaps
  cases hsnaps <;> simp

/-- Encoding a target overflows only where doubling it does. -/
theorem snapTargetC_ne_overflow {target : Double} {e : Encode.EncodeError}
    (hdoubled : (target.lift (· * tempScale)).round ≠ .error .overflow)
    (h : Encode.snapTargetC target = .error e) : e ≠ .conversion .overflow := by
  have hsnaps := Encode.targetSnaps target
  rw [h] at hsnaps
  cases hsnaps with
  | misfits => simp
  | unconverted hround =>
      rintro ⟨rfl⟩
      exact hdoubled hround

/-- A command that ends in the taxonomy is reported. -/
theorem reportable_translate {ending : Ending} (h : Classified ending) (description : String)
    (dryRun : Bool) (before after : DeviceSnapshot) :
    Reportable (translate description dryRun before after ending) := by
  intro name
  cases ending with
  | returned result => exact ⟨_, rfl⟩
  | raised exception =>
      cases exception with
      | assertion => simp [Classified] at h
      | encode e =>
          cases e with
          | command message => exact ⟨_, rfl⟩
          | conversion => simp [Classified] at h
      | _ => exact ⟨_, rfl⟩

/-- A call that a message makes, and that the API refuses at once. -/
theorem reportable_of_dispatch {decimal : Char → Option ℕ} {name payload : String}
    {request : ApiRequest} {refusal : ApiAnswer}
    (hfinite : Messaging.overflows decimal name payload = false)
    (hdispatch : dispatch decimal name payload = .ok (.call request))
    (hresolve : request.resolve = .error refusal) : Reportable refusal := by
  unfold dispatch at hdispatch
  split at hdispatch
  case h_1 =>
    obtain rfl : _ = request := by simpa using hdispatch
    simp only [ApiRequest.resolve] at hresolve
    split at hresolve
    · obtain rfl := Except.error.inj hresolve
      exact reportable_refused _
    · split at hresolve
      · obtain rfl := Except.error.inj hresolve
        exact reportable_refused _
      · simp at hresolve
  case h_2 =>
    cases hnumber : parseFloat decimal payload with
    | none => simp [number, hnumber, bind, Except.bind] at hdispatch
    | some target =>
        obtain rfl : ApiRequest.setTemperature (some target) none = request := by
          simpa [number, hnumber, bind, Except.bind] using hdispatch
        have hdoubled : (target.lift (· * tempScale)).round ≠ .error .overflow := by
          simpa [Messaging.overflows, hnumber] using hfinite
        have htarget : resolveTarget target = .error refusal := hresolve
        rw [resolveTarget] at htarget
        split at htarget
        · rename_i e hsnap
          obtain rfl : ofEncodeError e = refusal := by simpa using htarget
          exact reportable_ofEncodeError (snapTargetC_ne_overflow hdoubled hsnap)
        · simp at htarget
  case h_3 =>
    cases hnumber : parseFloat decimal payload with
    | none => simp [number, hnumber, bind, Except.bind] at hdispatch
    | some value =>
        cases hint : value.toInt with
        | error e => simp [number, hnumber, hint, bind, Except.bind] at hdispatch
        | ok percent =>
            obtain rfl : ApiRequest.setFan percent = request := by
              simpa [number, hnumber, hint, bind, Except.bind] using hdispatch
            simp only [ApiRequest.resolve] at hresolve
            split at hresolve
            · rename_i e hsnap
              obtain rfl : ofEncodeError e = refusal := by simpa using hresolve
              exact reportable_ofEncodeError (snapFanPercent_ne_overflow hsnap)
            · simp at hresolve
  case h_4 =>
    cases hnumber : parseFloat decimal payload <;>
      simp [number, hnumber, bind, Except.bind] at hdispatch
  case h_5 => simp at hdispatch
  case h_6 => simp at hdispatch

/-- What keeps a message from its call is reported. -/
theorem reportRaised_of_dispatch {decimal : Char → Option ℕ} {name payload : String}
    {exception : MqttRaised} (hfinite : Messaging.overflows decimal name payload = false)
    (hdispatch : dispatch decimal name payload = .error exception) :
    ∃ body, reportRaised name exception = .ok body := by
  have hnumber {e : MqttRaised} (h : number decimal payload = .error e) :
      ∃ body, reportRaised name e = .ok body := by
    rw [number] at h
    split at h
    · simp at h
    · obtain rfl := Except.error.inj h
      exact ⟨_, rfl⟩
  unfold dispatch at hdispatch
  split at hdispatch
  case h_1 => simp at hdispatch
  case h_2 =>
    cases hvalue : number decimal payload with
    | ok value => simp [hvalue, bind, Except.bind] at hdispatch
    | error e =>
        obtain rfl : e = exception := by simpa [hvalue, bind, Except.bind] using hdispatch
        exact hnumber hvalue
  case h_3 =>
    cases hparse : parseFloat decimal payload with
    | none =>
        have hvalue : number decimal payload =
            .error (.valueError ("expected a number, got " ++ reprText payload)) := by
          rw [number, hparse]
        obtain rfl : _ = exception := by simpa [hvalue, bind, Except.bind] using hdispatch
        exact hnumber hvalue
    | some value =>
        cases hint : value.toInt with
        | ok percent => simp [number, hparse, hint, bind, Except.bind] at hdispatch
        | error e =>
            obtain rfl : ofConversionError e = exception := by
              simpa [number, hparse, hint, bind, Except.bind] using hdispatch
            cases e with
            | value => exact ⟨_, rfl⟩
            | overflow => simp [Messaging.overflows, hparse, hint] at hfinite
  case h_4 =>
    cases hvalue : number decimal payload with
    | ok value => simp [hvalue, bind, Except.bind] at hdispatch
    | error e =>
        obtain rfl : e = exception := by simpa [hvalue, bind, Except.bind] using hdispatch
        exact hnumber hvalue
  case h_5 => simp at hdispatch
  case h_6 =>
    obtain rfl := Except.error.inj hdispatch
    exact ⟨_, rfl⟩

end Bedjet.Integrations
