import Bedjet.Api.Waiting
import Bedjet.Integrations.Messages

/-!
Runs of the message loop. What `_handle` awaits it can report, whatever happens
to the service meanwhile; so a run in which no message leads to the conversion
of an infinity, and no command fails its assertion, answers every message.
-/

namespace Bedjet.Integrations

open Python Protocol Device Service Asyncio Api

namespace Messaging

variable {cfg : Config} {config : MqttConfig} {decimal : Char → Option ℕ} {m m' : Messaging}
  {s s' : System} {handler : HandlerPc}

/-- Whatever `_handle` awaits at this place, it can report. -/
def Awaits (s : System) : HandlerPc → Prop
  | .idle => True
  | .raised _ => False
  | .awaitsCall _ i => ∃ call, s.calls[i]? = some call ∧
      match call.command with
      | some j => s.Sure j ∧ s.Begun j
      | none => ∃ answer, call.answer = some answer ∧ Reportable answer
  | .awaitsYield _ t => Yields t s.lease.tasks ∧ Lease.Queues t s.lease

/-! ### Where `_handle` waits -/

def place : HandlerPc → Option Place
  | .awaitsCall _ i => some (.call i)
  | .awaitsYield _ t => some (.yield t)
  | .idle | .raised _ => none

/-- What `_handle` makes of the end of its wait. -/
def concluded (cfg : Config) (s : System) (name : String) : Outcome → Except MqttRaised ResultBody
  | .answered answer => report name answer
  | .yielded => .ok (.snapshot name (s.snapshot cfg))
  | .cancelled => .error .cancelledError

section

variable {spot : Place} {outcome : Outcome}

theorem awaits_iff (h : place handler = some spot) :
    Awaits s handler ↔ spot.Waits Reportable s := by
  cases handler with
  | idle | raised _ => simp [place] at h
  | awaitsCall name i =>
      obtain rfl := Option.some.inj h
      rfl
  | awaitsYield name t =>
      obtain rfl := Option.some.inj h
      rfl

theorem awaited_eq (h : place m.handler = some spot) : m.awaited = spot.awaited m.system := by
  cases hhandler : m.handler with
  | idle | raised _ => simp [place, hhandler] at h
  | awaitsCall name i =>
      obtain rfl : Place.call i = spot := by simpa [place, hhandler] using h
      simp [awaited, hhandler, Place.awaited]
  | awaitsYield name t =>
      obtain rfl : Place.yield t = spot := by simpa [place, hhandler] using h
      simp [awaited, hhandler, Place.awaited]

theorem settle_of_outcome (h : place m.handler = some spot)
    (houtcome : spot.outcome m.system = some outcome) :
    ∃ name, m.settle cfg config = m.conclude config (concluded cfg m.system name outcome) := by
  cases hhandler : m.handler with
  | idle | raised _ => simp [place, hhandler] at h
  | awaitsCall name i =>
      obtain rfl : Place.call i = spot := by simpa [place, hhandler] using h
      obtain ⟨answer, hanswer, rfl⟩ := Option.map_eq_some_iff.mp houtcome
      exact ⟨name, by simp [settle, hhandler, hanswer, concluded]⟩
  | awaitsYield name t =>
      obtain rfl : Place.yield t = spot := by simpa [place, hhandler] using h
      refine ⟨name, ?_⟩
      rw [Place.outcome] at houtcome
      split at houtcome
      · rename_i hpc
        obtain rfl := Option.some.inj houtcome
        simp only [settle, hhandler, hpc, concluded]
      · rename_i hpc
        obtain rfl := Option.some.inj houtcome
        simp only [settle, hhandler, hpc, concluded]
      · simp at houtcome

theorem settle_of_open (h : place m.handler = some spot) (hopen : spot.outcome m.system = none) :
    m.settle cfg config = m := by
  cases hhandler : m.handler with
  | idle | raised _ => simp [place, hhandler] at h
  | awaitsCall name i =>
      obtain rfl : Place.call i = spot := by simpa [place, hhandler] using h
      have hnone : m.system.calls[i]?.bind (·.answer) = none := by
        simpa [Place.outcome] using hopen
      simp only [settle, hhandler, hnone]
  | awaitsYield name t =>
      obtain rfl : Place.yield t = spot := by simpa [place, hhandler] using h
      rw [Place.outcome] at hopen
      split at hopen
      · simp at hopen
      · simp at hopen
      · rename_i hreturned hraised
        rw [settle, hhandler]
        dsimp only
        split
        · exact absurd ‹_› hreturned
        · exact absurd ‹_› hraised
        · rfl

end

/-- The loop stays where it is, or concludes. -/
theorem settle_cases (cfg : Config) (config : MqttConfig) (m : Messaging) :
    m.settle cfg config = m ∨ ∃ result, m.settle cfg config = m.conclude config result := by
  rw [settle]
  split
  · split
    · exact .inr ⟨_, rfl⟩
    · exact .inl rfl
  · split
    · exact .inr ⟨_, rfl⟩
    · exact .inr ⟨_, rfl⟩
    · exact .inl rfl
  · exact .inl rfl
  · exact .inl rfl

theorem Awaits.step (h : Awaits m.system m.handler) (hreach : System.Reachable cfg m.system)
    (hfilled : m.system.Filled) {a : Action} (hspares : ∀ j ∈ m.awaited, m.system.Spares cfg j a)
    (hstep : (System.machine cfg).step m.system a = some s') : Awaits s' m.handler := by
  cases hplace : place m.handler with
  | none =>
      cases hhandler : m.handler with
      | idle => trivial
      | raised exception => simp [hhandler, Awaits] at h
      | awaitsCall | awaitsYield => simp [hhandler, place] at hplace
  | some spot =>
      rw [awaited_eq hplace] at hspares
      exact (awaits_iff hplace).mpr
        (((awaits_iff hplace).mp h).step hreach hfilled hspares hstep)

theorem pending_of_place {spot : Place} (h : place m.handler = some spot) : m.pending = 1 := by
  cases hhandler : m.handler <;> simp_all [place, pending]

/-- The invariant of the message loop. -/
structure Healthy (cfg : Config) (config : MqttConfig) (m : Messaging) : Prop where
  reachable : System.Reachable cfg m.system
  filled : m.system.Filled
  awaits : Awaits m.system m.handler
  once : m.published.length + m.pending = m.received
  plain : ∀ p ∈ m.published, p.topic = config.resultTopic ∧ p.retain = false

theorem Healthy.answered (h : m.Healthy cfg config) : Answered config m where
  alive exception hraised := by
    have hawaits := h.awaits
    simp [hraised, Awaits] at hawaits
  once := h.once
  plain := h.plain

/-- What `_handle` concludes with is one result that is not retained. -/
theorem healthy_conclude (hreach : System.Reachable cfg m.system) (hfilled : m.system.Filled)
    (hplain : ∀ p ∈ m.published, p.topic = config.resultTopic ∧ p.retain = false)
    (honce : m.published.length + 1 = m.received) (body : ResultBody) :
    (m.conclude config (.ok body)).Healthy cfg config where
  reachable := hreach
  filled := hfilled
  awaits := trivial
  once := by simpa [conclude, pending] using honce
  plain p hp := by
    rcases List.mem_cons.mp hp with rfl | hp
    · exact ⟨rfl, rfl⟩
    · exact hplain p hp

/-- The end of a wait is reported. -/
theorem body_of_waits {spot : Place} {outcome : Outcome} (h : spot.Waits Reportable s)
    (htold : s.Told) (houtcome : spot.outcome s = some outcome) (name : String) :
    ∃ body, concluded cfg s name outcome = .ok body := by
  rcases h.ends htold houtcome with
    rfl | ⟨answer, rfl, hreportable⟩ | ⟨ending, description, dryRun, before, after, hending, rfl⟩
  · exact ⟨_, rfl⟩
  · exact hreportable name
  · exact reportable_translate hending description dryRun before after name

theorem Healthy.settle (h : m.Healthy cfg config) : (m.settle cfg config).Healthy cfg config := by
  cases hplace : place m.handler with
  | none =>
      have hstays : m.settle cfg config = m := by
        cases hhandler : m.handler with
        | idle | raised _ => simp only [Messaging.settle, hhandler]
        | awaitsCall | awaitsYield => simp [hhandler, place] at hplace
      rw [hstays]
      exact h
  | some spot =>
      cases houtcome : spot.outcome m.system with
      | none =>
          rw [settle_of_open hplace houtcome]
          exact h
      | some outcome =>
          obtain ⟨name, hsettle⟩ := settle_of_outcome hplace houtcome
          obtain ⟨body, hbody⟩ := body_of_waits ((awaits_iff hplace).mp h.awaits)
            h.reachable.told houtcome name
          rw [hsettle, hbody]
          apply healthy_conclude h.reachable h.filled h.plain
          have honce := h.once
          rwa [pending_of_place hplace] at honce

/-- A step of the service, with the message loop at a place it can go on from. -/
theorem healthy_serve (hreach : System.Reachable cfg m.system) (hfilled : m.system.Filled)
    (hplain : ∀ p ∈ m.published, p.topic = config.resultTopic ∧ p.retain = false)
    (honce : m.published.length + { m with handler }.pending = m.received) {a : Action}
    (hawaits : ∀ s', (System.machine cfg).step m.system a = some s' → Awaits s' handler)
    (hserve : m.serve cfg config handler a = some m') : m'.Healthy cfg config := by
  obtain ⟨s', hstep, rfl⟩ := Option.map_eq_some_iff.mp hserve
  apply Healthy.settle
  exact ⟨hreach.step hstep, System.filled_step hfilled hreach hstep, hawaits s' hstep, honce,
    hplain⟩

theorem healthy_handle (hreach : System.Reachable cfg m.system) (hfilled : m.system.Filled)
    (hplain : ∀ p ∈ m.published, p.topic = config.resultTopic ∧ p.retain = false)
    (honce : m.published.length + 1 = m.received) {name payload : String} {span : ℚ}
    (hfinite : overflows decimal name payload = false)
    (hstep : m.handle cfg config decimal name payload span = some m') :
    m'.Healthy cfg config := by
  rw [Messaging.handle] at hstep
  split at hstep
  · rename_i exception hdispatch
    obtain ⟨body, hbody⟩ := reportRaised_of_dispatch hfinite hdispatch
    rw [hbody] at hstep
    obtain rfl := Option.some.inj hstep
    exact healthy_conclude hreach hfilled hplain honce body
  · rename_i request hdispatch
    apply healthy_serve hreach hfilled hplain ?_ ?_ hstep
    · exact honce
    · intro s' hs
      show Place.Waits Reportable s' (.call m.system.calls.length)
      exact Place.waits_call hreach hfilled (fun _ _ => ⟨_, rfl⟩)
        (fun _ hresolve => reportable_of_dispatch hfinite hdispatch hresolve) hs
  · rename_i seconds hdispatch
    split at hstep
    · obtain rfl := Option.some.inj hstep
      exact healthy_conclude hreach hfilled hplain honce _
    · rename_i hseconds
      split at hstep
      · simp at hstep
      · rename_i hspan
        apply healthy_serve hreach hfilled hplain ?_ ?_ hstep
        · exact honce
        · intro s' hs
          show Place.Waits Reportable s' (.yield m.system.lease.tasks.length)
          exact Place.waits_yield (positive_of_asked hseconds hspan) hs
  · obtain ⟨m₁, hserve, rfl⟩ := Option.map_eq_some_iff.mp hstep
    obtain ⟨s', hs, rfl⟩ := Option.map_eq_some_iff.mp hserve
    -- there is nothing to await
    have hsettled : { m with system := s', handler := HandlerPc.idle }.settle cfg config =
        { m with system := s', handler := .idle } := rfl
    rw [hsettled]
    apply healthy_conclude
    · exact hreach.step hs
    · exact System.filled_step hfilled hreach hs
    · exact hplain
    · exact honce

theorem Healthy.step (h : m.Healthy cfg config) {a : MessagingAction}
    (hok : m.Deliverable cfg decimal a)
    (hstep : (machine cfg config decimal).step m a = some m') : m'.Healthy cfg config := by
  cases a with
  | service a =>
      exact healthy_serve h.reachable h.filled h.plain h.once
        (fun _ hs => h.awaits.step h.reachable h.filled hok hs) hstep
  | message topic payload span =>
      have hidle : m.handler = .idle := by
        cases hhandler : m.handler <;> simp_all [machine, Messaging.step]
      have hhandle : { m with received := m.received + 1 }.handle cfg config decimal
          (commandName topic) (decodePayload payload) span = some m' := by
        simpa [machine, Messaging.step, hidle] using hstep
      apply healthy_handle ?_ ?_ ?_ ?_ hok hhandle
      · exact h.reachable
      · exact h.filled
      · exact h.plain
      · have honce := h.once
        simp only [pending, hidle] at honce
        show m.published.length + 1 = m.received + 1
        omega

/-! ### Every message can be answered -/

/-- What is left until the message being handled is answered. -/
def left (cfg : Config) (m : Messaging) : ℕ :=
  match m.handler with
  | .awaitsCall _ _ =>
      1 + match m.awaited.bind (m.system.commander.commands[·]?) with
        | some c => c.pc.toEnd m.system.now
        | none => 0
  | .awaitsYield _ t => 1 + m.system.lease.toGo cfg t
  | .idle | .raised _ => 0

theorem left_of_place {spot : Place} (h : place m.handler = some spot) :
    m.left cfg = 1 + spot.left cfg m.system := by
  cases hhandler : m.handler with
  | idle | raised _ => simp [place, hhandler] at h
  | awaitsCall name i =>
      obtain rfl : Place.call i = spot := by simpa [place, hhandler] using h
      rw [left, awaited, hhandler]
      rfl
  | awaitsYield name t =>
      obtain rfl : Place.yield t = spot := by simpa [place, hhandler] using h
      simp only [left, hhandler, Place.left]

@[simp] theorem left_conclude (result : Except MqttRaised ResultBody) :
    (m.conclude config result).left cfg = 0 := by
  cases result <;> rfl

theorem left_settle_le : (m.settle cfg config).left cfg ≤ m.left cfg := by
  rcases settle_cases cfg config m with hsettle | ⟨result, hsettle⟩ <;> simp [hsettle]

@[simp] theorem received_settle : (m.settle cfg config).received = m.received := by
  rcases settle_cases cfg config m with hsettle | ⟨result, hsettle⟩
  · rw [hsettle]
  · rw [hsettle]
    cases result <;> rfl

/-- A step of the service after which less is left. -/
theorem Healthy.serves (h : m.Healthy cfg config) {a : Action}
    (hspares : ∀ j ∈ m.awaited, m.system.Spares cfg j a)
    (hstep : (System.machine cfg).step m.system a = some s')
    (hless : ({ m with system := s' }.settle cfg config).left cfg < m.left cfg) :
    ∃ a m', (serving cfg config).step m a = some m' ∧
      (m'.Healthy cfg config ∧ m'.received = m.received) ∧ m'.left cfg < m.left cfg := by
  have hserve : m.serve cfg config m.handler a =
      some ({ m with system := s' }.settle cfg config) := by
    simp [serve, hstep]
  refine ⟨a, _, hserve, ⟨?_, received_settle⟩, hless⟩
  exact healthy_serve h.reachable h.filled h.plain h.once
    (fun _ hs => h.awaits.step h.reachable h.filled hspares hs) hserve

theorem Healthy.progress (h : m.Healthy cfg config) (hbusy : m.handler ≠ .idle) :
    ∃ a m', (serving cfg config).step m a = some m' ∧
      (m'.Healthy cfg config ∧ m'.received = m.received) ∧ m'.left cfg < m.left cfg := by
  have hawaits := h.awaits
  obtain ⟨spot, hplace⟩ : ∃ spot, place m.handler = some spot := by
    cases hhandler : m.handler with
    | idle => exact absurd hhandler hbusy
    | raised exception => simp [hhandler, Awaits] at hawaits
    | awaitsCall | awaitsYield => exact ⟨_, rfl⟩
  rw [awaits_iff hplace] at hawaits
  cases houtcome : spot.outcome m.system with
  | some outcome =>
      -- it goes on with whatever happens next
      apply h.serves (fun j _ => System.spares_pass _) (System.pass_step le_rfl)
      let m₁ : Messaging := { m with system := { m.system with now := m.system.now } }
      obtain ⟨name, hsettle⟩ : ∃ name, m₁.settle cfg config = m₁.conclude config _ :=
        settle_of_outcome (m := m₁) hplace houtcome
      show (m₁.settle cfg config).left cfg < m.left cfg
      rw [hsettle, left_conclude, left_of_place hplace]
      omega
  | none =>
      obtain ⟨a, s', hs, hspares, hless⟩ := hawaits.progress h.reachable houtcome
      apply h.serves ?_ hs ?_
      · rw [awaited_eq hplace]
        exact hspares
      · let m₁ : Messaging := { m with system := s' }
        refine left_settle_le.trans_lt ?_
        rw [left_of_place hplace, left_of_place (m := m₁) hplace]
        exact Nat.add_lt_add_left hless 1

theorem Healthy.answerable (h : m.Healthy cfg config) : m.Answerable cfg config := by
  obtain ⟨actions, m', hrun, ⟨hhealthy, hreceived⟩, hidle⟩ :=
    Machine.exists_run_of_variant (M := serving cfg config)
      (I := fun m' => m'.Healthy cfg config ∧ m'.received = m.received)
      (P := fun m' => m'.handler = .idle) (left cfg)
      (fun m₁ h₁ hbusy => by
        obtain ⟨a, m₂, hstep, ⟨hhealthy, hreceived⟩, hless⟩ := h₁.1.progress hbusy
        exact ⟨a, m₂, hstep, ⟨hhealthy, hreceived.trans h₁.2⟩, hless⟩) ⟨h, rfl⟩
  refine ⟨actions, m', hrun, hidle, ?_⟩
  have honce := hhealthy.once
  simp only [pending, hidle] at honce
  omega

/-! ### What leaves a message unanswered -/

@[simp] theorem system_conclude (result : Except MqttRaised ResultBody) :
    (m.conclude config result).system = m.system := by
  cases result <;> rfl

@[simp] theorem system_settle : (m.settle cfg config).system = m.system := by
  rcases settle_cases cfg config m with hsettle | ⟨result, hsettle⟩ <;> simp [hsettle]

theorem reachable_serve (h : System.Reachable cfg m.system) {a : Action}
    (hserve : m.serve cfg config handler a = some m') : System.Reachable cfg m'.system := by
  obtain ⟨s', hstep, rfl⟩ := Option.map_eq_some_iff.mp hserve
  rw [system_settle]
  exact h.step hstep

theorem reachable_handle (h : System.Reachable cfg m.system) {name payload : String} {span : ℚ}
    (hstep : m.handle cfg config decimal name payload span = some m') :
    System.Reachable cfg m'.system := by
  rw [handle] at hstep
  split at hstep
  · obtain rfl := Option.some.inj hstep
    rw [system_conclude]
    exact h
  · exact reachable_serve h hstep
  · split at hstep
    · obtain rfl := Option.some.inj hstep
      rw [system_conclude]
      exact h
    · split at hstep
      · simp at hstep
      · exact reachable_serve h hstep
  · obtain ⟨m₁, hserve, rfl⟩ := Option.map_eq_some_iff.mp hstep
    rw [system_conclude]
    exact reachable_serve h hserve

theorem reachable_step (h : System.Reachable cfg m.system) {a : MessagingAction}
    (hstep : (machine cfg config decimal).step m a = some m') :
    System.Reachable cfg m'.system := by
  cases a with
  | service a => exact reachable_serve h hstep
  | message topic payload span =>
      simp only [machine, Messaging.step] at hstep
      split at hstep
      · apply reachable_handle ?_ hstep
        exact h
      · simp at hstep

theorem resolveTarget_overflow {target : Double}
    (h : (target.lift (· * tempScale)).round = .error .overflow) :
    resolveTarget target = .error (.escaped (.encode (.conversion .overflow))) := by
  have hsnap : Encode.snapTargetC target = .error (.conversion .overflow) := by
    simp [Encode.snapTargetC, Encode.targetRaw, h, bind, Except.bind]
  rw [resolveTarget, hsnap]
  rfl

/-- The conversion of an infinity ends the message loop. -/
theorem raised_of_overflows {name payload : String} {span : ℚ}
    (h : overflows decimal name payload)
    (hstep : m.handle cfg config decimal name payload span = some m') :
    m'.handler = .raised .overflowError := by
  cases hparse : parseFloat decimal payload with
  | none => simp [overflows, hparse] at h
  | some value =>
      simp only [overflows, hparse, Bool.or_eq_true, Bool.and_eq_true, decide_eq_true_eq] at h
      rcases h with ⟨rfl, hint⟩ | ⟨rfl, hround⟩
      · have hdispatch : dispatch decimal "fan" payload = .error .overflowError := by
          simp [dispatch, number, hparse, hint, bind, Except.bind, ofConversionError]
        rw [handle, hdispatch] at hstep
        obtain rfl := Option.some.inj hstep
        rfl
      · have hdispatch : dispatch decimal "temperature" payload =
            .ok (.call (.setTemperature (some value) none)) := by
          simp [dispatch, number, hparse, bind, Except.bind]
        rw [handle, hdispatch] at hstep
        obtain ⟨s', hs, rfl⟩ := Option.map_eq_some_iff.mp hstep
        have hresolve : (ApiRequest.setTemperature (some value) none).resolve =
            .error (.escaped (.encode (.conversion .overflow))) := resolveTarget_overflow hround
        obtain rfl : m.system.beginCall cfg (.setTemperature (some value) none) false = s' := by
          simpa [System.machine, System.step] using hs
        simp [settle, System.beginCall, hresolve, report, ofEscaped, ofConversionError,
          reportRaised, conclude]

/-- Where a reading is discarded under the command awaited, and that command runs
next, its failed assertion ends the message loop. -/
theorem raised_of_discard {a : Action} {j : ℕ} (hreach : System.Reachable cfg m.system)
    (hj : j ∈ m.awaited) (hdiscards : ¬m.system.Spares cfg j a)
    (hstep : (machine cfg config decimal).step m (.service a) = some m') :
    j ∈ m'.awaited ∧
      ∃ m'', m'.step cfg config decimal (.service (.wake j .woken)) = some m'' ∧
        m''.handler = .raised .assertionError := by
  obtain ⟨s', hs, rfl⟩ := Option.map_eq_some_iff.mp hstep
  obtain ⟨spot, hplace⟩ : ∃ spot, place m.handler = some spot := by
    cases hhandler : m.handler with
    | idle | raised _ => simp [awaited, hhandler] at hj
    | awaitsCall | awaitsYield => exact ⟨_, rfl⟩
  rw [awaited_eq hplace] at hj
  obtain ⟨hawaited, hopen, s'', hs'', houtcome⟩ := Place.fails_of_discard hreach hj hdiscards hs
  let m₁ : Messaging := { m with system := s' }
  let m₂ : Messaging := { m with system := s'' }
  have hstays : m₁.settle cfg config = m₁ := settle_of_open (m := m₁) hplace hopen
  obtain ⟨name, hsettle⟩ : ∃ name, m₂.settle cfg config = m₂.conclude config _ :=
    settle_of_outcome (m := m₂) hplace houtcome
  show j ∈ (m₁.settle cfg config).awaited ∧ ∃ m'',
    (m₁.settle cfg config).step cfg config decimal (.service (.wake j .woken)) = some m'' ∧
      m''.handler = .raised .assertionError
  rw [hstays]
  refine ⟨?_, m₂.settle cfg config, ?_, ?_⟩
  · rw [awaited_eq (m := m₁) hplace]
    exact hawaited
  · simp [Messaging.step, serve, m₁, m₂, hs'']
  · rw [hsettle]
    rfl

/-- In a run, the message loop goes on, has answered every message it is done
with and can get done with the one it is at, also when the command awaited is
woken next, if and only if no message leads to the conversion of an infinity, and
no step discards a reading that the command awaited has been told of and has not
looked at. -/
theorem every_message_is_answered_iff {actions : List MessagingAction}
    (hrun : (machine cfg config decimal).run {} actions = some m) :
    (machine cfg config decimal).Always (fun m => Answered config m ∧ m.Answerable cfg config ∧
        ∀ j ∈ m.awaited, ∀ m',
          m.step cfg config decimal (.service (.wake j .woken)) = some m' →
            Answered config m') {} actions ↔
      (machine cfg config decimal).Meets (Deliverable cfg decimal) {} actions := by
  constructor
  · refine Machine.meets_of_always (I := fun m => System.Reachable cfg m.system) ?_ ?_
      ⟨[], rfl⟩ hrun
    · intro m a m' hreach hstep
      exact reachable_step hreach hstep
    · rintro m a m' hreach - hno hstep ⟨hanswered, -, hwake⟩
      cases a with
      | service a =>
          simp only [Deliverable, not_forall] at hno
          obtain ⟨j, hj, hdiscards⟩ := hno
          obtain ⟨hj', m'', hwoken, hraised⟩ := raised_of_discard hreach hj hdiscards hstep
          exact (hwake j hj' m'' hwoken).alive _ hraised
      | message topic payload span =>
          simp only [machine, Messaging.step] at hstep
          split at hstep
          · have hoverflows : overflows decimal (commandName topic) (decodePayload payload) := by
              simpa [Deliverable] using hno
            exact hanswered.alive _ (raised_of_overflows hoverflows hstep)
          · simp at hstep
  · refine Machine.always_of_meets (I := Healthy cfg config) ?_ ?_ ?_
    · intro m a m' hI hok hstep
      exact hI.step hok hstep
    · intro m hI
      refine ⟨hI.answered, hI.answerable, fun j hj m' hwake => ?_⟩
      have hspares : m.Deliverable cfg decimal (.service (.wake j .woken)) := by
        intro i hi
        obtain rfl : j = i := Option.some.inj (hj.symm.trans hi)
        exact System.spares_wake hI.reachable.sound .woken
      have hnext := hI.step hspares hwake
      exact hnext.answered
    · exact ⟨⟨[], rfl⟩, by simp [System.Filled], trivial, rfl, by simp⟩

/-- A fan speed of 20 on a link that is up; its write returns. -/
def fanSlow : List MessagingAction :=
  [.service .start, .service (.link 0 .connected), .service (.link 0 .subscribed),
    .service (.notify coolPacket), .message "bedjet/bedjet/set/fan" [50, 48] 1,
    .service (.wake 0 .writeReturned)]

theorem every_message_is_answered_iff_fanSlow :
    (machine {} {} fun _ => none).Always (fun m => Answered {} m ∧ m.Answerable {} {} ∧
        ∀ j ∈ m.awaited, ∀ m',
          m.step {} {} (fun _ => none) (.service (.wake j .woken)) = some m' →
            Answered {} m') {} fanSlow ↔
      (machine {} {} fun _ => none).Meets (Deliverable {} fun _ => none) {} fanSlow := by
  have hany : ((machine {} {} fun _ => none).run {} fanSlow).any fun _ => true := by decide +kernel
  obtain ⟨m, hrun, -⟩ := Machine.exists_of_run_any hany
  exact every_message_is_answered_iff hrun

/-- A fan speed of `inf`. -/
def fanInfinite : List MessagingAction :=
  [.message "bedjet/bedjet/set/fan" [105, 110, 102] 1]

def hasRaised (m : Messaging) : Bool :=
  match m.handler with
  | .raised _ => true
  | _ => false

/-- A message can end the message loop. -/
theorem message_can_end_the_loop :
    ¬∀ (cfg : Config) (config : MqttConfig) (decimal : Char → Option ℕ) (m : Messaging)
      (actions : List MessagingAction),
      (machine cfg config decimal).run {} actions = some m → Answered config m := by
  intro hall
  have hany : ((machine {} {} fun _ => none).run {} fanInfinite).any hasRaised := by
    decide +kernel
  obtain ⟨m, hrun, hraised⟩ := Machine.exists_of_run_any hany
  unfold hasRaised at hraised
  split at hraised
  · rename_i exception hhandler
    exact (hall {} {} (fun _ => none) m fanInfinite hrun).alive exception hhandler
  · simp at hraised

end Messaging

end Bedjet.Integrations
