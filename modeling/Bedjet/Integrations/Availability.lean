import Bedjet.Device.Trust
import Bedjet.Integrations.BridgeSteps

/-!
What the broker retains on the availability topic. The bridge publishes when
something happens, and a reading goes stale when nothing does: `online` is
retained rightly as long as no reading outlives its freshness while the last
word of the bridge says that the device is available.
-/

namespace Bedjet.Integrations

open Python Protocol Device Service Asyncio Api

/-- Whether a publish is in progress. -/
def RunPc.publishing (pc : RunPc) : Bool :=
  match pc with
  | .announcing _ => true
  | _ => pc.flight.isSome

namespace Bridge

variable {cfg : Config} {config : MqttConfig} {b b' : Bridge} {s' : System}

/-- Whether the device is available now, by a reading that is not stale. -/
def availableNow (cfg : Config) (b : Bridge) : Bool :=
  isAvailable (b.system.snapshot cfg)

/-- While the bridge is connected and has nothing left to publish, `online` is
retained only of a device that is available. -/
def Honest (cfg : Config) (b : Bridge) : Prop :=
  b.connected → b.queue.entries = [] → b.pc.publishing = false →
    b.broker.availability = some online → b.availableNow cfg

/-- Whether the last word on the topic will be `online` once the queue is empty:
what is being published, or what is retained where no will is due. -/
def lastSaid (b : Bridge) : Bool :=
  if b.connected then
    match b.pc.flight with
    | some (.half _ capture) => capture.isAvailable
    | some .goodbye => false
    | none => b.broker.availability = some online
  else !b.broker.session && b.broker.availability = some online

/-- Whether the last word of the bridge says that the device is available. -/
def lastWord (b : Bridge) : Bool :=
  match b.queue.entries.getLast? with
  | some capture => capture.isAvailable
  | none => b.lastSaid

/-- No time passes that makes the reading stale while the last word is that the
device is available; and a publish is given up undelivered only with the
connection. -/
def refreshes (cfg : Config) (b : Bridge) : BridgeAction → Bool
  | .service (.pass dt) =>
      !b.lastWord || isAvailable ({ b.system with now := b.system.now + dt }.snapshot cfg)
  | a => !b.abandons a || !b.connected

/-! ### The connection and the broker's session -/

/-- How the bridge and the broker stand to each other. -/
structure Wired (b : Bridge) : Prop where
  inSession : b.connected → b.pc.inSession
  session : b.connected → b.broker.session
  /-- where a connection was lost, the will is due or done -/
  lost : b.pc.inSession → b.connected = false →
    b.broker.session ∨ b.broker.availability ≠ some online
  /-- of a state being published, the availability is retained -/
  halfway : ∀ capture, b.pc.flight = some (.half .state capture) → b.connected →
    (b.broker.availability = some online ↔ capture.isAvailable)
  uncalled : b.pc = .uncalled →
    b.queue.entries = [] ∧ b.broker.availability = none ∧ b.broker.session = false

theorem wired_initial : Wired {} where
  inSession h := by simp at h
  session h := by simp at h
  lost h := by simp [RunPc.inSession] at h
  halfway capture h := by simp [RunPc.flight] at h
  uncalled _ := ⟨rfl, rfl, rfl⟩

theorem retained_receive (broker : Broker) (capture : Capture) :
    (broker.receive (.half .availability capture)).availability = some online ↔
      capture.isAvailable := by
  cases h : capture.isAvailable <;> simp [Broker.receive, h, online, offline]

/-- The arrival of a publish leaves the session as it is. -/
theorem Wired.delivered (h : b.Wired) (hin : b.pc.inSession) {delivered : Bool}
    (hdelivered : delivered → b.connected) :
    ((b.deliverIf delivered).connected → (b.deliverIf delivered).broker.session) ∧
      ((b.deliverIf delivered).connected = false → (b.deliverIf delivered).broker.session ∨
        (b.deliverIf delivered).broker.availability ≠ some online) := by
  rcases b.deliverIf_cases delivered with ⟨htrue, heq⟩ | ⟨-, heq⟩
  · have hconnected := hdelivered htrue
    have hsession := h.session hconnected
    rw [heq, session_deliver]
    exact ⟨fun _ => hsession, fun _ => .inl hsession⟩
  · rw [heq]
    exact ⟨h.session, h.lost hin⟩

theorem Wired.goes {pc : RunPc} {delivered : Bool} (h : b.Wired) (hin : b.pc.inSession)
    (hstays : pc.inSession) (hdelivered : delivered → b.connected)
    (hnext : Flight.Next delivered b.pc.flight pc.flight) :
    ((b.deliverIf delivered).goto pc).Wired := by
  obtain ⟨hsession, hlost⟩ := h.delivered hin hdelivered
  constructor
  · exact fun _ => hstays
  · exact hsession
  · exact fun _ => hlost
  · intro capture hflight hconnected
    have hflight : pc.flight = some (.half .state capture) := hflight
    rw [hflight] at hnext
    generalize hbefore : b.pc.flight = flight at hnext
    cases hnext with
    | stays => exact h.halfway capture hbefore hconnected
    | halves =>
        show b.deliver.broker.availability = some online ↔ _
        rw [deliver, hbefore]
        exact retained_receive b.broker capture
  · rintro rfl
    simp [RunPc.inSession] at hstays

theorem Wired.observe (h : b.Wired) (s' : System) : (b.observe cfg s').Wired := by
  rw [Bridge.observe]
  split
  · rename_i hnotified
    refine ⟨h.inSession, h.session, h.lost, h.halfway, fun huncalled => ?_⟩
    have huncalled : b.pc = .uncalled := huncalled
    simp [listening, huncalled] at hnotified
  · exact ⟨h.inSession, h.session, h.lost, h.halfway, h.uncalled⟩

theorem Wired.outside {pc : RunPc} (h : b.Wired)
    (hdown : b.pc.inSession = false ∨ b.connected = false) (hout : pc.inSession = false)
    (hcalled : pc ≠ .uncalled) : b.connected = false ∧ (b.goto pc).Wired := by
  have hdown : b.connected = false := by
    rcases hdown with hpc | hdown
    · cases hconnected : b.connected with
      | false => rfl
      | true => simp [h.inSession hconnected] at hpc
    · exact hdown
  refine ⟨hdown, ?_⟩
  constructor
  · intro hconnected
    have hconnected : b.connected := hconnected
    simp [hdown] at hconnected
  · exact h.session
  · intro hin
    have hin : pc.inSession := hin
    simp [hout] at hin
  · intro capture hflight
    have hflight : pc.flight = some (.half .state capture) := hflight
    simp [flight_of_out hout] at hflight
  · exact fun hpc => absurd hpc hcalled

theorem wired_connects :
    ({ b with connected := true, broker := b.broker.accept }.beginSession config).Wired := by
  have hpc : ∃ pc, pc.inSession ∧ pc.flight = none ∧
      { b with connected := true, broker := b.broker.accept }.beginSession config =
        { b with pc, connected := true, broker := b.broker.accept } := by
    rw [beginSession]
    split
    · exact ⟨_, rfl, rfl, rfl⟩
    · exact ⟨_, rfl, rfl, rfl⟩
  obtain ⟨pc, hin, hflight, hbegins⟩ := hpc
  rw [hbegins]
  constructor
  · exact fun _ => hin
  · intro _
    show b.broker.accept.session
    rw [Broker.accept]
    split
    · assumption
    · rfl
  · intro _ hdown
    simp at hdown
  · intro capture hhalf
    have hhalf : pc.flight = some (.half .state capture) := hhalf
    simp [hflight] at hhalf
  · rintro rfl
    simp [RunPc.inSession] at hin

theorem Wired.takes {delivered : Bool} (h : b.Wired) (hin : b.pc.inSession)
    (hdelivered : delivered → b.connected) : (b.deliverIf delivered).publishNext.Wired := by
  obtain ⟨hsession, hlost⟩ := h.delivered hin hdelivered
  have hpc (pc : RunPc) (queue : Queue Capture 16) (hstays : pc.inSession)
      (hflight : ∀ capture, pc.flight ≠ some (.half .state capture)) :
      { b.deliverIf delivered with pc, queue }.Wired := by
    constructor
    · exact fun _ => hstays
    · exact hsession
    · exact fun _ => hlost
    · exact fun capture hhalf => absurd hhalf (hflight capture)
    · rintro rfl
      simp [RunPc.inSession] at hstays
  rw [publishNext]
  split
  · exact hpc _ _ rfl (by simp [RunPc.flight])
  · exact hpc _ _ rfl (by simp [RunPc.flight])

theorem wired_closes (why : Leaving) :
    ({ b with connected := false, broker := b.broker.close }.leave config why).Wired := by
  have hpc (pc : RunPc) (hout : pc.inSession = false) (hcalled : pc ≠ .uncalled) :
      { b with pc, connected := false, broker := b.broker.close }.Wired := by
    constructor
    · simp
    · simp
    · intro hin
      simp [hout] at hin
    · simp
    · exact fun hpc => absurd hpc hcalled
  cases why with
  | mqttError => exact hpc _ rfl (by simp)
  | cancelled | raised => exact hpc _ rfl (by simp)

theorem Wired.loses (h : b.Wired) (hconnected : b.connected) (delivered : Bool) :
    { b.deliverIf delivered with connected := false }.Wired := by
  constructor
  · simp
  · simp
  · exact fun _ _ => .inl (by simpa using h.session hconnected)
  · simp
  · intro huncalled
    have huncalled : b.pc = .uncalled := by simpa using huncalled
    have hin := h.inSession hconnected
    simp [huncalled, RunPc.inSession] at hin

theorem Wired.wills (h : b.Wired) (hdown : b.connected = false) (hsession : b.broker.session) :
    { b with broker := b.broker.goOffline.close }.Wired := by
  constructor
  · simp [hdown]
  · simp [hdown]
  · exact fun _ _ => .inr (by simp [Broker.close, Broker.goOffline, online, offline])
  · simp [hdown]
  · intro huncalled
    have hclosed := (h.uncalled huncalled).2.2
    simp [hsession] at hclosed

theorem Wired.greets (h : b.Wired) (hconnected : b.connected) (capture : Capture) :
    (b.goto (.greeting .availability capture)).Wired := by
  constructor
  · exact fun _ => rfl
  · exact h.session
  · intro _ hdown
    have hdown : b.connected = false := hdown
    simp [hconnected] at hdown
  · simp [goto, RunPc.flight]
  · simp [goto]

theorem Wired.moves (h : b.Wired) {a : BridgeAction} (hmoves : Moves cfg config b a b') :
    b'.Wired := by
  cases hmoves with
  | serves => exact h.observe _
  | outside hdown _ hout hcalled => exact (h.outside hdown hout hcalled).2
  | connects => exact wired_connects
  | goes hin hstays hdelivered hnext => exact h.goes hin hstays hdelivered hnext
  | greets hpc hconnected => exact h.greets hconnected _
  | takes hin hdelivered => exact h.takes hin hdelivered
  | closes => exact wired_closes _
  | loses hconnected => exact h.loses hconnected _
  | wills hdown hsession => exact h.wills hdown hsession

/-! ### The last word -/

/-- The last word of the bridge is right. -/
def Word (cfg : Config) (b : Bridge) : Prop :=
  b.pc ≠ .ended → b.lastWord → b.availableNow cfg

theorem lastWord_of_said (hqueue : b'.queue = b.queue) (hsaid : b'.lastSaid → b.lastSaid)
    (h : b'.lastWord) : b.lastWord := by
  rw [lastWord] at h ⊢
  rw [hqueue] at h
  split at h
  · exact h
  · exact hsaid h

/-- Of the session, the link and the last reading decide. -/
theorem availableNow_congr (hlink : b'.system.lease.link = b.system.lease.link)
    (hreading : b'.system.readingAt = b.system.readingAt)
    (hnow : b'.system.now = b.system.now) : b'.availableNow cfg = b.availableNow cfg := by
  simp [availableNow, isAvailable, System.snapshot, DeviceSnapshot.fromSession,
    SessionSnapshot.available, hlink, hreading, hnow]

theorem Word.enqueue (s' : System) :
    ({ b with system := s' }.enqueue (.of cfg s')).Word cfg := by
  intro _ hword
  rw [lastWord] at hword
  have hlast := b.queue.getLast?_putNewest (by decide) (.of cfg s')
  have hlast : ({ b with system := s' }.enqueue (.of cfg s')).queue.entries.getLast? =
      some (.of cfg s') := hlast
  rw [hlast] at hword
  exact hword

/-- What the service does is passed on, but for the passing of time. -/
theorem Word.observe (h : b.Word cfg) (hwired : b.Wired) (hreach : System.Reachable cfg b.system)
    {a : Action} (hok : b.refreshes cfg (.service a))
    (hstep : (System.machine cfg).step b.system a = some s') : (b.observe cfg s').Word cfg := by
  rw [Bridge.observe]
  split
  · exact Word.enqueue s'
  · rename_i hsilent
    intro hended hword
    have hsaid : b.lastWord := hword
    have hlistening : b.listening := by
      cases hpc : b.pc with
      | uncalled =>
          -- nothing has been said yet
          obtain ⟨hqueue, hretained, -⟩ := hwired.uncalled hpc
          simp [lastWord, hqueue, lastSaid, hpc, RunPc.flight, hretained] at hsaid
      | ended => exact absurd hpc hended
      | _ => simp [listening, hpc]
    have hnotified : b.system.notified s' = false := by simpa [hlistening] using hsilent
    obtain ⟨hlink, hquiet⟩ :=
      System.quiet_of_not_notified (System.step_effect hreach.sound hstep) hnotified
    by_cases hpass : ∃ dt, a = .pass dt
    · obtain ⟨dt, rfl⟩ := hpass
      obtain ⟨-, rfl⟩ : 0 ≤ dt ∧ _ = s' := by simpa [System.machine, System.step] using hstep
      have hfresh : isAvailable
          ({ b.system with now := b.system.now + dt }.snapshot cfg) := by
        simpa [refreshes, hsaid] using hok
      exact hfresh
    · have hnow := System.now_step hstep fun dt ha => hpass ⟨dt, ha⟩
      have hsame : { b with system := s' }.availableNow cfg = b.availableNow cfg :=
        availableNow_congr hlink hquiet.readingAt hnow
      rw [hsame]
      exact h hended hsaid

/-- What is retained once the publish in flight has arrived, or if there is none. -/
theorem lastSaid_of_arrived (hwired : b.Wired) (hconnected : b.connected) {delivered : Bool}
    (harrives : b.pc.flight = none ∨ delivered)
    (hretained : (b.deliverIf delivered).broker.availability = some online) : b.lastSaid := by
  rw [lastSaid, if_pos hconnected]
  cases hflight : b.pc.flight with
  | none =>
      have hsame : b.deliverIf delivered = b := by
        cases delivered with
        | true =>
            show b.deliver = b
            rw [deliver, hflight]
        | false => rfl
      rw [hsame] at hretained
      simpa using hretained
  | some flight =>
      obtain rfl : delivered = true := by simpa [hflight] using harrives
      have hretained : (b.broker.receive flight).availability = some online := by
        have hdeliver : b.deliver = { b with broker := b.broker.receive flight } := by
          rw [deliver, hflight]
        simpa [deliverIf, hdeliver] using hretained
      cases flight with
      | half stage capture =>
          cases stage with
          | availability => exact (retained_receive b.broker capture).mp hretained
          | state => exact (hwired.halfway capture hflight hconnected).mp hretained
      | goodbye => simp [Broker.receive, Broker.goOffline, online, offline] at hretained

theorem lastSaid_goes {pc : RunPc} {delivered : Bool} (hwired : b.Wired)
    (hdelivered : delivered → b.connected)
    (hnext : Flight.Next delivered b.pc.flight pc.flight)
    (hgiven : pc.flight = b.pc.flight ∨ delivered ∨ b.pc.flight = none ∨ b.connected = false)
    (h : ((b.deliverIf delivered).goto pc).lastSaid) : b.lastSaid := by
  cases hconnected : b.connected with
  | false =>
      obtain rfl : delivered = false := by simpa [hconnected] using hdelivered
      simpa [lastSaid, goto, deliverIf, hconnected] using h
  | true =>
      have hsaid : ((b.deliverIf delivered).goto pc).lastSaid =
          match pc.flight with
          | some (.half _ capture) => capture.isAvailable
          | some .goodbye => false
          | none => (b.deliverIf delivered).broker.availability = some online := by
        rw [lastSaid]
        simp [goto, hconnected]
      rw [hsaid] at h
      generalize hbefore : b.pc.flight = flight at hnext hgiven
      generalize hafter : pc.flight = flight' at hnext hgiven h
      cases hnext with
      | stays =>
          rw [lastSaid, if_pos hconnected, hbefore]
          exact h
      | ends =>
          have harrives : b.pc.flight = none ∨ delivered := by
            rcases hgiven with hnone | hdelivered | hnone | hdown
            · exact .inl (hbefore.trans hnone.symm)
            · exact .inr hdelivered
            · exact .inl (hbefore.trans hnone)
            · simp [hconnected] at hdown
          exact lastSaid_of_arrived hwired hconnected harrives (by simpa using h)
      | departs => simp at h
      | halves =>
          rw [lastSaid, if_pos hconnected, hbefore]
          exact h

/-- The publisher takes the last entry, or finds none. -/
theorem lastWord_takes {delivered : Bool} (hwired : b.Wired) (hin : b.pc.inSession)
    (hdelivered : delivered → b.connected) (hflight : b.pc.flight = none ∨ delivered)
    (h : (b.deliverIf delivered).publishNext.lastWord) : b.lastWord := by
  have hqueue : (b.deliverIf delivered).queue = b.queue := queue_deliverIf b delivered
  rw [publishNext] at h
  split at h
  · rename_i capture queue hget
    rw [hqueue] at hget
    have hentries := Queue.get?_eq_some hget
    rw [lastWord, hentries, List.getLast?_cons]
    rw [lastWord] at h
    dsimp only at h
    cases hrest : queue.entries.getLast? with
    | some last =>
        rw [hrest] at h
        exact h
    | none =>
        rw [hrest] at h
        cases hconnected : b.connected with
        | true => simpa [lastSaid, hconnected, RunPc.flight] using h
        | false =>
            -- the connection is lost, and with it the word
            obtain rfl : delivered = false := by simpa [hconnected] using hdelivered
            have hlost := hwired.lost hin hconnected
            have hsaid : b.broker.session = false ∧ b.broker.availability = some online := by
              simpa [lastSaid, deliverIf, hconnected] using h
            simp [hsaid.1, hsaid.2] at hlost
  · rename_i hget
    rw [hqueue] at hget
    have hempty := Queue.get?_eq_none hget
    have hgiven : RunPc.flight (.serving .getting) = b.pc.flight ∨ delivered ∨
        b.pc.flight = none ∨ b.connected = false := by
      rcases hflight with hnone | hdelivered
      · exact .inr (.inr (.inl hnone))
      · exact .inr (.inl hdelivered)
    have hsaid : ((b.deliverIf delivered).goto (.serving .getting)).lastSaid → b.lastSaid := by
      intro hsaid
      apply lastSaid_goes hwired hdelivered ?_ hgiven hsaid
      exact .ends delivered b.pc.flight
    apply lastWord_of_said ?_ hsaid h
    exact hqueue

theorem lost_of_refreshes {a : BridgeAction} (h : b.refreshes cfg a) (habandons : b.abandons a) :
    b.connected = false := by
  cases a with
  | service a => simp [abandons] at habandons
  | _ => simpa [refreshes, habandons] using h

/-- A session that is opened says nothing new. -/
theorem lastSaid_connects (hwired : b.Wired) (hpc : b.pc = .connecting)
    (hsaid : ({ b with connected := true, broker := b.broker.accept }.beginSession
      config).lastSaid) : b.lastSaid := by
  have hdown : b.connected = false := by
    cases hconnected : b.connected with
    | false => rfl
    | true => simpa [hpc, RunPc.inSession] using hwired.inSession hconnected
  have hflight : RunPc.flight (if config.discovery then .announcing discoveryTopics
      else .subscribing) = none := by
    split <;> rfl
  have hretained : b.broker.accept.availability = some online := by
    rw [lastSaid] at hsaid
    simp only [beginSession, goto, hflight, if_true] at hsaid
    exact of_decide_eq_true hsaid
  rw [Broker.accept] at hretained
  split at hretained
  · simp [Broker.goOffline, online, offline] at hretained
  · rename_i hsession
    have hretained : b.broker.availability = some online := hretained
    simp [lastSaid, hdown, hsession, hretained]

/-- Nor does one that is closed. -/
theorem lastSaid_closes {pc : RunPc} {why : Leaving} (hpc : b.pc = .disconnecting why)
    (hconnected : b.connected)
    (hsaid : { b with pc, connected := false, broker := b.broker.close }.lastSaid) :
    b.lastSaid := by
  have hretained : b.broker.availability = some online := by
    simp only [lastSaid, Broker.close, Bool.false_eq_true, if_false, Bool.not_false,
      Bool.true_and] at hsaid
    exact of_decide_eq_true hsaid
  simp [lastSaid, hconnected, hpc, RunPc.flight, hretained]

/-- A step of the bridge alone leaves the device as it is. -/
theorem Word.alone (h : b.Word cfg) (hsystem : b'.system = b.system) (hgoes : b.pc ≠ .ended)
    (hword : b'.lastWord → b.lastWord) : b'.Word cfg := by
  intro _ hlast
  rw [availableNow, hsystem]
  exact h hgoes (hword hlast)

theorem ne_ended_of_inSession {pc : RunPc} (hin : pc.inSession) : pc ≠ .ended := by
  rintro rfl
  simp [RunPc.inSession] at hin

theorem Word.moves (h : b.Word cfg) (hwired : b.Wired) (hreach : System.Reachable cfg b.system)
    {a : BridgeAction} (hok : b.refreshes cfg a) (hmoves : Moves cfg config b a b') :
    b'.Word cfg := by
  cases hmoves with
  | serves hstep => exact h.observe hwired hreach hok hstep
  | outside hdown hgoes hout hcalled =>
      have hdown := (hwired.outside hdown hout hcalled).1
      refine h.alone rfl hgoes (lastWord_of_said rfl fun hsaid => ?_)
      simpa [lastSaid, goto, hdown] using hsaid
  | connects hpc =>
      apply h.alone
      · exact system_beginSession
      · simp [hpc]
      · apply lastWord_of_said
        · exact queue_beginSession
        · exact lastSaid_connects hwired hpc
  | goes hin hstays hdelivered hnext hgiven =>
      apply h.alone
      · simp [goto]
      · exact ne_ended_of_inSession hin
      · apply lastWord_of_said
        · simp [goto]
        · apply lastSaid_goes hwired hdelivered hnext
          rcases hgiven with hsame | hdelivered | hnone | habandons
          · exact .inl hsame
          · exact .inr (.inl hdelivered)
          · exact .inr (.inr (.inl hnone))
          · exact .inr (.inr (.inr (lost_of_refreshes hok habandons)))
  | greets hpc hconnected =>
      intro _ hword
      show b.availableNow cfg
      cases hlast : b.queue.entries.getLast? with
      | some capture =>
          apply h (by simp [hpc])
          simpa [lastWord, goto, hlast] using hword
      | none =>
          -- the snapshot was taken just now
          have hfresh : (Capture.of cfg b.system).isAvailable := by
            simpa [lastWord, goto, hlast, lastSaid, hconnected, RunPc.flight] using hword
          exact hfresh
  | takes hin hdelivered hflight =>
      apply h.alone
      · rw [system_publishNext, system_deliverIf]
      · exact ne_ended_of_inSession hin
      · exact lastWord_takes hwired hin hdelivered hflight
  | @closes why hpc hconnected =>
      obtain ⟨pc, hleaves⟩ : ∃ pc, { b with connected := false, broker := b.broker.close }.leave
          config why = { b with pc, connected := false, broker := b.broker.close } := by
        cases why with
        | mqttError => exact ⟨_, rfl⟩
        | cancelled | raised => exact ⟨_, rfl⟩
      rw [hleaves]
      apply h.alone
      · rfl
      · simp [hpc]
      · apply lastWord_of_said
        · rfl
        · exact lastSaid_closes hpc hconnected
  | loses hconnected =>
      apply h.alone
      · simp
      · exact ne_ended_of_inSession (hwired.inSession hconnected)
      · apply lastWord_of_said
        · simp
        · intro hsaid
          -- the will is due
          simp [lastSaid, hwired.session hconnected] at hsaid
  | wills hdown hsession =>
      intro hgoes hword
      apply h hgoes
      apply lastWord_of_said ?_ ?_ hword
      · rfl
      · intro hsaid
        simp [lastSaid, hdown, Broker.goOffline, Broker.close, online, offline] at hsaid

/-! ### The broker tells the truth -/

/-- The invariant of the runs in which no reading goes stale unsaid. -/
structure Truthful (cfg : Config) (b : Bridge) : Prop where
  reachable : System.Reachable cfg b.system
  wired : b.Wired
  word : b.Word cfg

theorem truthful_initial : Truthful cfg {} where
  reachable := ⟨[], rfl⟩
  wired := wired_initial
  word _ h := by simp [lastWord, lastSaid, Queue.empty] at h

theorem Truthful.honest (h : b.Truthful cfg) : b.Honest cfg := by
  intro hconnected hempty hpublishing hretained
  have hin := h.wired.inSession hconnected
  have hgoes : b.pc ≠ .ended := by
    intro hpc
    simp [hpc, RunPc.inSession] at hin
  have hflight : b.pc.flight = none := by
    cases hpc : b.pc with
    | announcing left => rfl
    | _ => simpa [RunPc.publishing, hpc] using hpublishing
  apply h.word hgoes
  simp [lastWord, hempty, lastSaid, hconnected, hflight, hretained]

theorem reachable_moves {a : BridgeAction} (h : System.Reachable cfg b.system)
    (hmoves : Moves cfg config b a b') : System.Reachable cfg b'.system := by
  cases hmoves with
  | @serves a s' hstep =>
      rw [system_observe]
      exact h.step hstep
  | outside | connects | greets | wills => exact h
  | goes => simpa [goto] using h
  | takes =>
      rw [system_publishNext, system_deliverIf]
      exact h
  | @closes why =>
      cases why <;> exact h
  | loses => simpa using h

theorem Truthful.step (h : b.Truthful cfg) {a : BridgeAction} (hok : b.refreshes cfg a)
    (hstep : (machine cfg config).step b a = some b') : b'.Truthful cfg := by
  have hmoves := step_moves hstep
  exact ⟨reachable_moves h.reachable hmoves, h.wired.moves hmoves,
    h.word.moves h.wired h.reachable hok hmoves⟩

/-- In a run in which no reading goes stale while the last word of the bridge is
that the device is available, and in which a publish is given up undelivered
only with the connection, `online` is retained rightly. -/
theorem retained_availability_is_honest {actions : List BridgeAction}
    (hok : (machine cfg config).Meets (fun b a => b.refreshes cfg a) {} actions) :
    (machine cfg config).Always (Honest cfg) {} actions := by
  refine Machine.always_of_meets (I := Truthful cfg) ?_ ?_ truthful_initial hok
  · intro b a b' hI hallowed hstep
    exact hI.step hallowed hstep
  · exact fun b hI => hI.honest

/-- The bridge of a device that comes up and is published as available. -/
def comesUp : List BridgeAction :=
  [.run, .connected, .subscribed, .published, .published, .begun, .service .start,
    .service (.link 0 .connected), .service (.link 0 .subscribed), .service (.notify coolPacket),
    .took, .publisherPublished, .publisherPublished, .publisherPublished, .publisherPublished,
    .publisherPublished, .publisherPublished]

theorem retained_availability_is_honest_comesUp :
    (machine {} { discovery := false }).Always (Honest {}) {}
      (comesUp ++ [.service (.pass 30)]) :=
  retained_availability_is_honest (by decide +kernel)

/-- Nothing happens, and the reading goes stale. -/
theorem stale_reading_can_stay_online :
    ¬∀ (cfg : Config) (config : MqttConfig) (b : Bridge),
      (∃ actions, (machine cfg config).run {} actions = some b) → b.Honest cfg := by
  intro hall
  have hany : ((machine {} { discovery := false }).run {}
      (comesUp ++ [.service (.pass 61)])).any fun b =>
        b.connected && b.queue.entries.isEmpty && !b.pc.publishing &&
          b.broker.availability = some online && !b.availableNow {} := by
    decide +kernel
  obtain ⟨b, hrun, hcheck⟩ := Machine.exists_of_run_any hany
  simp only [Bool.and_eq_true, List.isEmpty_iff, Bool.not_eq_true', decide_eq_true_eq] at hcheck
  obtain ⟨⟨⟨⟨hconnected, hempty⟩, hidle⟩, hretained⟩, hstale⟩ := hcheck
  have havailable := hall {} { discovery := false } b ⟨_, hrun⟩ hconnected hempty hidle hretained
  simp [hstale] at havailable

end Bridge

end Bedjet.Integrations
