import Bedjet.Integrations.Bridge

/-!
What one step of the bridge does: it changes where `run` is, and what the broker
has received changes with it only by the arrival of the publish in flight.
-/

namespace Bedjet.Integrations

open Python Protocol Device Service Asyncio Api

namespace RunPc

/-- Between `Client.__aenter__` and the end of `Client.__aexit__`. -/
def inSession : RunPc → Bool
  | .announcing _ | .subscribing | .greeting _ _ | .serving _ | .awaitingPublisher _ _
  | .sayingGoodbye _ | .disconnecting _ => true
  | .uncalled | .connecting | .retrying _ | .ended => false

end RunPc

/-- The publish in flight before a step and after it, by whether it arrived. -/
inductive Flight.Next : Bool → Option Flight → Option Flight → Prop
  | stays (flight : Option Flight) : Next false flight flight
  | ends (delivered : Bool) (flight : Option Flight) : Next delivered flight none
  | departs (delivered : Bool) (flight : Option Flight) : Next delivered flight (some .goodbye)
  | halves (capture : Capture) :
      Next true (some (.half .availability capture)) (some (.half .state capture))

namespace Bridge

variable {cfg : Config} {config : MqttConfig} {b b' : Bridge} {s' : System}

/-- A publish in flight is given up, and does not arrive. -/
def abandons (b : Bridge) : BridgeAction → Bool
  | .publishFailed false | .publisherFailed false | .publisherEnded false =>
      b.pc.flight.isSome
  | .cancel false =>
      match b.pc with
      | .greeting _ _ | .sayingGoodbye _ => true
      | _ => false
  | _ => false

def deliverIf (b : Bridge) (delivered : Bool) : Bridge :=
  if delivered then b.deliver else b

@[simp] theorem system_observe (system : System) : (b.observe cfg system).system = system := by
  rw [observe]
  split <;> rfl

@[simp] theorem pc_observe (system : System) : (b.observe cfg system).pc = b.pc := by
  rw [observe]
  split <;> rfl

@[simp] theorem broker_observe (system : System) :
    (b.observe cfg system).broker = b.broker := by
  rw [observe]
  split <;> rfl

@[simp] theorem session_deliver : b.deliver.broker.session = b.broker.session := by
  rw [deliver]
  split
  · rename_i flight _
    cases flight with
    | half stage capture => cases stage <;> rfl
    | goodbye => rfl
  · rfl

@[simp] theorem connected_deliver : b.deliver.connected = b.connected := by
  rw [deliver]
  split <;> rfl

@[simp] theorem queue_deliver : b.deliver.queue = b.queue := by
  rw [deliver]
  split <;> rfl

@[simp] theorem system_deliver : b.deliver.system = b.system := by
  rw [deliver]
  split <;> rfl

@[simp] theorem pc_deliver : b.deliver.pc = b.pc := by
  rw [deliver]
  split <;> rfl

/-- Nothing but the arrival of a publish changes the bridge. -/
theorem deliverIf_cases (b : Bridge) (delivered : Bool) :
    delivered ∧ b.deliverIf delivered = b.deliver ∨
      delivered = false ∧ b.deliverIf delivered = b := by
  cases delivered with
  | true => exact .inl ⟨rfl, rfl⟩
  | false => exact .inr ⟨rfl, rfl⟩

@[simp] theorem session_deliverIf (b : Bridge) (delivered : Bool) :
    (b.deliverIf delivered).broker.session = b.broker.session := by
  cases delivered with
  | true => exact session_deliver
  | false => rfl

@[simp] theorem connected_deliverIf (b : Bridge) (delivered : Bool) :
    (b.deliverIf delivered).connected = b.connected := by
  cases delivered with
  | true => exact connected_deliver
  | false => rfl

@[simp] theorem queue_deliverIf (b : Bridge) (delivered : Bool) :
    (b.deliverIf delivered).queue = b.queue := by
  cases delivered with
  | true => exact queue_deliver
  | false => rfl

@[simp] theorem system_deliverIf (b : Bridge) (delivered : Bool) :
    (b.deliverIf delivered).system = b.system := by
  cases delivered with
  | true => exact system_deliver
  | false => rfl

@[simp] theorem pc_deliverIf (b : Bridge) (delivered : Bool) :
    (b.deliverIf delivered).pc = b.pc := by
  cases delivered with
  | true => exact pc_deliver
  | false => rfl

theorem flight_of_out {pc : RunPc} (h : pc.inSession = false) : pc.flight = none := by
  cases pc <;> simp_all [RunPc.inSession, RunPc.flight]

theorem system_beginSession : (b.beginSession config).system = b.system := rfl

theorem queue_beginSession : (b.beginSession config).queue = b.queue := rfl

theorem system_publishNext : b.publishNext.system = b.system := by
  rw [publishNext]
  split <;> rfl

/-- What a step does to the bridge. -/
inductive Moves (cfg : Config) (config : MqttConfig) (b : Bridge) : BridgeAction → Bridge → Prop
  | serves {a : Action} {s' : System} (hstep : (System.machine cfg).step b.system a = some s') :
      Moves cfg config b (.service a) (b.observe cfg s')
  /-- outside a session, or out of one whose connection is lost -/
  | outside {a : BridgeAction} {pc : RunPc} (hdown : b.pc.inSession = false ∨ b.connected = false)
      (hgoes : b.pc ≠ .ended) (hout : pc.inSession = false) (hcalled : pc ≠ .uncalled) :
      Moves cfg config b a (b.goto pc)
  | connects (hpc : b.pc = .connecting) :
      Moves cfg config b .connected
        ({ b with connected := true, broker := b.broker.accept }.beginSession config)
  /-- within a session -/
  | goes {a : BridgeAction} {pc : RunPc} {delivered : Bool} (hin : b.pc.inSession)
      (hstays : pc.inSession) (hdelivered : delivered → b.connected)
      (hnext : Flight.Next delivered b.pc.flight pc.flight)
      (hgiven : pc.flight = b.pc.flight ∨ delivered ∨ b.pc.flight = none ∨ b.abandons a) :
      Moves cfg config b a ((b.deliverIf delivered).goto pc)
  | greets (hpc : b.pc = .subscribing) (hconnected : b.connected) :
      Moves cfg config b .subscribed (b.goto (.greeting .availability (.of cfg b.system)))
  /-- the publisher takes the next entry, after a publish that arrived or none -/
  | takes {a : BridgeAction} {delivered : Bool} (hin : b.pc.inSession)
      (hdelivered : delivered → b.connected)
      (hflight : b.pc.flight = none ∨ delivered) :
      Moves cfg config b a (b.deliverIf delivered).publishNext
  | closes {why : Leaving} (hpc : b.pc = .disconnecting why) (hconnected : b.connected) :
      Moves cfg config b .disconnected
        ({ b with connected := false, broker := b.broker.close }.leave config why)
  | loses {delivered : Bool} (hconnected : b.connected) :
      Moves cfg config b (.lost delivered) { b.deliverIf delivered with connected := false }
  | wills (hdown : b.connected = false) (hsession : b.broker.session) :
      Moves cfg config b .willed { b with broker := b.broker.goOffline.close }

theorem giveUp_eq_some {delivered : Bool} (h : b.giveUp delivered = some b') :
    (delivered → b.connected) ∧ b' = b.deliverIf delivered := by
  cases delivered with
  | true =>
      obtain ⟨hconnected, rfl⟩ : b.connected ∧ b.deliver = b' := by simpa [giveUp] using h
      exact ⟨fun _ => hconnected, rfl⟩
  | false =>
      obtain rfl : b = b' := by simpa [giveUp] using h
      exact ⟨by simp, rfl⟩

theorem moves_giveUp {a : BridgeAction} {pc : RunPc} {delivered : Bool} (hin : b.pc.inSession)
    (hstays : pc.inSession) (hnext : Flight.Next delivered b.pc.flight pc.flight)
    (hgiven : delivered = false → b.pc.flight.isSome → b.abandons a)
    (h : (b.giveUp delivered).map (goto · pc) = some b') : Moves cfg config b a b' := by
  obtain ⟨b₁, hgive, rfl⟩ := Option.map_eq_some_iff.mp h
  obtain ⟨hdelivered, rfl⟩ := giveUp_eq_some hgive
  refine .goes hin hstays hdelivered hnext ?_
  cases hflight : b.pc.flight with
  | none => simp
  | some flight =>
      cases delivered with
      | true => simp
      | false => exact .inr (.inr (.inr (hgiven rfl (by simp [hflight]))))

theorem moves_outside {a : BridgeAction} {pc : RunPc} (hdown : b.pc.inSession = false)
    (hgoes : b.pc ≠ .ended) (hout : pc.inSession = false) (hcalled : pc ≠ .uncalled) :
    Moves cfg config b a (b.goto pc) :=
  .outside (.inl hdown) hgoes hout hcalled

/-- The publish in flight stays in flight, if there is one. -/
theorem moves_goto {a : BridgeAction} {pc : RunPc} (hin : b.pc.inSession)
    (hstays : pc.inSession) (hflight : pc.flight = b.pc.flight) :
    Moves cfg config b a (b.goto pc) := by
  have hnext : Flight.Next false b.pc.flight pc.flight := by
    rw [hflight]
    exact .stays _
  exact .goes hin hstays (by simp) hnext (.inl hflight)

/-- It arrives. -/
theorem moves_deliver {a : BridgeAction} {pc : RunPc} (hin : b.pc.inSession)
    (hstays : pc.inSession) (hconnected : b.connected)
    (hnext : Flight.Next true b.pc.flight pc.flight) :
    Moves cfg config b a (b.deliver.goto pc) :=
  .goes hin hstays (fun _ => hconnected) hnext (.inr (.inl rfl))

/-- The publisher takes the next entry with nothing in flight. -/
theorem moves_publishNext {a : BridgeAction} (hin : b.pc.inSession)
    (hflight : b.pc.flight = none) : Moves cfg config b a b.publishNext := by
  have htakes : Moves cfg config b a (b.deliverIf false).publishNext :=
    .takes hin (by simp) (.inl hflight)
  exact htakes

theorem moves_onPublished (hconnected : b.connected) (h : b.onPublished = some b') :
    Moves cfg config b .published b' := by
  rw [onPublished] at h
  split at h
  · rename_i left hpc
    obtain rfl := Option.some.inj h
    apply moves_goto
    · simp [hpc, RunPc.inSession]
    · split <;> rfl
    · rw [hpc]
      split <;> rfl
  · rename_i capture hpc
    obtain rfl := Option.some.inj h
    refine moves_deliver (by simp [hpc, RunPc.inSession]) rfl hconnected ?_
    rw [hpc]
    exact .halves capture
  · rename_i capture hpc
    obtain rfl := Option.some.inj h
    exact moves_deliver (by simp [hpc, RunPc.inSession]) rfl hconnected (.ends _ _)
  · rename_i why hpc
    obtain rfl := Option.some.inj h
    exact moves_deliver (by simp [hpc, RunPc.inSession]) rfl hconnected (.ends _ _)
  · simp at h

theorem moves_onPublishFailed {delivered : Bool} (h : b.onPublishFailed delivered = some b') :
    Moves cfg config b (.publishFailed delivered) b' := by
  have habandons : delivered = false → b.pc.flight.isSome →
      b.abandons (.publishFailed delivered) := by
    rintro rfl hflight
    exact hflight
  rw [onPublishFailed] at h
  split at h
  · rename_i left hpc
    exact moves_giveUp (by simp [hpc, RunPc.inSession]) rfl (.ends _ _) habandons h
  · rename_i stage capture hpc
    exact moves_giveUp (by simp [hpc, RunPc.inSession]) rfl (.ends _ _) habandons h
  · rename_i why hpc
    exact moves_giveUp (by simp [hpc, RunPc.inSession]) rfl (.ends _ _) habandons h
  · simp at h

theorem moves_onPublisherPublished (hconnected : b.connected)
    (h : b.onPublisherPublished = some b') : Moves cfg config b .publisherPublished b' := by
  rw [onPublisherPublished] at h
  split at h
  · rename_i capture hpc
    obtain rfl := Option.some.inj h
    refine moves_deliver (by simp [hpc, RunPc.inSession]) rfl hconnected ?_
    rw [hpc]
    exact .halves capture
  · rename_i capture hpc
    obtain rfl := Option.some.inj h
    exact .takes (by simp [hpc, RunPc.inSession]) (fun _ => hconnected) (.inr rfl)
  · simp at h

theorem moves_leaveMessages {a : BridgeAction} {why : Leaving}
    (h : b.leaveMessages why = some b') : Moves cfg config b a b' := by
  rw [leaveMessages] at h
  split at h
  · rename_i hpc
    obtain rfl := Option.some.inj h
    exact moves_goto (by simp [hpc, RunPc.inSession]) rfl (by rw [hpc]; rfl)
  · rename_i publisher _ hpc
    obtain rfl := Option.some.inj h
    refine moves_goto (by simp [hpc, RunPc.inSession]) rfl ?_
    rw [hpc]
    cases publisher <;> rfl
  · simp at h

theorem moves_onCancel {delivered : Bool} (h : b.onCancel delivered = some b') :
    Moves cfg config b (.cancel delivered) b' := by
  cases hpc : b.pc with
  | connecting | retrying due =>
      obtain rfl : b.goto .ended = b' := by simpa [onCancel, hpc] using h
      exact moves_outside (by simp [hpc, RunPc.inSession]) (by simp [hpc]) rfl (by simp)
  | announcing left | subscribing =>
      have hgive : (b.giveUp delivered).map (goto · (.disconnecting .cancelled)) = some b' := by
        simpa [onCancel, hpc] using h
      refine moves_giveUp (by simp [hpc, RunPc.inSession]) rfl (.ends _ _) ?_ hgive
      simp [hpc, RunPc.flight]
  | greeting stage capture | sayingGoodbye why =>
      have hgive : (b.giveUp delivered).map (goto · (.disconnecting .cancelled)) = some b' := by
        simpa [onCancel, hpc] using h
      refine moves_giveUp (by simp [hpc, RunPc.inSession]) rfl (.ends _ _) ?_ hgive
      rintro rfl -
      simp [abandons, hpc]
  | serving publisher =>
      have hleave : b.leaveMessages .cancelled = some b' := by simpa [onCancel, hpc] using h
      exact moves_leaveMessages hleave
  | awaitingPublisher publisher why =>
      obtain rfl : b = b' := by simpa [onCancel, hpc] using h
      have hsame : Moves cfg config b (.cancel delivered) (b.goto b.pc) :=
        moves_goto (by simp [hpc, RunPc.inSession]) (by simp [hpc, RunPc.inSession]) rfl
      exact hsame
  | uncalled | disconnecting why | ended => simp [onCancel, hpc] at h

theorem moves_onPublisherEnded {delivered : Bool} (h : b.onPublisherEnded delivered = some b') :
    Moves cfg config b (.publisherEnded delivered) b' := by
  rw [onPublisherEnded] at h
  split at h
  · rename_i publisher why hpc
    refine moves_giveUp (by simp [hpc, RunPc.inSession]) rfl (.departs _ _) ?_ h
    rintro rfl hflight
    exact hflight
  · simp at h

theorem moves_onDisconnected (h : b.onDisconnected config = some b') :
    Moves cfg config b .disconnected b' := by
  rw [onDisconnected] at h
  split at h
  · rename_i why hpc
    split at h
    · rename_i hconnected
      obtain rfl := Option.some.inj h
      exact .closes hpc hconnected
    · rename_i hdown
      obtain rfl := Option.some.inj h
      have hout {pc : RunPc} (hout : pc.inSession = false) (hcalled : pc ≠ .uncalled) :
          Moves cfg config b .disconnected (b.goto pc) :=
        .outside (.inr (by simpa using hdown)) (by simp [hpc]) hout hcalled
      cases why with
      | mqttError => exact hout rfl (by simp)
      | cancelled | raised => exact hout rfl (by simp)
  · simp at h

theorem step_moves {a : BridgeAction} (h : b.step cfg config a = some b') :
    Moves cfg config b a b' := by
  cases a with
  | service a =>
      obtain ⟨s', hstep, rfl⟩ := Option.map_eq_some_iff.mp h
      exact .serves hstep
  | run | connectFailed =>
      simp only [step] at h
      split at h
      · rename_i hpc
        obtain rfl := Option.some.inj h
        exact moves_outside (by simp [hpc, RunPc.inSession]) (by simp [hpc]) rfl (by simp)
      · simp at h
  | connected =>
      simp only [step] at h
      split at h
      · rename_i hpc
        obtain rfl := Option.some.inj h
        exact .connects hpc
      · simp at h
  | published =>
      obtain ⟨hconnected, hpublished⟩ : b.connected ∧ b.onPublished = some b' := by
        simpa [step] using h
      exact moves_onPublished hconnected hpublished
  | publishFailed delivered => exact moves_onPublishFailed h
  | subscribed =>
      simp only [step] at h
      split at h
      · rename_i hpc
        obtain ⟨hconnected, rfl⟩ : b.connected ∧ _ = b' := by simpa using h
        exact .greets hpc hconnected
      · simp at h
  | subscribeFailed =>
      simp only [step] at h
      split at h
      · rename_i hpc
        obtain rfl := Option.some.inj h
        exact moves_goto (by simp [hpc, RunPc.inSession]) rfl (by rw [hpc]; rfl)
      · simp at h
  | begun | took =>
      simp only [step] at h
      split at h
      · rename_i hpc
        obtain rfl := Option.some.inj h
        exact moves_publishNext (by simp [hpc, RunPc.inSession]) (by rw [hpc]; rfl)
      · simp at h
  | publisherPublished =>
      obtain ⟨hconnected, hpublished⟩ : b.connected ∧ b.onPublisherPublished = some b' := by
        simpa [step] using h
      exact moves_onPublisherPublished hconnected hpublished
  | publisherFailed delivered =>
      simp only [step] at h
      split at h
      · rename_i stage capture hpc
        refine moves_giveUp (by simp [hpc, RunPc.inSession]) rfl (.ends _ _) ?_ h
        rintro rfl hflight
        exact hflight
      · simp at h
  | messagesFailed | handlerRaised => exact moves_leaveMessages h
  | cancel delivered => exact moves_onCancel h
  | publisherEnded delivered => exact moves_onPublisherEnded h
  | disconnected => exact moves_onDisconnected h
  | disconnectFailed =>
      simp only [step] at h
      split at h
      · rename_i why hpc
        obtain ⟨hdown, rfl⟩ : b.connected = false ∧ b.leave config .mqttError = b' := by
          simpa using h
        exact .outside (.inr hdown) (by simp [hpc]) rfl (by simp)
      · simp at h
  | retried =>
      simp only [step] at h
      split at h
      · rename_i due hpc
        obtain ⟨-, rfl⟩ : due ≤ b.system.now ∧ _ = b' := by simpa using h
        exact moves_outside (by simp [hpc, RunPc.inSession]) (by simp [hpc]) rfl (by simp)
      · simp at h
  | lost delivered =>
      obtain ⟨hconnected, rfl⟩ : b.connected ∧ _ = b' := by simpa [step] using h
      exact .loses hconnected
  | willed =>
      obtain ⟨⟨hdown, hsession⟩, rfl⟩ : (b.connected = false ∧ b.broker.session) ∧ _ = b' := by
        simpa [step] using h
      exact .wills hdown hsession

end Bridge

end Bedjet.Integrations
