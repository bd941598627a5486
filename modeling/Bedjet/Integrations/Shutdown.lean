import Bedjet.Integrations.Serving

/-!
How the bridge shuts down: its task is cancelled while it serves messages. It is
to say goodbye and to end by that cancellation. What takes the cancellation from
it is the `MqttError` of a publisher that has died, raised where the publisher is
awaited, and the reader's `stop`, which cannot tell whose cancellation it sees.
-/

namespace Bedjet.Integrations

open Python Protocol Device Service Asyncio Api

/-- On the way out of `run`. -/
def RunPc.departs : RunPc → Bool
  | .awaitingPublisher _ _ | .sayingGoodbye _ | .disconnecting _ | .ended => true
  | .uncalled | .connecting | .announcing _ | .subscribing | .greeting _ _ | .serving _
  | .retrying _ => false

/-! ### The way out of `run` -/

namespace Bridge

/-- There is no second cancellation, the goodbye does not fail, and the client
disconnects cleanly. -/
def Undisturbed (b : Bridge) : BridgeAction → Prop
  | .cancel _ | .disconnectFailed => False
  | .publishFailed _ => ∀ why, b.pc ≠ .sayingGoodbye why
  | _ => True

/-- What an undisturbed step of the bridge can do on the way out. -/
inductive Exits (config : MqttConfig) (b : Bridge) : Bridge → Prop
  | loses (delivered : Bool) : Exits config b { b.deliverIf delivered with connected := false }
  | wills : Exits config b { b with broker := b.broker.goOffline.close }
  | parts {publisher : Publisher} {why : Leaving} (hpc : b.pc = .awaitingPublisher publisher why)
      (delivered : Bool) : Exits config b ((b.deliverIf delivered).goto (.sayingGoodbye why))
  | announces {why : Leaving} (hpc : b.pc = .sayingGoodbye why) :
      Exits config b (b.deliver.goto (.disconnecting why))
  | leaves {why : Leaving} (hpc : b.pc = .disconnecting why) {broker : Broker}
      (hkept : broker.availability = b.broker.availability) :
      Exits config b ({ b with connected := false, broker }.leave config why)

/-- Cancelled, and with nothing to come that would take the cancellation away. -/
def Departing (b : Bridge) : Prop :=
  match b.pc with
  | .awaitingPublisher _ .cancelled | .sayingGoodbye .cancelled => True
  | .disconnecting .cancelled | .ended => b.broker.availability = some offline
  | _ => False

variable {cfg : Config} {config : MqttConfig} {b b' : Bridge} {a : BridgeAction}

theorem exits_of_step (hdeparts : b.pc.departs) (hok : b.Undisturbed a)
    (hservice : ∀ a', a ≠ .service a') (hstep : b.step cfg config a = some b') :
    Exits config b b' := by
  cases a with
  | service a => exact absurd rfl (hservice a)
  | cancel | disconnectFailed => exact hok.elim
  | lost delivered =>
      obtain ⟨-, rfl⟩ : b.connected ∧ _ = b' := by simpa [step] using hstep
      exact .loses delivered
  | willed =>
      obtain ⟨-, rfl⟩ : (b.connected = false ∧ b.broker.session) ∧ _ = b' := by
        simpa [step] using hstep
      exact .wills
  | publisherEnded delivered =>
      simp only [step, onPublisherEnded] at hstep
      split at hstep
      · rename_i publisher why hpc
        obtain ⟨b₁, hgive, rfl⟩ := Option.map_eq_some_iff.mp hstep
        obtain ⟨-, rfl⟩ := giveUp_eq_some hgive
        exact .parts hpc delivered
      · simp at hstep
  | published =>
      cases hpc : b.pc with
      | sayingGoodbye why =>
          obtain ⟨-, rfl⟩ : b.connected ∧ _ = b' := by simpa [step, onPublished, hpc] using hstep
          exact .announces hpc
      | _ => simp [step, onPublished, hpc, RunPc.departs] at hstep hdeparts
  | publishFailed delivered =>
      cases hpc : b.pc with
      | sayingGoodbye why => exact absurd hpc (hok why)
      | _ => simp [step, onPublishFailed, hpc, RunPc.departs] at hstep hdeparts
  | disconnected =>
      simp only [step, onDisconnected] at hstep
      split at hstep
      · rename_i why hpc
        split at hstep
        · obtain rfl := Option.some.inj hstep
          exact .leaves hpc rfl
        · rename_i hdown
          obtain rfl := Option.some.inj hstep
          have hdown : b.connected = false := by simpa using hdown
          have hexits : Exits config b ({ b with connected := false, broker := b.broker }.leave
              config why) := .leaves hpc rfl
          rw [← hdown] at hexits
          exact hexits
      · simp at hstep
  | _ =>
      -- nothing else happens there
      cases hpc : b.pc <;>
        simp [step, onPublisherPublished, leaveMessages, hpc, RunPc.departs] at hstep hdeparts

theorem departs_of_departing (h : b.Departing) : b.pc.departs := by
  cases hpc : b.pc <;> simp_all [Departing, RunPc.departs]

/-- The availability that is retained after a goodbye stays what it is. -/
theorem availability_deliverIf (hflight : b.pc.flight = none) (delivered : Bool) :
    (b.deliverIf delivered).broker.availability = b.broker.availability := by
  cases delivered with
  | false => rfl
  | true =>
      show b.deliver.broker.availability = _
      rw [deliver, hflight]

theorem Departing.stays (h : b.Departing) (hpc : b'.pc = b.pc)
    (hoffline : b'.broker.availability = b.broker.availability ∨
      b'.broker.availability = some offline) : b'.Departing := by
  have hkept (hb : b.broker.availability = some offline) :
      b'.broker.availability = some offline := hoffline.elim (·.trans hb) id
  unfold Departing at h ⊢
  rw [hpc]
  split at h
  · trivial
  · trivial
  · exact hkept h
  · exact hkept h
  · exact h.elim

theorem Departing.why (h : b.Departing) {why : Leaving}
    (hpc : (∃ publisher, b.pc = .awaitingPublisher publisher why) ∨ b.pc = .sayingGoodbye why ∨
      b.pc = .disconnecting why) : why = .cancelled := by
  obtain ⟨publisher, hpc⟩ | hpc | hpc := hpc <;> cases why <;> simp_all [Departing]

/-- Until the publisher has ended, nothing is said of the availability that the
goodbye would not take back. -/
theorem Departing.loses (h : b.Departing) (delivered : Bool) :
    Departing { b.deliverIf delivered with connected := false } := by
  cases hpc : b.pc with
  | awaitingPublisher publisher why =>
      obtain rfl := h.why (.inl ⟨publisher, hpc⟩)
      simp [Departing, hpc]
  | sayingGoodbye why =>
      obtain rfl := h.why (.inr (.inl hpc))
      simp [Departing, hpc]
  | disconnecting why =>
      exact h.stays (pc_deliverIf b delivered)
        (.inl (availability_deliverIf (by rw [hpc]; rfl) delivered))
  | ended =>
      exact h.stays (pc_deliverIf b delivered)
        (.inl (availability_deliverIf (by rw [hpc]; rfl) delivered))
  | _ => simp [Departing, hpc] at h

/-- A bridge on its way out stays there, until it has ended by the cancellation. -/
theorem Departing.exits (h : b.Departing) (hexits : Exits config b b') :
    b'.Departing ∧ (b'.pc = .ended → b.pc = .ended ∨ b.pc.endsBy b'.pc = some .cancelled) := by
  cases hexits with
  | loses delivered =>
      exact ⟨h.loses delivered, fun hended => .inl ((pc_deliverIf b delivered).symm.trans hended)⟩
  | wills => exact ⟨h.stays rfl (.inr rfl), fun hended => .inl hended⟩
  | @parts publisher why hpc delivered =>
      obtain rfl := h.why (.inl ⟨publisher, hpc⟩)
      exact ⟨trivial, fun hended => by simp [goto] at hended⟩
  | @announces why hpc =>
      obtain rfl := h.why (.inr (.inl hpc))
      have hsaid : b.deliver.broker.availability = some offline := by
        rw [deliver, hpc]
        rfl
      exact ⟨hsaid, fun hended => by simp [goto] at hended⟩
  | @leaves why hpc broker hkept =>
      obtain rfl := h.why (.inr (.inr hpc))
      have hoffline : b.broker.availability = some offline := by
        simpa [Departing, hpc] using h
      refine ⟨hkept.trans hoffline, fun _ => .inr ?_⟩
      rw [hpc]
      rfl

end Bridge

/-! ### The bridge with its message loop -/

namespace Serving

def Undisturbed (s : Serving) : ServingAction → Prop
  | .bridge a => s.bridge.Undisturbed a
  | .message _ _ _ | .reported => True

section

variable (cfg : Config) (config : MqttConfig) (decimal : Char → Option ℕ)

/-- An undisturbed run leads from the one state to the other. -/
def Leads (s t : Serving) : Prop :=
  ∃ actions, (machine cfg config decimal).run s actions = some t ∧
    (machine cfg config decimal).Meets Undisturbed s actions

/-- `run` is on its way out and stays there; where it has ended, it was by
cancellation and the last that was said of its availability is that it is
offline; and while the connection is up it can end. -/
structure ShutsDown (s : Serving) : Prop where
  departs : ∀ t, Leads cfg config decimal s t → t.bridge.pc.departs
  goodbye : ∀ t, Leads cfg config decimal s t → t.bridge.pc = .ended →
    t.bridge.broker.availability = some offline ∧ t.ending = some .cancelled
  ends : ∀ t, Leads cfg config decimal s t → t.bridge.connected →
    ∃ u, Leads cfg config decimal t u ∧ u.bridge.pc = .ended

end

/-- The cancellation would be raised within the reader's `stop`. -/
def suppresses (s : Serving) : Bool :=
  match s.handler with
  | .awaitsYield _ t => (s.bridge.system.lease.tasks[t]?).any (·.pc.swallows)
  | _ => false

/-- The bridge is on its way out, or has ended by the cancellation. -/
structure Departing (s : Serving) : Prop where
  bridge : s.bridge.Departing
  ending : s.bridge.pc = .ended → s.ending = some .cancelled

variable {cfg : Config} {config : MqttConfig} {decimal : Char → Option ℕ} {s s' : Serving}
  {a : ServingAction}

theorem leaveMessages_eq_none (h : s.bridge.pc.departs) (why : Leaving) :
    s.leaveMessages why = none := by
  cases hpc : s.bridge.pc <;>
    simp [leaveMessages, Bridge.leaveMessages, hpc, RunPc.departs] at h ⊢

/-- A step of the service changes nothing on the way out. -/
theorem Departing.heard (h : s.Departing) {m : Messaging} (hheard : s.heard cfg m = some s') :
    s'.Departing := by
  have hpc : (s.bridge.observe cfg m.system).pc = s.bridge.pc := Bridge.pc_observe _
  have hobserved : (s.bridge.observe cfg m.system).Departing :=
    h.bridge.stays hpc (.inl (by rw [Bridge.broker_observe]))
  simp only [Serving.heard] at hheard
  split at hheard
  · rw [leaveMessages_eq_none (Bridge.departs_of_departing hobserved)] at hheard
    simp at hheard
  · obtain rfl := Option.some.inj hheard
    exact ⟨hobserved, fun hended => h.ending (hpc.symm.trans hended)⟩

theorem Departing.follow (h : s.Departing) {bridge : Bridge}
    (hexits : s.bridge.Exits config bridge) : (s.follow bridge).Departing := by
  obtain ⟨hbridge, hended⟩ := h.bridge.exits hexits
  refine ⟨hbridge, fun hpc => ?_⟩
  obtain hbefore | hby := hended hpc
  · have hending := h.ending hbefore
    have hpc : bridge.pc = .ended := hpc
    simp [Serving.follow, hbefore, hpc, RunPc.endsBy, hending]
  · simp [Serving.follow, hby]

theorem Departing.step (h : s.Departing) (hok : s.Undisturbed a)
    (hstep : (machine cfg config decimal).step s a = some s') : s'.Departing := by
  have hdeparts := Bridge.departs_of_departing h.bridge
  have hstep : s.step cfg config decimal a = some s' := hstep
  cases a with
  | reported =>
      simp only [Serving.step, Option.ite_none_right_eq_some] at hstep
      obtain ⟨-, hstep⟩ := hstep
      obtain rfl := Option.some.inj hstep
      exact ⟨h.bridge, h.ending⟩
  | message topic payload span =>
      simp only [Serving.step] at hstep
      split at hstep
      · rename_i publisher hpc _ _
        simp [hpc, RunPc.departs] at hdeparts
      · simp at hstep
  | bridge a =>
      have hstep : s.bridgeStep cfg config decimal a = some s' := hstep
      have hok : s.bridge.Undisturbed a := hok
      cases a with
      | service a =>
          simp only [bridgeStep, Option.ite_none_left_eq_some, Option.bind_eq_some_iff] at hstep
          obtain ⟨-, m, -, hheard⟩ := hstep
          exact h.heard hheard
      | cancel | disconnectFailed => exact hok.elim
      | handlerRaised => simp [bridgeStep] at hstep
      | messagesFailed =>
          simp only [bridgeStep, leaveMessages_eq_none hdeparts] at hstep
          split at hstep <;> simp at hstep
      | _ =>
          obtain ⟨bridge, hbridge, rfl⟩ := Option.map_eq_some_iff.mp hstep
          exact h.follow (Bridge.exits_of_step hdeparts hok (by simp) hbridge)

theorem Departing.leads (h : s.Departing) (hleads : Leads cfg config decimal s s') :
    s'.Departing := by
  obtain ⟨actions, hrun, hok⟩ := hleads
  exact Machine.run_invariant (fun _ _ _ h hok hstep => Departing.step h hok hstep) h hok hrun

/-! ### The end is in reach -/

theorem Leads.refl (s : Serving) : Leads cfg config decimal s s :=
  ⟨[], rfl, trivial⟩

theorem Leads.head {t u : Serving} (hstep : (machine cfg config decimal).step s a = some t)
    (hok : s.Undisturbed a) (h : Leads cfg config decimal t u) : Leads cfg config decimal s u := by
  obtain ⟨actions, hrun, hmeets⟩ := h
  refine ⟨a :: actions, Machine.run_cons_eq_some.mpr ⟨t, hstep, hrun⟩, hok, fun t' ht' => ?_⟩
  obtain rfl : t = t' := by simpa [hstep] using ht'
  exact hmeets

/-- `Client.__aexit__` ends. -/
theorem leads_of_disconnecting {why : Leaving} (hpc : s.bridge.pc = .disconnecting why) :
    ∃ b : Bridge, Leads cfg config decimal s (s.follow (b.leave config why)) := by
  obtain ⟨b, hstep⟩ : ∃ b : Bridge,
      s.bridge.step cfg config .disconnected = some (b.leave config why) := by
    simp only [Bridge.step, Bridge.onDisconnected, hpc]
    by_cases hconnected : s.bridge.connected
    · rw [if_pos hconnected]
      exact ⟨_, rfl⟩
    · rw [if_neg hconnected]
      exact ⟨_, rfl⟩
  have hfollow : (machine cfg config decimal).step s (.bridge .disconnected) =
      some (s.follow (b.leave config why)) := by
    show (s.bridge.step cfg config .disconnected).map s.follow = _
    rw [hstep]
    rfl
  exact ⟨b, .head hfollow trivial (.refl _)⟩

theorem ends_of_disconnecting (hpc : s.bridge.pc = .disconnecting .cancelled) :
    ∃ u, Leads cfg config decimal s u ∧ u.bridge.pc = .ended := by
  obtain ⟨b, hleads⟩ := leads_of_disconnecting hpc
  exact ⟨_, hleads, rfl⟩

/-- The goodbye is published. -/
theorem ends_of_sayingGoodbye (hpc : s.bridge.pc = .sayingGoodbye .cancelled)
    (hconnected : s.bridge.connected) :
    ∃ u, Leads cfg config decimal s u ∧ u.bridge.pc = .ended := by
  let t := s.follow (s.bridge.deliver.goto (.disconnecting .cancelled))
  have hstep : (machine cfg config decimal).step s (.bridge .published) = some t := by
    show (s.bridge.step cfg config .published).map s.follow = some t
    simp [Bridge.step, Bridge.onPublished, hconnected, hpc, t]
  obtain ⟨u, hleads, hended⟩ := ends_of_disconnecting (s := t) rfl
  exact ⟨u, .head hstep trivial hleads, hended⟩

/-- The publisher ends. -/
theorem ends_of_awaitingPublisher {publisher : Publisher}
    (hpc : s.bridge.pc = .awaitingPublisher publisher .cancelled)
    (hconnected : s.bridge.connected) :
    ∃ u, Leads cfg config decimal s u ∧ u.bridge.pc = .ended := by
  let t := s.follow (s.bridge.goto (.sayingGoodbye .cancelled))
  have hstep : (machine cfg config decimal).step s (.bridge (.publisherEnded false)) = some t := by
    show (s.bridge.step cfg config (.publisherEnded false)).map s.follow = some t
    simp [Bridge.step, Bridge.onPublisherEnded, Bridge.giveUp, hpc, t]
  obtain ⟨u, hleads, hended⟩ := ends_of_sayingGoodbye (s := t) rfl hconnected
  exact ⟨u, .head hstep trivial hleads, hended⟩

theorem Departing.ends (h : s.Departing) (hconnected : s.bridge.connected) :
    ∃ u, Leads cfg config decimal s u ∧ u.bridge.pc = .ended := by
  have hbridge := h.bridge
  unfold Bridge.Departing at hbridge
  split at hbridge
  · rename_i publisher hpc
    exact ends_of_awaitingPublisher hpc hconnected
  · rename_i hpc
    exact ends_of_sayingGoodbye hpc hconnected
  · rename_i hpc
    exact ends_of_disconnecting hpc
  · rename_i hpc
    exact ⟨s, .refl s, hpc⟩
  · exact hbridge.elim

theorem Departing.shutsDown (h : s.Departing) : ShutsDown cfg config decimal s where
  departs _ hleads := Bridge.departs_of_departing (h.leads hleads).bridge
  goodbye t hleads hended := by
    have ht := h.leads hleads
    have hbridge := ht.bridge
    simp only [Bridge.Departing, hended] at hbridge
    exact ⟨hbridge, ht.ending hended⟩
  ends _ hleads hconnected := (h.leads hleads).ends hconnected

/-! ### The cancellation -/

/-- A publisher that is alive ends by its own cancellation. -/
theorem departing_leaveMessages {publisher : Publisher}
    (hpc : s.bridge.pc = .serving publisher) (halive : publisher ≠ .failed)
    (h : s.leaveMessages .cancelled = some s') : s'.Departing := by
  obtain ⟨bridge, hleave, rfl⟩ := Option.map_eq_some_iff.mp h
  simp only [Bridge.leaveMessages, hpc] at hleave
  cases publisher with
  | failed => exact absurd rfl halive
  | _ =>
      obtain rfl := Option.some.inj hleave
      exact ⟨trivial, fun hended => by simp [Bridge.goto] at hended⟩

/-- After an `MqttError`, `run` is about to connect again. -/
theorem not_shutsDown_of_mqttError (hpc : s.bridge.pc = .disconnecting .mqttError) :
    ¬ShutsDown cfg config decimal s := by
  intro hshuts
  obtain ⟨b, hleads⟩ := leads_of_disconnecting hpc
  have hdeparts := hshuts.departs _ hleads
  simp [follow, Bridge.leave, Bridge.goto, RunPc.departs] at hdeparts

/-- One that has failed raises its `MqttError`, past the goodbye. -/
theorem mqttError_leaveMessages {why : Leaving} (hpc : s.bridge.pc = .serving .failed)
    (h : s.leaveMessages why = some s') : s'.bridge.pc = .disconnecting .mqttError := by
  obtain ⟨bridge, hleave, rfl⟩ := Option.map_eq_some_iff.mp h
  simp only [Bridge.leaveMessages, hpc] at hleave
  obtain rfl := Option.some.inj hleave
  rfl

theorem shutsDown_leaveMessages_iff {publisher : Publisher}
    (h : s.leaveMessages .cancelled = some s') (hpc : s.bridge.pc = .serving publisher) :
    ShutsDown cfg config decimal s' ↔ publisher ≠ .failed := by
  constructor
  · rintro hshuts rfl
    exact not_shutsDown_of_mqttError (mqttError_leaveMessages hpc h) hshuts
  · exact fun halive => (departing_leaveMessages hpc halive h).shutsDown

theorem not_shutsDown_of_serving {publisher : Publisher}
    (hpc : s.bridge.pc = .serving publisher) : ¬ShutsDown cfg config decimal s := by
  intro hshuts
  have hdeparts := hshuts.departs s (.refl s)
  simp [hpc, RunPc.departs] at hdeparts

/-- `yield_link` raises the cancellation, unless it is in the reader's `stop`. -/
theorem shutsDown_cancelYield_iff {publisher : Publisher} {t : ℕ}
    (hpc : s.bridge.pc = .serving publisher) (h : s.cancelYield cfg t = some s') :
    ShutsDown cfg config decimal s' ↔ publisher ≠ .failed ∧
      ¬(s.bridge.system.lease.tasks[t]?).any (·.pc.swallows) := by
  obtain ⟨k, hk, h⟩ := Option.bind_eq_some_iff.mp h
  obtain ⟨lease, hlease, h⟩ := Option.bind_eq_some_iff.mp h
  have hobserved : (s.bridge.observe cfg (s.bridge.system.setLease lease)).pc =
      .serving publisher := (Bridge.pc_observe _).trans hpc
  by_cases hswallows : k.pc.swallows
  · have hstays : lease.tasks[t]?.any (·.pc = .raised) = false := by
      cases hchild : k.pc with
      | stoppingReader child =>
          rw [hchild] at hlease
          obtain ⟨k', hk', hnot⟩ := Lease.suppressed_of_cancelTask hk hlease
          simp [hk', hnot]
      | _ => simp [hchild, LinkPc.swallows] at hswallows
    rw [if_neg (by simp [hstays])] at h
    obtain rfl := Option.some.inj h
    refine iff_of_false (not_shutsDown_of_serving hobserved) ?_
    simp [hk, hswallows]
  · obtain ⟨-, k', hk', hraised⟩ :=
      Lease.raised_of_cancelTask hk (by simpa using hswallows) hlease
    rw [if_pos (by simp [hk', hraised])] at h
    rw [shutsDown_leaveMessages_iff h hobserved]
    simp [hk, hswallows]

/-- A bridge that is cancelled while it serves messages says goodbye and stays
down, if and only if its publisher has not died of an `MqttError` and the
cancellation is not raised within the reader's `stop`. -/
theorem cancelled_bridge_shutsDown_iff {publisher : Publisher} {delivered : Bool}
    (hpc : s.bridge.pc = .serving publisher)
    (hcancel : (machine cfg config decimal).step s (.bridge (.cancel delivered)) = some s') :
    ShutsDown cfg config decimal s' ↔ publisher ≠ .failed ∧ ¬s.suppresses := by
  have hcancel : s.onCancel cfg delivered = some s' := hcancel
  cases hhandler : s.handler with
  | awaitsCall name i =>
      let command := s.bridge.system.calls[i]?.bind (·.command)
      have hleave : leaveMessages { s with gone := command.toList ++ s.gone } .cancelled =
          some s' := by
        simpa only [onCancel, hpc, hhandler] using hcancel
      rw [shutsDown_leaveMessages_iff hleave hpc]
      simp [suppresses, hhandler]
  | awaitsYield name t =>
      simp only [onCancel, hpc, hhandler] at hcancel
      rw [shutsDown_cancelYield_iff hpc hcancel]
      simp only [suppresses, hhandler]
  | idle | raised =>
      simp only [onCancel, hpc, hhandler] at hcancel
      rw [shutsDown_leaveMessages_iff hcancel hpc]
      simp [suppresses, hhandler]

/-- `run` connects to the broker, and waits for messages. -/
def untilServing : List ServingAction :=
  [.bridge .run, .bridge .connected, .bridge .published, .bridge .published, .bridge .published,
    .bridge .subscribed, .bridge .published, .bridge .published]

theorem cancelled_bridge_shutsDown_iff_untilServing :
    ∃ s s', (machine {} {} fun _ => none).run {} untilServing = some s ∧
      (machine {} {} fun _ => none).step s (.bridge (.cancel false)) = some s' ∧
        ShutsDown {} {} (fun _ => none) s' := by
  obtain ⟨s, hrun, hpc, hhandler⟩ : ∃ s, (machine {} {} fun _ => none).run {} untilServing =
      some s ∧ s.bridge.pc = .serving .scheduled ∧ s.handler = .idle := ⟨_, rfl, rfl, rfl⟩
  obtain ⟨s', hcancel⟩ : ∃ s', (machine {} {} fun _ => none).step s (.bridge (.cancel false)) =
      some s' := by
    refine ⟨{ s with
      bridge := s.bridge.goto (.awaitingPublisher .scheduled .cancelled)
      handler := .idle, reporting := [] }, ?_⟩
    show s.onCancel {} false = _
    simp [onCancel, hpc, hhandler, leaveMessages, Bridge.leaveMessages]
  refine ⟨s, s', hrun, hcancel, (cancelled_bridge_shutsDown_iff hpc hcancel).mpr ?_⟩
  simp [suppresses, hhandler]

/-- A snapshot is queued, and its publish fails. -/
def publisherDies : List ServingAction :=
  untilServing ++ [.bridge (.service .start), .bridge .begun, .bridge (.publisherFailed false)]

/-- Its publisher has died, and the cancelled bridge connects again. -/
theorem cancelled_bridge_can_go_on :
    ¬∀ (cfg : Config) (config : MqttConfig) (decimal : Char → Option ℕ)
      (actions : List ServingAction) (s s' : Serving) (publisher : Publisher) (delivered : Bool),
      (machine cfg config decimal).run {} actions = some s →
      s.bridge.pc = .serving publisher →
      (machine cfg config decimal).step s (.bridge (.cancel delivered)) = some s' →
        ShutsDown cfg config decimal s' := by
  intro hall
  obtain ⟨s, hrun, hpc, hhandler⟩ : ∃ s, (machine {} {} fun _ => none).run {} publisherDies =
      some s ∧ s.bridge.pc = .serving .failed ∧ s.handler = .idle := ⟨_, rfl, rfl, rfl⟩
  obtain ⟨s', hcancel, hpc'⟩ : ∃ s',
      (machine {} {} fun _ => none).step s (.bridge (.cancel false)) = some s' ∧
        s'.bridge.pc = .disconnecting .mqttError := by
    refine ⟨{ s with
      bridge := s.bridge.goto (.disconnecting .mqttError), handler := .idle, reporting := [] },
      ?_, rfl⟩
    show s.onCancel {} false = _
    simp [onCancel, hpc, hhandler, leaveMessages, Bridge.leaveMessages]
  exact not_shutsDown_of_mqttError hpc' (hall _ _ _ _ _ _ _ _ hrun hpc hcancel)

end Serving

end Bedjet.Integrations
