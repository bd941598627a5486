import Bedjet.Integrations.BridgeSteps

/-!
The order in which snapshots reach the state topic. The queue is in the order in
which they were taken, and so is what it feeds; only the snapshot that begins a
session overtakes what is still queued.
-/

namespace Bedjet.Integrations

open Python Protocol Device Service Asyncio Api

namespace Bridge

variable {cfg : Config} {config : MqttConfig} {b b' : Bridge} {s' : System}

/-- Each snapshot published was taken no earlier than those published before. -/
def Forward (b : Bridge) : Prop :=
  b.broker.states.Pairwise fun later earlier => earlier.time ≤ later.time

/-- Nothing older is queued when a session begins with a fresh snapshot. -/
def catchesUp (b : Bridge) : BridgeAction → Bool
  | .subscribed => b.queue.entries.all fun capture => b.system.now ≤ capture.time
  | _ => true

/-- The snapshot being published, over a connection that is up. -/
def flying (b : Bridge) : List Capture :=
  match b.connected, b.pc.flight with
  | true, some (.half _ capture) => [capture]
  | _, _ => []

/-- What was published, is being published and is to be published. -/
def timeline (b : Bridge) : List Capture :=
  b.broker.states.reverse ++ b.flying ++ b.queue.entries

/-- The timeline is in order, up to now. -/
structure Chronological (b : Bridge) : Prop where
  ordered : b.timeline.Pairwise fun earlier later => earlier.time ≤ later.time
  past : ∀ capture ∈ b.timeline, capture.time ≤ b.system.now

theorem Chronological.sublist (h : b.Chronological) (hsub : b'.timeline.Sublist b.timeline)
    (hnow : b.system.now ≤ b'.system.now) : b'.Chronological where
  ordered := h.ordered.sublist hsub
  past capture hcapture := (h.past capture (hsub.subset hcapture)).trans hnow

theorem Chronological.forward (h : b.Chronological) : b.Forward := by
  have hordered := h.ordered
  rw [timeline, List.append_assoc] at hordered
  have hstates := (List.pairwise_append.mp hordered).1
  rwa [List.pairwise_reverse] at hstates

theorem chronological_initial : Chronological {} where
  ordered := by simp [timeline, flying, Queue.empty]
  past := by simp [timeline, flying, Queue.empty]

/-! ### What a step does to the timeline -/

theorem now_le_step {s s' : System} {a : Action} (h : (System.machine cfg).step s a = some s') :
    s.now ≤ s'.now := by
  by_cases hpass : ∃ dt, a = .pass dt
  · obtain ⟨dt, rfl⟩ := hpass
    obtain ⟨hdt, rfl⟩ : 0 ≤ dt ∧ _ = s' := by simpa [System.machine, System.step] using h
    show s.now ≤ s.now + dt
    linarith
  · exact (System.now_step h fun dt ha => hpass ⟨dt, ha⟩).ge

/-- A new entry is the newest; the queue may lose its oldest for it. -/
theorem Chronological.enqueue (h : b.Chronological) (hnow : b.system.now ≤ s'.now) :
    ({ b with system := s' }.enqueue (.of cfg s')).Chronological := by
  obtain ⟨kept, hkept, hentries⟩ := b.queue.putNewest_entries (by decide) (.of cfg s')
  have htimeline : ({ b with system := s' }.enqueue (.of cfg s')).timeline =
      (b.broker.states.reverse ++ b.flying ++ kept) ++ [.of cfg s'] := by
    show b.broker.states.reverse ++ b.flying ++
      (b.queue.putNewest (by decide) (.of cfg s')).entries = _
    rw [hentries, List.append_assoc _ kept]
  have hsub : (b.broker.states.reverse ++ b.flying ++ kept).Sublist b.timeline :=
    List.Sublist.append_left hkept.sublist _
  have hpast (capture : Capture)
      (hcapture : capture ∈ b.broker.states.reverse ++ b.flying ++ kept) :
      capture.time ≤ s'.now :=
    (h.past capture (hsub.subset hcapture)).trans hnow
  constructor
  · rw [htimeline, List.pairwise_append]
    refine ⟨h.ordered.sublist hsub, List.pairwise_singleton _ _, ?_⟩
    intro capture hcapture fresh hfresh
    obtain rfl := List.mem_singleton.mp hfresh
    exact hpast capture hcapture
  · intro capture hcapture
    rw [htimeline] at hcapture
    rcases List.mem_append.mp hcapture with hcapture | hfresh
    · exact hpast capture hcapture
    · obtain rfl := List.mem_singleton.mp hfresh
      exact le_rfl

theorem Chronological.observe (h : b.Chronological) (hnow : b.system.now ≤ s'.now) :
    (b.observe cfg s').Chronological := by
  rw [Bridge.observe]
  split
  · exact h.enqueue hnow
  · apply h.sublist ?_ hnow
    exact List.Sublist.refl b.timeline

theorem flying_of_flight (hflight : b.pc.flight = none) : b.flying = [] := by
  rw [flying, hflight]
  cases b.connected <;> rfl

theorem flying_of_down (hdown : b.connected = false) : b.flying = [] := by
  rw [flying, hdown]

/-- What arrives was in flight. -/
theorem states_deliverIf {delivered : Bool} (hdelivered : delivered → b.connected) :
    (b.deliverIf delivered).broker.states.reverse.Sublist
      (b.broker.states.reverse ++ b.flying) := by
  rcases b.deliverIf_cases delivered with ⟨htrue, heq⟩ | ⟨-, heq⟩
  · have hconnected := hdelivered htrue
    rw [heq, deliver]
    split
    · rename_i flight hflight
      cases flight with
      | half stage capture =>
          cases stage with
          | availability => exact List.sublist_append_left _ _
          | state => simp [Broker.receive, flying, hconnected, hflight]
      | goodbye => exact List.sublist_append_left _ _
    · exact List.sublist_append_left _ _
  · rw [heq]
    exact List.sublist_append_left _ _

/-- Nothing is in flight after the step. -/
theorem timeline_of_landed
    (hstates : b'.broker.states.reverse.Sublist (b.broker.states.reverse ++ b.flying))
    (hflying : b'.flying = []) (hqueue : b'.queue = b.queue) :
    b'.timeline.Sublist b.timeline := by
  rw [timeline, timeline, hflying, List.append_nil, hqueue]
  exact List.Sublist.append_right hstates _

theorem states_self (b : Bridge) :
    b.broker.states.reverse.Sublist (b.broker.states.reverse ++ b.flying) :=
  List.sublist_append_left _ _

theorem timeline_goes {pc : RunPc} {delivered : Bool} (hdelivered : delivered → b.connected)
    (hnext : Flight.Next delivered b.pc.flight pc.flight) :
    ((b.deliverIf delivered).goto pc).timeline.Sublist b.timeline := by
  have hstates := states_deliverIf hdelivered
  have hqueue : ((b.deliverIf delivered).goto pc).queue = b.queue := queue_deliverIf b delivered
  generalize hbefore : b.pc.flight = flight at hnext
  generalize hafter : pc.flight = flight' at hnext
  cases hnext with
  | stays =>
      have hsame : (b.goto pc).flying = b.flying := by
        simp [flying, goto, hafter, hbefore]
      have htimeline : (b.goto pc).timeline = b.timeline := by
        rw [timeline, timeline, hsame]
        rfl
      exact htimeline ▸ List.Sublist.refl (b.goto pc).timeline
  | ends => exact timeline_of_landed hstates (flying_of_flight hafter) hqueue
  | departs =>
      have hgoodbye : ((b.deliverIf delivered).goto pc).flying = [] := by
        have hflight : ((b.deliverIf delivered).goto pc).pc.flight = some .goodbye := hafter
        rw [flying, hflight]
        cases ((b.deliverIf delivered).goto pc).connected <;> rfl
      exact timeline_of_landed hstates hgoodbye hqueue
  | halves capture =>
      -- its state is published next
      have hconnected := hdelivered rfl
      have hsame : (b.deliver.goto pc).flying = b.flying := by
        simp [flying, goto, hafter, hbefore, hconnected]
      have htimeline : (b.deliver.goto pc).timeline = b.timeline := by
        rw [timeline, timeline, hsame]
        simp [goto, deliver, hbefore, Broker.receive]
      exact htimeline ▸ List.Sublist.refl (b.deliver.goto pc).timeline

theorem timeline_takes {delivered : Bool} (hdelivered : delivered → b.connected) :
    (b.deliverIf delivered).publishNext.timeline.Sublist b.timeline := by
  have hstates := states_deliverIf hdelivered
  have hqueue : (b.deliverIf delivered).queue = b.queue := queue_deliverIf b delivered
  rw [publishNext]
  split
  · -- the oldest entry goes from the queue into flight
    rename_i capture queue hget
    rw [hqueue] at hget
    have hentries := Queue.get?_eq_some hget
    let b' : Bridge :=
      { b.deliverIf delivered with
        queue
        pc := .serving (.publishing .availability capture) }
    have hflying : b'.flying.Sublist [capture] := by
      rw [flying]
      cases b'.connected with
      | true => exact List.Sublist.refl [capture]
      | false => exact List.nil_sublist [capture]
    show (b'.broker.states.reverse ++ b'.flying ++ queue.entries).Sublist _
    rw [timeline, hentries, ← List.singleton_append, ← List.append_assoc]
    exact List.Sublist.append_right (hstates.append hflying) _
  · exact timeline_of_landed hstates (flying_of_flight rfl) hqueue

/-- A session begins with the snapshot of the moment. -/
theorem Chronological.greets (h : b.Chronological) (hpc : b.pc = .subscribing)
    (hok : b.catchesUp .subscribed) :
    (b.goto (.greeting .availability (.of cfg b.system))).Chronological := by
  have hempty : b.flying = [] := flying_of_flight (by rw [hpc]; rfl)
  have hordered := h.ordered
  have hpast := h.past
  simp only [timeline, hempty, List.append_nil] at hordered hpast
  obtain ⟨hstates, hqueue, hcross⟩ := List.pairwise_append.mp hordered
  have hlate (capture : Capture) (hcapture : capture ∈ b.queue.entries) :
      b.system.now ≤ capture.time := by
    have hall := List.all_eq_true.mp hok capture hcapture
    exact of_decide_eq_true hall
  have hflying : (b.goto (.greeting .availability (.of cfg b.system))).flying.Sublist
      [.of cfg b.system] := by
    rw [flying]
    cases (b.goto (.greeting .availability (.of cfg b.system))).connected with
    | true => exact List.Sublist.refl _
    | false => exact List.nil_sublist _
  have hsub : (b.goto (.greeting .availability (.of cfg b.system))).timeline.Sublist
      (b.broker.states.reverse ++ [.of cfg b.system] ++ b.queue.entries) :=
    List.Sublist.append_right (List.Sublist.append_left hflying _) _
  constructor
  · refine List.Pairwise.sublist hsub ?_
    rw [List.pairwise_append, List.pairwise_append]
    refine ⟨⟨hstates, List.pairwise_singleton _ _, ?_⟩, hqueue, ?_⟩
    · intro capture hcapture fresh hfresh
      obtain rfl := List.mem_singleton.mp hfresh
      exact hpast capture (List.mem_append_left _ hcapture)
    · intro earlier hearlier later hlater
      rcases List.mem_append.mp hearlier with hearlier | hfresh
      · exact hcross earlier hearlier later hlater
      · obtain rfl := List.mem_singleton.mp hfresh
        exact hlate later hlater
  · intro capture hcapture
    rcases List.mem_append.mp (hsub.subset hcapture) with hcapture | hcapture
    · rcases List.mem_append.mp hcapture with hcapture | hfresh
      · exact hpast capture (List.mem_append_left _ hcapture)
      · obtain rfl := List.mem_singleton.mp hfresh
        exact le_rfl
    · exact hpast capture (List.mem_append_right _ hcapture)

theorem timeline_connects :
    ({ b with connected := true, broker := b.broker.accept }.beginSession config).timeline.Sublist
      b.timeline := by
  have hstates : b.broker.accept.states = b.broker.states := by
    rw [Broker.accept]
    split <;> rfl
  apply timeline_of_landed
  · show b.broker.accept.states.reverse.Sublist _
    rw [hstates]
    exact b.states_self
  · apply flying_of_flight
    rw [beginSession]
    split <;> rfl
  · rfl

theorem timeline_closes (why : Leaving) :
    ({ b with connected := false, broker := b.broker.close }.leave config why).timeline.Sublist
      b.timeline := by
  cases why with
  | mqttError => exact timeline_of_landed b.states_self (flying_of_down rfl) rfl
  | cancelled | raised => exact timeline_of_landed b.states_self (flying_of_down rfl) rfl

theorem Chronological.moves (h : b.Chronological) {a : BridgeAction} (hok : b.catchesUp a)
    (hmoves : Moves cfg config b a b') : b'.Chronological := by
  cases hmoves with
  | serves hstep => exact h.observe (now_le_step hstep)
  | outside hdown hgoes hout hcalled =>
      apply h.sublist
      · exact timeline_of_landed b.states_self (flying_of_flight (flight_of_out hout)) rfl
      · exact le_rfl
  | connects hpc =>
      apply h.sublist timeline_connects
      exact le_rfl
  | goes hin hstays hdelivered hnext =>
      apply h.sublist (timeline_goes hdelivered hnext)
      simp [goto]
  | greets hpc hconnected => exact h.greets hpc hok
  | takes hin hdelivered =>
      apply h.sublist (timeline_takes hdelivered)
      rw [system_publishNext, system_deliverIf]
  | @closes why hpc hconnected =>
      apply h.sublist (timeline_closes why)
      cases why <;> exact le_rfl
  | loses hconnected =>
      apply h.sublist
      · exact timeline_of_landed (states_deliverIf fun _ => hconnected) (flying_of_down rfl)
          (queue_deliverIf b _)
      · simp
  | wills hdown hsession =>
      apply h.sublist
      · exact List.Sublist.refl b.timeline
      · exact le_rfl

/-- In a run in which nothing older is queued whenever a session begins, the
snapshots reach the state topic in the order in which they were taken. -/
theorem published_state_goes_forward {actions : List BridgeAction}
    (hok : (machine cfg config).Meets (fun b a => b.catchesUp a) {} actions) :
    (machine cfg config).Always Forward {} actions := by
  refine Machine.always_of_meets (I := Chronological) ?_ ?_ chronological_initial hok
  · intro b a b' hI hallowed hstep
    exact hI.moves hallowed (step_moves hstep)
  · exact fun b hI => hI.forward

/-- A session, and the link coming up while it lasts. -/
def linkComesUp : List BridgeAction :=
  [.run, .connected, .subscribed, .published, .published, .begun, .service .start,
    .service (.pass 1), .service (.link 0 .connected), .service (.link 0 .subscribed), .took,
    .publisherPublished, .publisherPublished, .publisherPublished, .publisherPublished]

theorem published_state_goes_forward_linkComesUp :
    (machine {} { discovery := false }).Always Forward {} linkComesUp :=
  published_state_goes_forward (by decide +kernel)

def sessionStartsFirst : List BridgeAction :=
  [.run, .service .start, .service (.pass 1), .connected, .subscribed, .published, .published,
    .begun, .publisherPublished, .publisherPublished]

/-- Whether the state published last is older than the one before it. -/
def wentBack (b : Bridge) : Bool :=
  match b.broker.states with
  | later :: earlier :: _ => later.time < earlier.time
  | _ => false

/-- The session is started before the broker answers: the snapshot of that moment is
published after the one that begins the session. -/
theorem published_state_can_go_back :
    ¬∀ (cfg : Config) (config : MqttConfig) (b : Bridge),
      (∃ actions, (machine cfg config).run {} actions = some b) → b.Forward := by
  intro hall
  have hany : ((machine {} { discovery := false }).run {} sessionStartsFirst).any wentBack := by
    decide +kernel
  obtain ⟨b, hrun, hcheck⟩ := Machine.exists_of_run_any hany
  have hforward := hall {} { discovery := false } b ⟨_, hrun⟩
  unfold wentBack at hcheck
  split at hcheck
  · rename_i later earlier rest hstates
    rw [Forward, hstates] at hforward
    have hle : earlier.time ≤ later.time :=
      (List.pairwise_cons.mp hforward).1 earlier List.mem_cons_self
    have hlt : later.time < earlier.time := of_decide_eq_true hcheck
    linarith
  · simp at hcheck

end Bridge

end Bedjet.Integrations
