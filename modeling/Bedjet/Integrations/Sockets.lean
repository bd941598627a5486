import Bedjet.Asyncio.Feed
import Bedjet.Device.Trust
import Bedjet.Integrations.BridgeSteps

/-!
Live state over a WebSocket, and what becomes of the snapshots that the two
adapters queue. A socket has a queue of its own, which the session's listener
fills and a task of its own empties; the bridge has one for all its sessions with
the broker. Neither producer ever waits.
-/

namespace Bedjet.Integrations

open Python Protocol Device Service Asyncio Api

/-! ### The handler of a socket -/

/-- Where `handle_ws` is. -/
inductive SocketPc
  /-- it has not been called -/
  | uncalled
  /-- in `socket.prepare` -/
  | preparing
  /-- reading messages, none of which it heeds -/
  | reading
  /-- awaiting the writer it has cancelled -/
  | awaitingWriter
  /-- in `socket.close` -/
  | closing
  /-- left by what the writer raised, with neither `discard` nor `close` called -/
  | failed
  | ended

/-- The task of `_pump`. -/
inductive Writer
  /-- created, and has not run -/
  | scheduled
  /-- in `pending.get` -/
  | getting
  /-- in `socket.send_json` -/
  | sending (snapshot : DeviceSnapshot)
  | returned
  /-- ended by an exception that `_pump` does not catch -/
  | raised

structure Socket where
  system : System := {}
  pc : SocketPc := .uncalled
  writer : Writer := .scheduled
  pending : Queue DeviceSnapshot 16 := .empty
  /-- `socket.closed` -/
  closed : Bool := false
  /-- what the client has been sent, the newest first -/
  sent : List DeviceSnapshot := []

inductive SocketAction
  | service (action : Action)
  /-- a client asks for the socket -/
  | requested
  | prepared
  /-- `socket.prepare` raises -/
  | prepareFailed
  /-- the writer runs for the first time -/
  | begun
  /-- it is woken by an entry of the queue -/
  | woken
  /-- `send_json` returns, or raises because the socket is closing, or raises something else -/
  | sent
  | sendFailed
  | writerRaised
  /-- the connection is closed -/
  | closed
  /-- there are no more messages, or one is an error, or the handler is cancelled -/
  | messagesEnded
  /-- the writer has ended, or raised, which `await writer` raises again -/
  | writerEnded
  | writerReraised
  /-- `socket.close` is over -/
  | closedOff

namespace Socket

section

variable (cfg : Config) (s : Socket)

theorem maxsize_pos : 0 < 16 := by decide

/-- `on_snapshot` -/
def onSnapshot (snapshot : DeviceSnapshot) : Socket :=
  { s with pending := s.pending.putNewest maxsize_pos snapshot }

/-- Whether `on_snapshot` is subscribed to the session. -/
def listening : Bool :=
  match s.pc with
  | .reading => true
  | _ => false

/-- The service has taken a step. -/
def observe (system : System) : Socket :=
  if s.listening && s.system.notified system then
    { s with system }.onSnapshot (system.snapshot cfg)
  else { s with system }

/-- `_pump` takes the next entry, or waits for one. -/
def pump : Socket :=
  match s.pending.get? with
  | some (snapshot, pending) =>
      { s with pending, writer := if s.closed then .returned else .sending snapshot }
  | none => { s with writer := .getting }

def step : SocketAction → Option Socket
  | .service a => ((System.machine cfg).step s.system a).map (s.observe cfg)
  | .requested =>
      match s.pc with
      | .uncalled => some { s with pc := .preparing }
      | _ => none
  | .prepared =>
      match s.pc with
      | .preparing => some ({ s with pc := .reading }.onSnapshot (s.system.snapshot cfg))
      | _ => none
  | .prepareFailed =>
      match s.pc with
      | .preparing => some { s with pc := .ended }
      | _ => none
  | .begun =>
      match s.pc, s.writer with
      | .reading, .scheduled => some s.pump
      | _, _ => none
  | .woken =>
      match s.pc, s.writer with
      | .reading, .getting => some s.pump
      | _, _ => none
  | .sent =>
      match s.pc, s.writer with
      | .reading, .sending snapshot => some { s with sent := snapshot :: s.sent }.pump
      | _, _ => none
  | .sendFailed =>
      match s.pc, s.writer with
      | .reading, .sending _ => some { s with writer := .returned }
      | _, _ => none
  | .writerRaised =>
      match s.pc, s.writer with
      | .reading, .sending _ | .awaitingWriter, .sending _ => some { s with writer := .raised }
      | _, _ => none
  | .closed => some { s with closed := true }
  | .messagesEnded =>
      match s.pc with
      | .reading => some { s with pc := .awaitingWriter }
      | _ => none
  | .writerEnded =>
      match s.pc, s.writer with
      | .awaitingWriter, .raised => none
      | .awaitingWriter, _ => some { s with pc := .closing, writer := .returned }
      | _, _ => none
  | .writerReraised =>
      match s.pc, s.writer with
      | .awaitingWriter, .raised => some { s with pc := .failed }
      | _, _ => none
  | .closedOff =>
      match s.pc with
      | .closing => some { s with pc := .ended, closed := true }
      | _ => none

end

/-- One socket and the service as one machine. -/
def machine (cfg : Config) : Machine Socket SocketAction where
  step s a := s.step cfg a

/-! ### Its steps -/

variable {cfg : Config} {s s' : Socket}

/-- What a step does to the handler and its writer. -/
inductive Moves (cfg : Config) (s : Socket) : SocketAction → Socket → Prop
  | serves {a : Action} {system : System}
      (hstep : (System.machine cfg).step s.system a = some system) :
      Moves cfg s (.service a) (s.observe cfg system)
  | asks (hpc : s.pc = .uncalled) : Moves cfg s .requested { s with pc := .preparing }
  | joins (hpc : s.pc = .preparing) :
      Moves cfg s .prepared ({ s with pc := .reading }.onSnapshot (s.system.snapshot cfg))
  | fails (hpc : s.pc = .preparing) : Moves cfg s .prepareFailed { s with pc := .ended }
  | begins (hpc : s.pc = .reading) (hwriter : s.writer = .scheduled) : Moves cfg s .begun s.pump
  | wakes (hpc : s.pc = .reading) (hwriter : s.writer = .getting) : Moves cfg s .woken s.pump
  | sends {snapshot : DeviceSnapshot} (hpc : s.pc = .reading)
      (hwriter : s.writer = .sending snapshot) :
      Moves cfg s .sent { s with sent := snapshot :: s.sent }.pump
  | drops {snapshot : DeviceSnapshot} (hpc : s.pc = .reading)
      (hwriter : s.writer = .sending snapshot) :
      Moves cfg s .sendFailed { s with writer := .returned }
  | breaks {snapshot : DeviceSnapshot} (hpc : s.pc = .reading ∨ s.pc = .awaitingWriter)
      (hwriter : s.writer = .sending snapshot) :
      Moves cfg s .writerRaised { s with writer := .raised }
  | closes : Moves cfg s .closed { s with closed := true }
  | leaves (hpc : s.pc = .reading) :
      Moves cfg s .messagesEnded { s with pc := .awaitingWriter }
  | gathers (hpc : s.pc = .awaitingWriter) (hwriter : s.writer ≠ .raised) :
      Moves cfg s .writerEnded { s with pc := .closing, writer := .returned }
  | raises (hpc : s.pc = .awaitingWriter) (hwriter : s.writer = .raised) :
      Moves cfg s .writerReraised { s with pc := .failed }
  | ends (hpc : s.pc = .closing) :
      Moves cfg s .closedOff { s with pc := .ended, closed := true }

theorem step_moves {a : SocketAction} (h : s.step cfg a = some s') : Moves cfg s a s' := by
  cases a with
  | service a =>
      obtain ⟨system, hstep, rfl⟩ := Option.map_eq_some_iff.mp h
      exact .serves hstep
  | closed =>
      obtain rfl := Option.some.inj h
      exact .closes
  | writerEnded =>
      simp only [step] at h
      split at h
      · simp at h
      · rename_i hpc hraised
        obtain rfl := Option.some.inj h
        exact .gathers hpc hraised
      · simp at h
  | writerRaised =>
      simp only [step] at h
      split at h
      · rename_i hpc hwriter
        obtain rfl := Option.some.inj h
        exact .breaks (.inl hpc) hwriter
      · rename_i hpc hwriter
        obtain rfl := Option.some.inj h
        exact .breaks (.inr hpc) hwriter
      · simp at h
  | requested | prepared | prepareFailed | begun | woken | sent | sendFailed | messagesEnded
  | writerReraised | closedOff =>
      simp only [step] at h
      split at h
      · obtain rfl := Option.some.inj h
        constructor <;> assumption
      · simp at h

end Socket

/-! ### What becomes of the snapshots -/

/-- What a step of the bridge does to `_outgoing`. -/
def Bridge.dealings (cfg : Config) (b : Bridge) (a : BridgeAction) (b' : Bridge) :
    List (Dealing Capture) :=
  match a, b.pc with
  | .service _, _ =>
      if b.listening && b.system.notified b'.system then b.queue.putting (.of cfg b'.system)
      else []
  | .begun, _ | .took, _ | .publisherPublished, .serving (.publishing .state _) => b.queue.taking
  | _, _ => []

/-- What a step does to `pending`. -/
def Socket.dealings (cfg : Config) (s : Socket) (a : SocketAction) (s' : Socket) :
    List (Dealing DeviceSnapshot) :=
  match a with
  | .service _ =>
      if s.listening && s.system.notified s'.system then s.pending.putting (s'.system.snapshot cfg)
      else []
  | .prepared => s.pending.putting (s.system.snapshot cfg)
  | .begun | .woken | .sent => s.pending.taking
  | _ => []

namespace Bridge

variable {cfg : Config} {config : MqttConfig} {b b' : Bridge}

theorem queue_giveUp {delivered : Bool} {pc : RunPc}
    (h : (b.giveUp delivered).map (goto · pc) = some b') : b'.queue = b.queue := by
  obtain ⟨b₁, hgive, rfl⟩ := Option.map_eq_some_iff.mp h
  obtain ⟨-, rfl⟩ := giveUp_eq_some hgive
  exact queue_deliverIf b delivered

theorem queue_leave (why : Leaving) : (b.leave config why).queue = b.queue := by
  cases why <;> rfl

theorem queue_onPublished (h : b.onPublished = some b') : b'.queue = b.queue := by
  rw [onPublished] at h
  split at h
  · obtain rfl := Option.some.inj h
    rfl
  · obtain rfl := Option.some.inj h
    exact queue_deliver
  · obtain rfl := Option.some.inj h
    exact queue_deliver
  · obtain rfl := Option.some.inj h
    exact queue_deliver
  · simp at h

theorem queue_onPublishFailed {delivered : Bool} (h : b.onPublishFailed delivered = some b') :
    b'.queue = b.queue := by
  rw [onPublishFailed] at h
  split at h
  · exact queue_giveUp h
  · exact queue_giveUp h
  · exact queue_giveUp h
  · simp at h

theorem queue_leaveMessages {why : Leaving} (h : b.leaveMessages why = some b') :
    b'.queue = b.queue := by
  rw [leaveMessages] at h
  split at h
  · obtain rfl := Option.some.inj h
    rfl
  · obtain rfl := Option.some.inj h
    rfl
  · simp at h

theorem queue_onCancel {delivered : Bool} (h : b.onCancel delivered = some b') :
    b'.queue = b.queue := by
  rw [onCancel] at h
  split at h
  case h_1 | h_2 | h_8 =>
    obtain rfl := Option.some.inj h
    rfl
  case h_3 | h_4 | h_5 | h_6 => exact queue_giveUp h
  case h_7 => exact queue_leaveMessages h
  all_goals simp at h

theorem queue_onPublisherEnded {delivered : Bool} (h : b.onPublisherEnded delivered = some b') :
    b'.queue = b.queue := by
  rw [onPublisherEnded] at h
  split at h
  · exact queue_giveUp h
  · simp at h

theorem queue_onDisconnected (h : b.onDisconnected config = some b') : b'.queue = b.queue := by
  rw [onDisconnected] at h
  split at h
  · split at h
    · obtain rfl := Option.some.inj h
      exact queue_leave _
    · obtain rfl := Option.some.inj h
      exact queue_leave _
  · simp at h

theorem deals_observe (s' : System) :
    Deals (by decide) b.queue
      (if b.listening && b.system.notified s' then b.queue.putting (.of cfg s') else [])
      (b.observe cfg s').queue := by
  rw [observe]
  split
  · exact .puts b.queue _
  · exact .rests b.queue

theorem deals_publishNext : Deals (by decide) b.queue b.queue.taking b.publishNext.queue := by
  rw [publishNext]
  split
  · rename_i hget
    exact .takes hget
  · rename_i hget
    rw [Queue.taking_eq_nil hget]
    exact .rests b.queue

theorem deals_of_eq (h : b'.queue = b.queue) : Deals (by decide) b.queue [] b'.queue := by
  rw [h]
  exact .rests b.queue

/-- The next entry is taken once the state of the last has arrived. -/
theorem deals_onPublisherPublished (h : b.onPublisherPublished = some b') :
    Deals (by decide) b.queue (b.dealings cfg .publisherPublished b') b'.queue := by
  rw [onPublisherPublished] at h
  split at h
  · rename_i capture hpc
    obtain rfl := Option.some.inj h
    simp only [dealings, hpc]
    exact deals_of_eq queue_deliver
  · rename_i capture hpc
    obtain rfl := Option.some.inj h
    have hdeals : Deals (by decide) b.deliver.queue b.deliver.queue.taking
        b.deliver.publishNext.queue := deals_publishNext
    simpa only [dealings, hpc, queue_deliver] using hdeals
  · simp at h

/-- A step of the bridge puts one snapshot, or takes one, or leaves `_outgoing`
alone. -/
theorem deals_step {a : BridgeAction} (h : (machine cfg config).step b a = some b') :
    Deals (by decide) b.queue (b.dealings cfg a b') b'.queue := by
  have h : b.step cfg config a = some b' := h
  cases a with
  | service a =>
      obtain ⟨s', -, rfl⟩ := Option.map_eq_some_iff.mp h
      simp only [dealings, system_observe]
      exact deals_observe s'
  | begun | took =>
      simp only [step] at h
      split at h
      · obtain rfl := Option.some.inj h
        exact deals_publishNext
      · simp at h
  | publisherPublished =>
      obtain ⟨-, hpublished⟩ : b.connected ∧ b.onPublisherPublished = some b' := by
        simpa [step] using h
      exact deals_onPublisherPublished hpublished
  | published =>
      obtain ⟨-, hpublished⟩ : b.connected ∧ b.onPublished = some b' := by simpa [step] using h
      exact deals_of_eq (queue_onPublished hpublished)
  | publishFailed delivered => exact deals_of_eq (queue_onPublishFailed h)
  | publisherFailed delivered =>
      simp only [step] at h
      split at h
      · exact deals_of_eq (queue_giveUp h)
      · simp at h
  | messagesFailed | handlerRaised => exact deals_of_eq (queue_leaveMessages h)
  | cancel delivered => exact deals_of_eq (queue_onCancel h)
  | publisherEnded delivered => exact deals_of_eq (queue_onPublisherEnded h)
  | disconnected => exact deals_of_eq (queue_onDisconnected h)
  | connectFailed =>
      simp only [step] at h
      split at h
      · obtain rfl := Option.some.inj h
        exact deals_of_eq (queue_leave _)
      · simp at h
  | disconnectFailed =>
      simp only [step] at h
      split at h
      · obtain ⟨-, h⟩ := Option.ite_none_left_eq_some.mp h
        obtain rfl := Option.some.inj h
        exact deals_of_eq (queue_leave _)
      · simp at h
  | run | connected | subscribeFailed =>
      apply deals_of_eq
      simp only [step] at h
      split at h
      · obtain rfl := Option.some.inj h
        rfl
      · simp at h
  | subscribed | retried =>
      apply deals_of_eq
      simp only [step] at h
      split at h
      · obtain ⟨-, h⟩ := Option.ite_none_right_eq_some.mp h
        obtain rfl := Option.some.inj h
        rfl
      · simp at h
  | lost delivered =>
      obtain ⟨-, rfl⟩ : b.connected ∧ _ = b' := by simpa [step] using h
      exact deals_of_eq (queue_deliverIf b delivered)
  | willed =>
      obtain ⟨-, rfl⟩ : (b.connected = false ∧ b.broker.session) ∧ _ = b' := by
        simpa [step] using h
      exact .rests b.queue

end Bridge

namespace Socket

variable {cfg : Config} {s s' : Socket}

theorem deals_observe (system : System) :
    Deals (by decide) s.pending
      (if s.listening && s.system.notified system then s.pending.putting (system.snapshot cfg)
      else []) (s.observe cfg system).pending := by
  rw [observe]
  split
  · exact .puts s.pending _
  · exact .rests s.pending

theorem deals_pump : Deals (by decide) s.pending s.pending.taking s.pump.pending := by
  rw [pump]
  split
  · rename_i hget
    exact .takes hget
  · rename_i hget
    rw [Queue.taking_eq_nil hget]
    exact .rests s.pending

theorem system_observe (system : System) : (s.observe cfg system).system = system := by
  rw [observe]
  split <;> rfl

/-- A step puts one snapshot, or takes one, or leaves `pending` alone. -/
theorem deals_step {a : SocketAction} (h : (machine cfg).step s a = some s') :
    Deals (by decide) s.pending (s.dealings cfg a s') s'.pending := by
  have hmoves : Moves cfg s a s' := step_moves h
  cases hmoves with
  | serves =>
      simp only [dealings, system_observe]
      exact deals_observe _
  | joins => exact .puts s.pending _
  | begins | wakes => exact deals_pump
  | @sends snapshot => exact deals_pump (s := { s with sent := snapshot :: s.sent })
  | asks | fails | drops | breaks | closes | leaves | gathers | raises | ends =>
      exact .rests s.pending

end Socket

/-- Both producers end within two rounds, dropping nothing but the oldest entries
of a full queue; and whatever the order of puts and gets, in every run of the
bridge and of a socket, the queue holds what was produced last, in order and
within its bound, what was consumed is in order and no entry is consumed twice,
and the newest snapshot was consumed or is the last in the queue. -/
theorem newest_snapshot_wins :
    (∀ (α : Type) (q : Queue α 16) (x : α) (rounds : ℕ),
      ∃ kept, q.offer x (rounds + 2) = some (q.overflow, q.putNewest (by decide) x) ∧
        q.entries = q.overflow ++ kept ∧
        (q.putNewest (by decide) x).entries = kept ++ [x]) ∧
    (∀ (cfg : Config) (config : MqttConfig) (actions : List BridgeAction) (b : Bridge)
      (history : List (Dealing Capture)),
      ((Bridge.machine cfg config).recording (Bridge.dealings cfg)).run ({}, []) actions =
        some (b, history) → Feeds history b.queue) ∧
    ∀ (cfg : Config) (actions : List SocketAction) (s : Socket)
      (history : List (Dealing DeviceSnapshot)),
      ((Socket.machine cfg).recording (Socket.dealings cfg)).run ({}, []) actions =
        some (s, history) → Feeds history s.pending := by
  refine ⟨fun α q x rounds => ?_, fun cfg config actions b history hrun => ?_,
    fun cfg actions s history hrun => ?_⟩
  · obtain ⟨kept, hq, hq'⟩ := q.entries_putNewest (by decide) x
    exact ⟨kept, q.offer_eq (by decide) x rounds, hq, hq'⟩
  · exact feeds_of_recording (by decide) Bridge.queue (fun _ _ _ => Bridge.deals_step) rfl hrun
  · exact feeds_of_recording (by decide) Socket.pending (fun _ _ _ => Socket.deals_step) rfl hrun

/-- The unit reports more often than either queue has room for. -/
def reporting : List Action :=
  [.start, .link 0 .connected, .link 0 .subscribed] ++ List.replicate 18 (.notify coolPacket)

/-- Nobody takes what is queued, so both queues overflow. -/
theorem newest_snapshot_wins_reporting :
    (∃ b history, ((Bridge.machine {} {}).recording (Bridge.dealings {})).run ({}, [])
      (.run :: reporting.map .service) = some (b, history) ∧
        (16 < (production history).length ∧ b.queue.entries.length = 16) ∧
        Feeds history b.queue) ∧
    ∃ s history, ((Socket.machine {}).recording (Socket.dealings {})).run ({}, [])
      ([.requested, .prepared] ++ reporting.map .service) = some (s, history) ∧
        (16 < (production history).length ∧ s.pending.entries.length = 16) ∧
        Feeds history s.pending := by
  constructor
  · have hany : (((Bridge.machine {} {}).recording (Bridge.dealings {})).run ({}, [])
        (.run :: reporting.map .service)).any fun r =>
          16 < (production r.2).length ∧ r.1.queue.entries.length = 16 := by
      decide +kernel
    obtain ⟨⟨b, history⟩, hrun, hfull⟩ := Machine.exists_of_run_any hany
    exact ⟨b, history, hrun, of_decide_eq_true hfull, newest_snapshot_wins.2.1 _ _ _ _ _ hrun⟩
  · have hany : (((Socket.machine {}).recording (Socket.dealings {})).run ({}, [])
        ([.requested, .prepared] ++ reporting.map .service)).any fun r =>
          16 < (production r.2).length ∧ r.1.pending.entries.length = 16 := by
      decide +kernel
    obtain ⟨⟨s, history⟩, hrun, hfull⟩ := Machine.exists_of_run_any hany
    exact ⟨s, history, hrun, of_decide_eq_true hfull, newest_snapshot_wins.2.2 _ _ _ _ hrun⟩

end Bedjet.Integrations
