import Bedjet.Asyncio.Projection
import Bedjet.Integrations.Sockets
import Bedjet.Service.Listeners
import Mathlib.Data.List.Nodup

/-!
The application with all its sockets at once. The handlers share the set of open
sockets, which the shutdown goes through, and the listeners of the session; each has a
queue and a writer of its own.
-/

namespace Bedjet.Integrations

open Python Protocol Device Service Asyncio Api

/-- What a handler has to itself. -/
structure Connection where
  pc : SocketPc := .uncalled
  writer : Writer := .scheduled
  pending : Queue DeviceSnapshot 16 := .empty
  closed : Bool := false
  sent : List DeviceSnapshot := []
  /-- the registration that its `unsubscribe` undoes -/
  registration : ℕ := 0

/-- Where `_close_sockets` is. -/
inductive Closing
  | uncalled
  /-- about to close the next of these -/
  | turning (remaining : List ℕ)
  /-- in `socket.close`, with these to come -/
  | awaiting (remaining : List ℕ)
  deriving DecidableEq

/-- The sockets that it has still to close. -/
def Closing.toCome : Closing → List ℕ
  | .uncalled => []
  | .turning remaining | .awaiting remaining => remaining

structure App where
  system : System := {}
  connection : ℕ → Connection := fun _ => {}
  /-- `app[_SOCKETS_KEY]` -/
  sockets : List ℕ := []
  /-- the listeners of the session: the `on_snapshot` of each handler -/
  listeners : Registry ℕ := {}
  closing : Closing := .uncalled

inductive AppAction
  | service (action : Action)
  /-- the handler of a socket, or its writer, goes on -/
  | handler (k : ℕ) (action : SocketAction)
  /-- `_close_sockets` is called: it goes through the set in some order -/
  | shutdown (order : List ℕ)
  /-- it closes a socket -/
  | closeBegun (k : ℕ)
  | closeReturned

/-- Whether the handler's socket is in the set. -/
def SocketPc.isRegistered : SocketPc → Bool
  | .reading | .awaitingWriter | .failed => true
  | _ => false

/-- Whether the handler is over, be it by what its writer raised. -/
def SocketPc.isOver : SocketPc → Bool
  | .ended | .failed => true
  | _ => false

def Connection.onSnapshot (c : Connection) (snapshot : DeviceSnapshot) : Connection :=
  { c with pending := c.pending.putNewest Socket.maxsize_pos snapshot }

namespace App

section

variable (cfg : Config) (app : App)

/-- One socket, with the service. -/
def view (k : ℕ) : Socket where
  system := app.system
  pc := (app.connection k).pc
  writer := (app.connection k).writer
  pending := (app.connection k).pending
  closed := (app.connection k).closed
  sent := (app.connection k).sent

/-- The handler has gone on. -/
def put (k : ℕ) (s : Socket) : App :=
  { app with
    connection := Function.update app.connection k
      { pc := s.pc
        writer := s.writer
        pending := s.pending
        closed := s.closed
        sent := s.sent
        registration := (app.connection k).registration } }

/-- What the handler does to what is shared. -/
def share (k : ℕ) : SocketAction → App
  | .prepared =>
      { app with
        sockets := app.sockets.insert k
        listeners := app.listeners.subscribe k
        connection := Function.update app.connection k
          { app.connection k with registration := app.listeners.registered.length } }
  | .messagesEnded =>
      { app with
        listeners :=
          (app.listeners.unsubscribe (app.connection k).registration).getD app.listeners }
  | .writerEnded => { app with sockets := app.sockets.erase k }
  | _ => app

/-- The session notifies its listeners, one after the other. -/
def publish (snapshot : DeviceSnapshot) : App :=
  { app with
    connection := app.listeners.listeners.foldl
      (fun connection k =>
        Function.update connection k ((connection k).onSnapshot snapshot)) app.connection }

/-- The service has taken a step. -/
def observe (system : System) : App :=
  if app.system.notified system then { app with system }.publish (system.snapshot cfg)
  else { app with system }

def step : AppAction → Option App
  | .service a => ((System.machine cfg).step app.system a).map (app.observe cfg)
  | .handler _ (.service _) => none
  | .handler k a => ((app.view k).step cfg a).map fun s => (app.put k s).share k a
  | .shutdown order =>
      match app.closing with
      | .uncalled =>
          if order.Perm app.sockets then some { app with closing := .turning order } else none
      | _ => none
  | .closeBegun k =>
      match app.closing with
      | .turning (next :: remaining) =>
          if next = k then
            some { app.put k { app.view k with closed := true } with
              closing := .awaiting remaining }
          else none
      | _ => none
  | .closeReturned =>
      match app.closing with
      | .awaiting remaining => some { app with closing := .turning remaining }
      | _ => none

end

/-- All sockets and the service as one machine. -/
def machine (cfg : Config) : Machine App AppAction where
  step app a := app.step cfg a

end App

/-- What an action is to one socket. -/
def AppAction.part (k : ℕ) : AppAction → Option SocketAction
  | .service a => some (.service a)
  | .handler j a => if j = k then some a else none
  | .closeBegun j => if j = k then some .closed else none
  | .shutdown _ | .closeReturned => none

/-! ### What a handler does to what is shared -/

namespace Socket

variable {cfg : Config} {s s' : Socket} {a : SocketAction}

theorem pc_pump (s : Socket) : s.pump.pc = s.pc := by
  rw [pump]
  split <;> rfl

theorem system_pump (s : Socket) : s.pump.system = s.system := by
  rw [pump]
  split <;> rfl

theorem closed_pump (s : Socket) : s.pump.closed = s.closed := by
  rw [pump]
  split <;> rfl

theorem pc_observe (system : System) : (s.observe cfg system).pc = s.pc := by
  rw [observe]
  split <;> rfl

theorem closed_observe (system : System) : (s.observe cfg system).closed = s.closed := by
  rw [observe]
  split <;> rfl

/-- Where a step leads a handler, by what it does to what is shared. -/
theorem step_pc (h : s.step cfg a = some s') :
    (a = .prepared ∧ s.pc = .preparing ∧ s'.pc = .reading) ∨
    (a = .messagesEnded ∧ s.pc = .reading ∧ s'.pc = .awaitingWriter) ∨
    (a = .writerEnded ∧ s.pc = .awaitingWriter ∧ s'.pc = .closing) ∨
    (∀ app k, App.share app k a = app) ∧ s'.listening = s.listening ∧
      s'.pc.isRegistered = s.pc.isRegistered := by
  have hstays (ha : ∀ app k, App.share app k a = app) (hpc : s'.pc = s.pc) :
      (∀ app k, App.share app k a = app) ∧ s'.listening = s.listening ∧
        s'.pc.isRegistered = s.pc.isRegistered := by
    simp [listening, hpc, ha]
  cases step_moves h with
  | serves => exact .inr (.inr (.inr (hstays (fun _ _ => rfl) (pc_observe _))))
  | joins hpc => exact .inl ⟨rfl, hpc, rfl⟩
  | leaves hpc => exact .inr (.inl ⟨rfl, hpc, rfl⟩)
  | gathers hpc => exact .inr (.inr (.inl ⟨rfl, hpc, rfl⟩))
  | begins | wakes | sends => exact .inr (.inr (.inr (hstays (fun _ _ => rfl) (pc_pump _))))
  | drops | breaks | closes => exact .inr (.inr (.inr (hstays (fun _ _ => rfl) rfl)))
  | asks hpc | fails hpc | raises hpc | ends hpc =>
      exact .inr (.inr (.inr ⟨fun _ _ => rfl, by simp [listening, hpc],
        by simp [SocketPc.isRegistered, hpc]⟩))

/-- Only the service changes the service. -/
theorem system_step (h : s.step cfg a = some s') (ha : ∀ b, a ≠ .service b) :
    s'.system = s.system := by
  cases step_moves h with
  | serves => exact absurd rfl (ha _)
  | begins | wakes | sends => rw [system_pump]
  | asks | joins | fails | drops | breaks | closes | leaves | gathers | raises | ends => rfl

/-- A socket that is closed stays so. -/
theorem closed_step (h : s.step cfg a = some s') (hclosed : s.closed) : s'.closed := by
  cases step_moves h with
  | serves => rwa [closed_observe]
  | begins | wakes | sends => rwa [closed_pump]
  | closes | ends => rfl
  | asks | joins | fails | drops | breaks | leaves | gathers | raises => exact hclosed

end Socket

namespace App

variable {cfg : Config} {app app' : App} {s : Socket} {j k : ℕ}

/-! ### What an action does to one socket -/

/-- Each of the listeners is called once. -/
theorem foldl_update {α : Type*} (f : α → α) {listeners : List ℕ} (honce : listeners.Nodup)
    (state : ℕ → α) (k : ℕ) :
    listeners.foldl (fun state j => Function.update state j (f (state j))) state k =
      if k ∈ listeners then f (state k) else state k := by
  induction listeners generalizing state with
  | nil => simp
  | cons j listeners ih =>
      obtain ⟨hj, hrest⟩ := List.nodup_cons.mp honce
      rw [List.foldl_cons, ih hrest]
      by_cases hk : k = j
      · subst hk
        simp [hj]
      · simp [hk]

theorem view_handled (hsystem : s.system = app.system) (a : SocketAction) :
    ((app.put k s).share k a).view j = if j = k then s else app.view j := by
  by_cases hj : j = k
  · subst hj
    cases a <;> simp [share, view, put, ← hsystem]
  · cases a <;> simp [share, view, put, hj]

theorem connection_publish (honce : app.listeners.listeners.Nodup) (snapshot : DeviceSnapshot) :
    (app.publish snapshot).connection k =
      if k ∈ app.listeners.listeners then (app.connection k).onSnapshot snapshot
      else app.connection k :=
  foldl_update (fun c : Connection => c.onSnapshot snapshot) honce app.connection k

theorem view_publish (honce : app.listeners.listeners.Nodup) (snapshot : DeviceSnapshot) :
    (app.publish snapshot).view k =
      if k ∈ app.listeners.listeners then (app.view k).onSnapshot snapshot else app.view k := by
  rw [view, connection_publish honce]
  split <;> rfl

theorem view_observe (honce : app.listeners.listeners.Nodup)
    (hlistening : k ∈ app.listeners.listeners ↔ (app.view k).listening) (system : System) :
    (app.observe cfg system).view k = (app.view k).observe cfg system := by
  have hview : (app.view k).system.notified system = app.system.notified system := rfl
  have hnow : ({ app with system } : App).listeners.listeners.Nodup := honce
  rw [observe, Socket.observe, hview]
  by_cases hnotified : app.system.notified system
  · rw [if_pos hnotified, view_publish hnow]
    by_cases hk : k ∈ app.listeners.listeners
    · rw [if_pos hk, if_pos (by simp [hnotified, ← hlistening, hk])]
      rfl
    · rw [if_neg hk, if_neg (by simp [← hlistening, hk])]
      rfl
  · rw [if_neg hnotified, if_neg (by simp [hnotified])]
    rfl

/-! ### The books -/

/-- What is shared, about one socket: its handler listens if it is reading, its
`unsubscribe` is its own, and the socket is in the set until the handler gives it up. -/
structure Booked (app : App) (k : ℕ) : Prop where
  listening : k ∈ app.listeners.listeners ↔ (app.view k).listening
  registration : (app.view k).listening →
    app.listeners.registered[(app.connection k).registration]? = some k
  registered : k ∈ app.sockets ↔ (app.view k).pc.isRegistered

/-- A socket that an action leaves alone. -/
theorem Booked.congr (h : app.Booked j) (hview : app'.view j = app.view j)
    (hlisteners : j ∈ app'.listeners.listeners ↔ j ∈ app.listeners.listeners)
    (hregistration : app.listeners.registered[(app.connection j).registration]? = some j →
      app'.listeners.registered[(app'.connection j).registration]? = some j)
    (hsockets : j ∈ app'.sockets ↔ j ∈ app.sockets) : app'.Booked j where
  listening := by rw [hlisteners, hview, h.listening]
  registration hlistening := hregistration (h.registration (hview ▸ hlistening))
  registered := by rw [hsockets, hview, h.registered]

structure Kept (app : App) : Prop where
  once : app.listeners.listeners.Nodup
  distinct : app.sockets.Nodup
  booked : ∀ k, app.Booked k

theorem kept_initial : Kept {} where
  once := List.nodup_nil
  distinct := List.nodup_nil
  booked k := by constructor <;> simp [view, Socket.listening, SocketPc.isRegistered]

namespace Kept

theorem observe (h : Kept app) (system : System) : Kept (app.observe cfg system) := by
  have hshared : (app.observe cfg system).listeners = app.listeners ∧
      (app.observe cfg system).sockets = app.sockets := by
    rw [App.observe]
    split <;> exact ⟨rfl, rfl⟩
  obtain ⟨hlisteners, hsockets⟩ := hshared
  refine ⟨hlisteners ▸ h.once, hsockets ▸ h.distinct, fun k => ?_⟩
  have hpc : ((app.observe cfg system).view k).pc = (app.view k).pc := by
    rw [view_observe h.once (h.booked k).listening, Socket.pc_observe]
  have hlistening : ((app.observe cfg system).view k).listening = (app.view k).listening := by
    rw [Socket.listening, hpc, Socket.listening]
  have hregistration : ((app.observe cfg system).connection k).registration =
      (app.connection k).registration := by
    rw [App.observe]
    split
    · have hnow : ({ app with system } : App).listeners.listeners.Nodup := h.once
      rw [connection_publish hnow]
      split <;> rfl
    · rfl
  constructor
  · rw [hlisteners, hlistening]
    exact (h.booked k).listening
  · rw [hlisteners, hlistening, hregistration]
    exact (h.booked k).registration
  · rw [hsockets, hpc]
    exact (h.booked k).registered

section

variable (h : Kept app) (hsystem : s.system = app.system)

include h hsystem

/-- The handler registers its socket and subscribes. -/
theorem prepared (hpc : (app.view k).pc = .preparing) (hnext : s.pc = .reading) :
    Kept ((app.put k s).share k .prepared) := by
  have hnew : k ∉ app.listeners.listeners := by
    simp [(h.booked k).listening, Socket.listening, hpc]
  have hlisteners : ((app.put k s).share k .prepared).listeners =
      app.listeners.subscribe k := rfl
  have hsockets : ((app.put k s).share k .prepared).sockets = app.sockets.insert k := rfl
  refine ⟨?_, h.distinct.insert, fun j => ?_⟩
  · rw [hlisteners, Registry.subscribe, ← List.concat_eq_append]
    exact h.once.concat hnew
  · have hview := view_handled (j := j) (k := k) hsystem .prepared
    by_cases hj : j = k
    · subst hj
      rw [if_pos rfl] at hview
      constructor
      · simp [hlisteners, hview, Socket.listening, hnext, Registry.subscribe]
      · simp [share, put, Registry.subscribe]
      · simp [hsockets, hview, hnext, SocketPc.isRegistered]
    · rw [if_neg hj] at hview
      refine (h.booked j).congr hview ?_ (fun hown => ?_) ?_
      · simp [hlisteners, Registry.subscribe, hj]
      · have hlt := (List.getElem?_eq_some_iff.mp hown).1
        simpa [share, put, hj, Registry.subscribe, List.getElem?_append_left hlt] using hown
      · simp [hsockets, hj]

/-- It unsubscribes. -/
theorem messagesEnded (hpc : (app.view k).pc = .reading) (hnext : s.pc = .awaitingWriter) :
    Kept ((app.put k s).share k .messagesEnded) := by
  have hown : app.listeners.registered[(app.connection k).registration]? = some k :=
    (h.booked k).registration (by simp [Socket.listening, hpc])
  have hlisteners : ((app.put k s).share k .messagesEnded).listeners.listeners =
      app.listeners.listeners.erase k := by
    simp [share, put, Registry.unsubscribe, hown, List.erase_eq_eraseP']
  have hregistered : ((app.put k s).share k .messagesEnded).listeners.registered =
      app.listeners.registered := by
    simp [share, put, Registry.unsubscribe, hown]
  refine ⟨hlisteners ▸ h.once.erase k, h.distinct, fun j => ?_⟩
  have hview := view_handled (j := j) (k := k) hsystem .messagesEnded
  by_cases hj : j = k
  · subst hj
    rw [if_pos rfl] at hview
    have hset : j ∈ app.sockets := by simp [(h.booked j).registered, hpc, SocketPc.isRegistered]
    constructor
    · simp [hlisteners, h.once.mem_erase_iff, hview, Socket.listening, hnext]
    · simp [hview, Socket.listening, hnext]
    · rw [hview, hnext]
      exact iff_of_true hset rfl
  · rw [if_neg hj] at hview
    refine (h.booked j).congr hview ?_ (fun hown => ?_) Iff.rfl
    · simp [hlisteners, h.once.mem_erase_iff, hj]
    · rw [hregistered]
      simpa [share, put, hj] using hown

/-- It takes its socket out of the set. -/
theorem writerEnded (hpc : (app.view k).pc = .awaitingWriter) (hnext : s.pc = .closing) :
    Kept ((app.put k s).share k .writerEnded) := by
  have hsockets : ((app.put k s).share k .writerEnded).sockets = app.sockets.erase k := rfl
  refine ⟨h.once, h.distinct.erase k, fun j => ?_⟩
  have hview := view_handled (j := j) (k := k) hsystem .writerEnded
  by_cases hj : j = k
  · subst hj
    rw [if_pos rfl] at hview
    have hquiet : j ∉ app.listeners.listeners := by
      simp [(h.booked j).listening, Socket.listening, hpc]
    constructor
    · rw [hview, Socket.listening, hnext]
      exact iff_of_false hquiet (by simp)
    · simp [hview, Socket.listening, hnext]
    · simp [hsockets, h.distinct.mem_erase_iff, hview, hnext, SocketPc.isRegistered]
  · rw [if_neg hj] at hview
    refine (h.booked j).congr hview Iff.rfl (fun hown => ?_) ?_
    · simpa [share, put, hj] using hown
    · simp [hsockets, h.distinct.mem_erase_iff, hj]

/-- It does nothing that the others see. -/
theorem undisturbed {a : SocketAction} (hshare : (app.put k s).share k a = app.put k s)
    (hlistening : s.listening = (app.view k).listening)
    (hregistered : s.pc.isRegistered = (app.view k).pc.isRegistered) :
    Kept ((app.put k s).share k a) := by
  have hview (j : ℕ) := view_handled (j := j) (k := k) hsystem a
  rw [hshare] at hview ⊢
  refine ⟨h.once, h.distinct, fun j => ?_⟩
  by_cases hj : j = k
  · subst hj
    constructor
    · rw [hview, if_pos rfl, hlistening]
      exact (h.booked j).listening
    · rw [hview, if_pos rfl, hlistening]
      simpa [put] using (h.booked j).registration
    · rw [hview, if_pos rfl, hregistered]
      exact (h.booked j).registered
  · refine (h.booked j).congr (by rw [hview, if_neg hj]) Iff.rfl (fun hown => ?_) Iff.rfl
    simpa [put, hj] using hown

end

theorem handled {a : SocketAction} (h : Kept app) (ha : ∀ b, a ≠ .service b)
    (hstep : (app.view k).step cfg a = some s) : Kept ((app.put k s).share k a) := by
  have hsystem : s.system = app.system := Socket.system_step hstep ha
  rcases Socket.step_pc hstep with ⟨rfl, hpc, hnext⟩ | ⟨rfl, hpc, hnext⟩ | ⟨rfl, hpc, hnext⟩ |
    ⟨hshare, hlistening, hregistered⟩
  · exact h.prepared hsystem hpc hnext
  · exact h.messagesEnded hsystem hpc hnext
  · exact h.writerEnded hsystem hpc hnext
  · exact h.undisturbed hsystem (hshare _ k) hlistening hregistered

end Kept

/-- What each action does. -/
theorem step_cases {a : AppAction} (h : app.step cfg a = some app') :
    (∃ b system, a = .service b ∧ (System.machine cfg).step app.system b = some system ∧
      app' = app.observe cfg system) ∨
    (∃ k b s, a = .handler k b ∧ (∀ c, b ≠ .service c) ∧ (app.view k).step cfg b = some s ∧
      app' = (app.put k s).share k b) ∨
    (∃ order, a = .shutdown order ∧ order.Perm app.sockets ∧
      app' = { app with closing := .turning order }) ∨
    (∃ k remaining, a = .closeBegun k ∧ app.closing = .turning (k :: remaining) ∧
      app' = { app.put k { app.view k with closed := true } with closing := .awaiting remaining }) ∨
    ∃ remaining, a = .closeReturned ∧ app.closing = .awaiting remaining ∧
      app' = { app with closing := .turning remaining } := by
  cases a with
  | service b =>
      obtain ⟨system, hsystem, rfl⟩ := Option.map_eq_some_iff.mp h
      exact .inl ⟨b, system, rfl, hsystem, rfl⟩
  | handler k b =>
      by_cases hb : ∀ c, b ≠ .service c
      · have hstep : ((app.view k).step cfg b).map (fun s => (app.put k s).share k b) =
            some app' := by
          rw [← h, step]
          exact hb
        obtain ⟨s, hs, rfl⟩ := Option.map_eq_some_iff.mp hstep
        exact .inr (.inl ⟨k, b, s, rfl, hb, hs, rfl⟩)
      · obtain ⟨c, rfl⟩ : ∃ c, b = .service c := by simpa using hb
        simp [step] at h
  | shutdown order =>
      simp only [step] at h
      split at h
      · obtain ⟨hperm, h⟩ := Option.ite_none_right_eq_some.mp h
        obtain rfl := Option.some.inj h
        exact .inr (.inr (.inl ⟨order, rfl, hperm, rfl⟩))
      · simp at h
  | closeBegun k =>
      simp only [step] at h
      split at h
      · rename_i next remaining hclosing
        obtain ⟨rfl, h⟩ := Option.ite_none_right_eq_some.mp h
        obtain rfl := Option.some.inj h
        exact .inr (.inr (.inr (.inl ⟨next, remaining, rfl, hclosing, rfl⟩)))
      · simp at h
  | closeReturned =>
      simp only [step] at h
      split at h
      · rename_i remaining hclosing
        obtain rfl := Option.some.inj h
        exact .inr (.inr (.inr (.inr ⟨remaining, rfl, hclosing, rfl⟩)))
      · simp at h

theorem view_put (hsystem : s.system = app.system) :
    (app.put k s).view j = if j = k then s else app.view j :=
  view_handled hsystem .begun

theorem Kept.step {a : AppAction} (h : Kept app) (hstep : app.step cfg a = some app') :
    Kept app' := by
  rcases step_cases hstep with ⟨b, system, rfl, -, rfl⟩ | ⟨k, b, s, rfl, hb, hs, rfl⟩ |
    ⟨order, rfl, -, rfl⟩ | ⟨k, remaining, rfl, -, rfl⟩ | ⟨remaining, rfl, -, rfl⟩
  · exact h.observe system
  · exact h.handled hb hs
  · exact ⟨h.once, h.distinct, fun k => (h.booked k).congr rfl Iff.rfl id Iff.rfl⟩
  · have hclosed : Kept (app.put k { app.view k with closed := true }) :=
      h.undisturbed (a := .begun) rfl rfl rfl rfl
    exact ⟨hclosed.once, hclosed.distinct, fun k =>
      (hclosed.booked k).congr rfl Iff.rfl id Iff.rfl⟩
  · exact ⟨h.once, h.distinct, fun k => (h.booked k).congr rfl Iff.rfl id Iff.rfl⟩

/-- Each socket fares as if it were the only one. -/
theorem projects (cfg : Config) (k : ℕ) :
    (machine cfg).Projects (Socket.machine cfg) Kept (·.view k) (AppAction.part k) where
  acts app a app' b h hstep hpart := by
    rcases step_cases hstep with ⟨c, system, rfl, hsystem, rfl⟩ | ⟨j, c, s, rfl, hc, hs, rfl⟩ |
      ⟨order, rfl, -, rfl⟩ | ⟨j, remaining, rfl, -, rfl⟩ | ⟨remaining, rfl, -, rfl⟩
    · obtain rfl : SocketAction.service c = b := Option.some.inj hpart
      rw [view_observe h.once (h.booked k).listening]
      exact Option.map_eq_some_iff.mpr ⟨system, hsystem, rfl⟩
    · obtain ⟨rfl, rfl⟩ : j = k ∧ c = b := by simpa [AppAction.part] using hpart
      rw [view_handled (Socket.system_step hs hc), if_pos rfl]
      exact hs
    · simp [AppAction.part] at hpart
    · obtain ⟨rfl, rfl⟩ : j = k ∧ SocketAction.closed = b := by
        simpa [AppAction.part] using hpart
      have hview : (app.put j { app.view j with closed := true }).view j =
          { app.view j with closed := true } := by
        rw [view_put rfl, if_pos rfl]
      exact congrArg some hview.symm
    · simp [AppAction.part] at hpart
  rests app a app' h hstep hpart := by
    rcases step_cases hstep with ⟨c, system, rfl, hsystem, rfl⟩ | ⟨j, c, s, rfl, hc, hs, rfl⟩ |
      ⟨order, rfl, -, rfl⟩ | ⟨j, remaining, rfl, -, rfl⟩ | ⟨remaining, rfl, -, rfl⟩
    · simp [AppAction.part] at hpart
    · have hne : k ≠ j := by
        rintro rfl
        simp [AppAction.part] at hpart
      rw [view_handled (Socket.system_step hs hc), if_neg hne]
    · rfl
    · have hne : k ≠ j := by
        rintro rfl
        simp [AppAction.part] at hpart
      have hview : (app.put j { app.view j with closed := true }).view k = app.view k := by
        rw [view_put rfl, if_neg hne]
      exact hview
    · rfl

/-! ### What follows for runs -/

theorem kept_of_run {actions : List AppAction} (hrun : (machine cfg).run {} actions = some app) :
    Kept app :=
  Machine.run_invariant' (fun _ _ _ h hstep => h.step hstep) kept_initial hrun

/-- Whatever the others do, a socket goes through a run of its own handler; so its
queue holds the newest of what it was told, and is read in order. -/
theorem sockets_keep_apart {actions : List AppAction}
    (hrun : (machine cfg).run {} actions = some app) (k : ℕ) :
    (Socket.machine cfg).run {} (actions.filterMap (AppAction.part k)) = some (app.view k) ∧
      ∃ history, ((Socket.machine cfg).recording (Socket.dealings cfg)).run ({}, [])
          (actions.filterMap (AppAction.part k)) = some (app.view k, history) ∧
        Feeds history (app.view k).pending := by
  have halone : (Socket.machine cfg).run {} (actions.filterMap (AppAction.part k)) =
      some (app.view k) :=
    (projects cfg k).run (fun _ _ _ h hstep => h.step hstep) kept_initial hrun
  obtain ⟨history, hrecording⟩ := Machine.exists_recording halone []
  exact ⟨halone, history, hrecording,
    feeds_of_recording (by decide) Socket.pending (fun _ _ _ => Socket.deals_step) rfl hrecording⟩

/-- A client that asks for the socket. -/
def joining (k : ℕ) : List AppAction :=
  [.handler k .requested, .handler k .prepared]

/-- Two clients, the first of which leaves. -/
def leaving : List AppAction :=
  joining 0 ++ joining 1 ++ [.handler 0 .begun, .handler 0 .messagesEnded]

theorem leaving_runs :
    ∃ app, (machine {}).run {} leaving = some app ∧ app.listeners.listeners == [1] :=
  Machine.exists_of_run_any (by decide +kernel)

theorem sockets_keep_apart_leaving :
    ∃ app : App, (Socket.machine {}).run {} (leaving.filterMap (AppAction.part 1)) =
      some (app.view 1) := by
  obtain ⟨app, hrun, -⟩ := leaving_runs
  exact ⟨app, (sockets_keep_apart hrun 1).1⟩

/-- Whatever happens to the sockets, in whatever order: the session's listeners are
those of the handlers that are reading, each once, and the set holds the sockets whose
handlers have not come to `discard`. So when all handlers are over no listener is left, and
the set holds the sockets of those that were left by what their writer raised. -/
theorem sockets_are_accounted_for {actions : List AppAction}
    (hrun : (machine cfg).run {} actions = some app) :
    app.listeners.listeners.Nodup ∧ app.sockets.Nodup ∧
    (∀ k, k ∈ app.listeners.listeners ↔ (app.connection k).pc = .reading) ∧
    (∀ k, k ∈ app.sockets ↔ (app.connection k).pc = .reading ∨
      (app.connection k).pc = .awaitingWriter ∨ (app.connection k).pc = .failed) ∧
    ((∀ k, (app.connection k).pc = .uncalled ∨ (app.connection k).pc.isOver) →
      app.listeners.listeners = [] ∧ ∀ k, k ∈ app.sockets ↔ (app.connection k).pc = .failed) := by
  have hkept := kept_of_run hrun
  have hlisteners (k : ℕ) :
      k ∈ app.listeners.listeners ↔ (app.connection k).pc = .reading := by
    rw [(hkept.booked k).listening, Socket.listening]
    cases hpc : (app.connection k).pc <;> simp [view, hpc]
  have hsockets (k : ℕ) : k ∈ app.sockets ↔ (app.connection k).pc = .reading ∨
      (app.connection k).pc = .awaitingWriter ∨ (app.connection k).pc = .failed := by
    rw [(hkept.booked k).registered]
    cases hpc : (app.connection k).pc <;> simp [view, hpc, SocketPc.isRegistered]
  refine ⟨hkept.once, hkept.distinct, hlisteners, hsockets, fun hover => ⟨?_, fun k => ?_⟩⟩
  · refine List.eq_nil_iff_forall_not_mem.mpr fun k hk => ?_
    have hreading := (hlisteners k).mp hk
    simpa [hreading, SocketPc.isOver] using hover k
  · rw [hsockets]
    have hk := hover k
    cases hpc : (app.connection k).pc <;> simp_all [SocketPc.isOver]

/-- The first of two clients leaves; the writer of the second raises. -/
def breaking : List AppAction :=
  leaving ++ [.handler 0 .writerEnded, .handler 0 .closedOff, .handler 1 .begun,
    .handler 1 .writerRaised, .handler 1 .messagesEnded, .handler 1 .writerReraised]

theorem sockets_are_accounted_for_breaking :
    ∃ app, (machine {}).run {} breaking = some app ∧ app.listeners.listeners = [] ∧
      app.sockets = [1] ∧ ∀ k, k ∈ app.sockets ↔ (app.connection k).pc = .reading ∨
        (app.connection k).pc = .awaitingWriter ∨ (app.connection k).pc = .failed := by
  have hruns : ((machine {}).run {} breaking).any fun app =>
      app.listeners.listeners == [] && app.sockets == [1] := by
    decide +kernel
  obtain ⟨app, hrun, hend⟩ := Machine.exists_of_run_any hruns
  obtain ⟨hlisteners, hsockets⟩ : app.listeners.listeners = [] ∧ app.sockets = [1] := by
    simpa using hend
  exact ⟨app, hrun, hlisteners, hsockets, (sockets_are_accounted_for hrun).2.2.2.1⟩

/-! ### The shutdown -/

/-- A socket that is closed stays so, whatever happens to it and the others. -/
theorem closed_of_step {a : AppAction} (h : Kept app) (hstep : app.step cfg a = some app')
    (hclosed : (app.view k).closed) : (app'.view k).closed := by
  cases hpart : a.part k with
  | none => rwa [(projects cfg k).rests app a app' h hstep hpart]
  | some b => exact Socket.closed_step ((projects cfg k).acts app a app' b h hstep hpart) hclosed

/-- What `_close_sockets` maintains, which began with these sockets. -/
structure Closes (order : List ℕ) (app : App) : Prop where
  kept : Kept app
  called : app.closing ≠ .uncalled
  closed : ∀ k ∈ order, k ∈ app.closing.toCome ∨ (app.view k).closed

theorem Closes.step {order : List ℕ} {a : AppAction} (h : Closes order app)
    (hstep : app.step cfg a = some app') : Closes order app' := by
  have hstays (htoCome : app'.closing.toCome = app.closing.toCome) (k : ℕ) (hk : k ∈ order) :
      k ∈ app'.closing.toCome ∨ (app'.view k).closed := by
    rw [htoCome]
    exact (h.closed k hk).imp_right (closed_of_step h.kept hstep)
  have hkept := h.kept.step hstep
  rcases step_cases hstep with ⟨b, system, rfl, -, rfl⟩ | ⟨j, b, s, rfl, hb, hs, rfl⟩ |
    ⟨order, rfl, -, rfl⟩ | ⟨j, remaining, rfl, hclosing, rfl⟩ | ⟨remaining, rfl, hclosing, rfl⟩
  · have hclosing : (app.observe cfg system).closing = app.closing := by
      rw [observe]
      split <;> rfl
    exact ⟨hkept, hclosing ▸ h.called, hstays (by rw [hclosing])⟩
  · have hclosing : ((app.put j s).share j b).closing = app.closing := by
      cases b <;> rfl
    exact ⟨hkept, hclosing ▸ h.called, hstays (by rw [hclosing])⟩
  · simp [step, h.called] at hstep
  · refine ⟨hkept, by simp, fun k hk => ?_⟩
    rcases h.closed k hk with hcome | hclosed
    · obtain rfl | hcome : k = j ∨ k ∈ remaining := by
        simpa [hclosing, Closing.toCome] using hcome
      · right
        simp [view, put]
      · exact .inl hcome
    · exact .inr (closed_of_step h.kept hstep hclosed)
  · exact ⟨hkept, by simp, hstays (by rw [hclosing]; rfl)⟩

/-- Whatever goes on in the meantime, when `_close_sockets` is over every socket that was
in the set when it began is closed. -/
theorem shutdown_closes_sockets {before after : List AppAction} {order : List ℕ}
    (hbefore : (machine cfg).run {} before = some app)
    (hshutdown : (machine cfg).run app (.shutdown order :: after) = some app')
    (hover : app'.closing = .turning []) : ∀ k ∈ app.sockets, (app'.connection k).closed := by
  obtain ⟨begun, hbegun, hrest⟩ := Machine.run_cons_eq_some.mp hshutdown
  have hbegun : app.step cfg (.shutdown order) = some begun := hbegun
  obtain ⟨hperm, rfl⟩ : order.Perm app.sockets ∧
      begun = { app with closing := .turning order } := by
    rcases step_cases hbegun with ⟨b, system, h, -⟩ | ⟨j, b, s, h, -⟩ |
      ⟨order', h, hperm, rfl⟩ | ⟨j, remaining, h, -⟩ | ⟨remaining, h, -⟩
    all_goals cases h
    exact ⟨hperm, rfl⟩
  have hstart : Closes order { app with closing := .turning order } :=
    ⟨(kept_of_run hbefore).step hbegun, by simp, fun k hk => .inl hk⟩
  have hend : Closes order app' :=
    Machine.run_invariant' (fun _ _ _ h hstep => h.step hstep) hstart hrest
  intro k hk
  have hclosed := hend.closed k (hperm.mem_iff.mpr hk)
  rw [hover] at hclosed
  exact hclosed.resolve_left (by simp [Closing.toCome])

/-- The shutdown closes two sockets; a third client is too late to be in the set. -/
def closingBoth : List AppAction :=
  [.closeBegun 1, .handler 2 .requested, .handler 2 .prepared, .closeReturned, .closeBegun 0,
    .closeReturned]

theorem shutdown_closes_sockets_both :
    ∃ app app', (machine {}).run {} (joining 0 ++ joining 1) = some app ∧
      (machine {}).run app (.shutdown [1, 0] :: closingBoth) = some app' ∧
      ∀ k ∈ app.sockets, (app'.connection k).closed := by
  have hruns : ((machine {}).run {} (joining 0 ++ joining 1)).any fun app =>
      ((machine {}).run app (.shutdown [1, 0] :: closingBoth)).any fun app' =>
        app'.closing == .turning [] := by
    decide +kernel
  obtain ⟨app, hbefore, hshutdown⟩ := Machine.exists_of_run_any hruns
  obtain ⟨app', hshutdown, hover⟩ := Machine.exists_of_run_any hshutdown
  exact ⟨app, app', hbefore, hshutdown,
    shutdown_closes_sockets hbefore hshutdown (by simpa using hover)⟩

end App

end Bedjet.Integrations
