import Bedjet.Asyncio.Turns
import Bedjet.Transport.Acting

/-!
The reads and writes of a `BleakTransport` take turns: bleak's backend never has
two of them at once, it gets them in the order in which they were called, and the
lock never stops them for good.
-/

namespace Bedjet.Transport

open Asyncio

/-! ### Where a call stands towards the lock -/

namespace Pc

def stand : Pc → Stand
  | .waiting _ => .waiting
  | .calling _ (.exchange _) => .inside
  | _ => .away

/-- The call `t`, if it is in a read or a write. -/
def exchanging (t : ℕ) : Pc → List ℕ
  | .calling _ (.exchange _) => [t]
  | _ => []

theorem stand_eq_inside {pc : Pc} :
    pc.stand = .inside ↔ ∃ k exchange, pc = .calling k (.exchange exchange) := by
  cases pc with
  | calling k operation => cases operation <;> simp [stand]
  | _ => simp [stand]

theorem stand_eq_waiting {pc : Pc} : pc.stand = .waiting ↔ ∃ exchange, pc = .waiting exchange := by
  cases pc with
  | calling k operation => cases operation <;> simp [stand]
  | _ => simp [stand]

theorem exchanging_of_stand {pc : Pc} (h : pc.stand ≠ .inside) (t : ℕ) : pc.exchanging t = [] := by
  cases pc with
  | calling k operation =>
      cases operation with
      | exchange e => exact absurd rfl h
      | _ => rfl
  | _ => rfl

end Pc

/-- The call that begins a read or a write. -/
def Event.exchanger : Event → Option ℕ
  | .sent t _ (.exchange _) => some t
  | _ => none

/-- The calls that began a read or a write, the last one first. -/
def exchangers (h : List Event) : List ℕ :=
  h.filterMap Event.exchanger

namespace BleakTransport

variable {c c' : BleakTransport} {pc pc' : Pc} {stand : ℕ → Stand} {entered : List ℕ}
  {t calls : ℕ} {exchange : Exchange} {operation : Operation}

theorem inside_turns (exchange : Exchange) (h : Turns c.gatt stand (t :: entered) calls)
    (ht : stand t = .inside) :
    Turns (c.inside exchange).1.gatt (Function.update stand t (c.inside exchange).2.stand)
      ((c.inside exchange).2.exchanging t ++ entered) calls := by
  cases hrequire : c.require with
  | some k =>
      have hstays : Function.update stand t .inside = stand := by
        rw [← ht]
        exact Function.update_eq_self t stand
      simpa [inside, hrequire, Pc.stand, Pc.exchanging, hstays] using h
  | none =>
      have hleft := (h.release ht).forget (List.sublist_cons_self t entered)
      simpa [inside, hrequire, notConnected, Pc.stand, Pc.exchanging] using hleft

theorem enter_turns (h : Turns c.gatt stand entered t) (haway : stand t = .away) :
    Turns (c.enter t exchange).1.gatt (Function.update stand t (c.enter t exchange).2.stand)
      ((c.enter t exchange).2.exchanging t ++ entered) (t + 1) := by
  by_cases hfree : c.gatt.isFree
  · rw [enter, if_pos hfree]
    have hin := inside_turns (c := { c with gatt := c.gatt.take t }) exchange
      (h.take hfree) (Function.update_self _ _ _)
    rwa [Function.update_idem] at hin
  · rw [enter, if_neg hfree]
    exact h.enqueue haway

/-- A call that has nothing to do with the lock. -/
theorem away_turns (h : Turns c.gatt stand entered calls) (haway : stand t = .away)
    (hgatt : c'.gatt = c.gatt) (hpc : pc.stand = .away) :
    Turns c'.gatt (Function.update stand t pc.stand) (pc.exchanging t ++ entered) calls := by
  have hstays : Function.update stand t .away = stand := by
    rw [← haway]
    exact Function.update_eq_self t stand
  have hnone : pc.exchanging t = [] := Pc.exchanging_of_stand (by rw [hpc]; decide) t
  rwa [hgatt, hpc, hstays, hnone]

theorem onClient_gatt : (c.onClient operation).1.gatt = c.gatt := by
  cases hrequire : c.require <;> simp [onClient, hrequire]

theorem onClient_stand (hoperation : ∀ e, operation ≠ .exchange e) :
    (c.onClient operation).2.stand = .away := by
  cases operation with
  | exchange e => exact absurd rfl (hoperation e)
  | _ => cases hrequire : c.require <;> simp [onClient, hrequire, Pc.stand, notConnected]

theorem begin_turns (h : Turns c.gatt stand entered t) (haway : stand t = .away)
    (request : Request) :
    Turns (c.begin t request).1.gatt (Function.update stand t (c.begin t request).2.stand)
      ((c.begin t request).2.exchanging t ++ entered) (t + 1) := by
  have hb : Begins c t request (c.begin t request) := begins request
  generalize c.begin t request = r at hb
  cases hb with
  | reads | writes | choosesType => exact enter_turns h haway
  | subscribes | unsubscribes =>
      exact away_turns h.later haway onClient_gatt (onClient_stand (by simp))
  | _ => exact away_turns h.later haway rfl rfl

theorem leave_turns (h : Turns c.gatt stand entered calls) {k : ℕ}
    (ht : stand t = (Pc.calling k operation).stand) (hpc : pc.stand = .away) :
    Turns (c.leave operation).gatt (Function.update stand t pc.stand)
      (pc.exchanging t ++ entered) calls := by
  cases operation with
  | exchange e =>
      have hnone : pc.exchanging t = [] := Pc.exchanging_of_stand (by rw [hpc]; decide) t
      rw [hpc, hnone]
      exact h.release ht
  | _ => exact away_turns h ht rfl hpc

theorem resume_turns {maxAttempts : ℕ} {outcome : Outcome} (h : Turns c.gatt stand entered calls)
    (ht : stand t = pc.stand) (hresume : c.resume maxAttempts t pc outcome = some (c', pc')) :
    Turns c'.gatt (Function.update stand t pc'.stand) (pc'.exchanging t ++ entered) calls := by
  have hr : Resumes c maxAttempts t pc outcome (c', pc') := resumes_of_resume hresume
  generalize hp : (c', pc') = r at hr
  obtain ⟨rfl, rfl⟩ : c' = r.1 ∧ pc' = r.2 := by simp [← hp]
  cases hr with
  | comesIn exchange hgrants =>
      have hin := inside_turns (c := { c with gatt := c.gatt.grant t }) exchange
        (h.grant hgrants) (Function.update_self _ _ _)
      rwa [Function.update_idem] at hin
  | givesUp exchange => exact h.leave ht
  | completes | throws => exact leave_turns h ht rfl
  | _ => exact away_turns h ht rfl rfl

end BleakTransport

namespace BleakTransport

variable {c c' : BleakTransport} {t : ℕ}

theorem inside_calls (exchange : Exchange) : (c.inside exchange).1.calls = c.calls := by
  cases hrequire : c.require <;> simp [inside, hrequire]

theorem enter_calls (exchange : Exchange) : (c.enter t exchange).1.calls = c.calls := by
  by_cases hfree : c.gatt.isFree
  · rw [enter, if_pos hfree]
    exact inside_calls exchange
  · rw [enter, if_neg hfree]

theorem onClient_calls (operation : Operation) : (c.onClient operation).1.calls = c.calls := by
  cases hrequire : c.require <;> simp [onClient, hrequire]

theorem begin_calls (request : Request) : (c.begin t request).1.calls = c.calls := by
  have hb : Begins c t request (c.begin t request) := begins request
  generalize c.begin t request = r at hb
  cases hb with
  | reads | writes | choosesType => exact enter_calls _
  | subscribes | unsubscribes => exact onClient_calls _
  | _ => rfl

theorem leave_calls (operation : Operation) : (c.leave operation).calls = c.calls := by
  cases operation <;> rfl

theorem resume_calls {maxAttempts : ℕ} {pc pc' : Pc} {outcome : Outcome}
    (h : c.resume maxAttempts t pc outcome = some (c', pc')) : c'.calls = c.calls := by
  have hr : Resumes c maxAttempts t pc outcome (c', pc') := resumes_of_resume h
  generalize hp : (c', pc') = r at hr
  obtain rfl : c' = r.1 := by simp [← hp]
  cases hr with
  | comesIn exchange hgrants => exact inside_calls (c := { c with gatt := c.gatt.grant t }) exchange
  | completes k operation data => exact leave_calls operation
  | throws k operation e => exact leave_calls operation
  | _ => rfl

/-- A call that bleak raises in ends there. -/
theorem raised_of_threw {maxAttempts : ℕ} {pc pc' : Pc} {e : Thrown}
    (h : c.resume maxAttempts t pc (.threw e) = some (c', pc')) : ∃ r, pc' = .raised r := by
  cases resumes_of_resume h <;> exact ⟨_, rfl⟩

theorem returned_of_established {maxAttempts : ℕ} {pc pc' : Pc} {client : BleakClient}
    (h : c.resume maxAttempts t pc (.established client) = some (c', pc')) :
    pc' = .returned .nothing := by
  cases resumes_of_resume h
  rfl

end BleakTransport

theorem exchangers_append (h h' : List Event) :
    exchangers (h ++ h') = exchangers h ++ exchangers h' :=
  List.filterMap_append

namespace Ble

variable {maxAttempts : ℕ} {a a' : Ble} {h : List Event} {action : Action} {t t' : ℕ}

/-- Where the call `t` stands towards the lock. -/
def standing (a : Ble) (t : ℕ) : Stand :=
  match a.parties t with
  | some call => call.pc.stand
  | none => .away

theorem standing_put (a : Ble) (t : ℕ) (core : BleakTransport) (call : Call) :
    standing (a.put t core call) = Function.update a.standing t call.pc.stand := by
  funext t'
  by_cases ht : t' = t
  · simp [standing, ht]
  · simp [standing, Pool.parties_put_of_ne ht, Function.update_of_ne ht]

/-- The call `t` has a read or a write in the backend. -/
def Exchanging (a : Ble) (t : ℕ) : Prop :=
  ∃ request k exchange, a.parties t = some ⟨request, .calling k (.exchange exchange)⟩

/-- The call `t` waits for its turn. -/
def Waiting (a : Ble) (t : ℕ) : Prop :=
  ∃ request exchange, a.parties t = some ⟨request, .waiting exchange⟩

theorem standing_eq_iff {s : Stand} (hs : s ≠ .away) :
    a.standing t = s ↔ ∃ call, a.parties t = some call ∧ call.pc.stand = s := by
  cases hcall : a.parties t with
  | none => simpa [standing, hcall] using hs.symm
  | some call => simp [standing, hcall]

theorem standing_eq_inside : a.standing t = .inside ↔ a.Exchanging t := by
  rw [standing_eq_iff (by decide)]
  constructor
  · rintro ⟨⟨request, pc⟩, hcall, hstand⟩
    obtain ⟨k, exchange, rfl⟩ := Pc.stand_eq_inside.mp hstand
    exact ⟨request, k, exchange, hcall⟩
  · rintro ⟨request, k, exchange, hcall⟩
    exact ⟨_, hcall, rfl⟩

theorem standing_eq_waiting : a.standing t = .waiting ↔ a.Waiting t := by
  rw [standing_eq_iff (by decide)]
  constructor
  · rintro ⟨⟨request, pc⟩, hcall, hstand⟩
    obtain ⟨exchange, rfl⟩ := Pc.stand_eq_waiting.mp hstand
    exact ⟨request, exchange, hcall⟩
  · rintro ⟨request, exchange, hcall⟩
    exact ⟨_, hcall, rfl⟩

/-! ### The record of the reads and writes -/

theorem exchangers_sentBy_put (a : Ble) (t : ℕ) (core : BleakTransport) (call : Call) :
    exchangers (sentBy (a.put t core call) t) = call.pc.exchanging t := by
  obtain ⟨request, pc⟩ := call
  cases pc with
  | calling k operation =>
      cases operation <;> simp [sentBy, exchangers, Event.exchanger, Pc.exchanging]
  | _ => simp [sentBy, exchangers, Pc.exchanging]

theorem exchangers_note_call (a : Ble) (request : Request) :
    exchangers (note a (.call request) (a.arrive request)) =
      (a.core.begin a.core.calls request).2.exchanging a.core.calls := by
  have hcalled : exchangers [.called a.core.calls request a.core.require] = [] := rfl
  have hthrew (e : Option Thrown) : exchangers (e.toList.map (.threw a.core.calls)) = [] := by
    cases e <;> rfl
  rw [note, exchangers_append, exchangers_append, hcalled, hthrew, List.append_nil, List.append_nil]
  exact exchangers_sentBy_put a _ _ _

theorem exchangers_note_resume {outcome : Outcome} {call : Call} {core : BleakTransport} {pc : Pc}
    (hresume : a.core.resume maxAttempts t call.pc outcome = some (core, pc)) :
    exchangers (note a (.resume t outcome) (a.put t core { call with pc })) = pc.exchanging t := by
  have hsent : exchangers (sentBy (a.put t core { call with pc }) t) = pc.exchanging t :=
    exchangers_sentBy_put a t core { call with pc }
  cases outcome with
  | established client =>
      obtain rfl := BleakTransport.returned_of_established hresume
      rfl
  | threw e =>
      obtain ⟨r, rfl⟩ := BleakTransport.raised_of_threw hresume
      rfl
  | _ => exact hsent

/-! ### The invariant -/

/-- The lock agrees with where the calls stand and with the order in which they got
it; the calls are numbered as they come. -/
structure Serial (a : Ble) (h : List Event) : Prop where
  turns : Turns a.core.gatt a.standing (exchangers h) a.core.calls
  fresh : ∀ t, a.core.calls ≤ t → a.parties t = none

theorem serial_initial : Serial initial [] where
  turns := .initial 0
  fresh _ _ := rfl

theorem Serial.arrive (hs : Serial a h) (request : Request) :
    Serial (a.arrive request) (note a (.call request) (a.arrive request) ++ h) := by
  have haway : a.standing a.core.calls = .away := by simp [standing, hs.fresh _ (Nat.le_refl _)]
  have hcalls : (a.arrive request).core.calls = a.core.calls + 1 := by
    simp [Ble.arrive, BleakTransport.begin_calls]
  refine ⟨?_, fun t ht => ?_⟩
  · rw [exchangers_append, exchangers_note_call, hcalls]
    have hstanding := standing_put a a.core.calls
      { (a.core.begin a.core.calls request).1 with
        calls := (a.core.begin a.core.calls request).1.calls + 1 }
      { request, pc := (a.core.begin a.core.calls request).2 }
    have hturns := BleakTransport.begin_turns hs.turns haway request
    rw [← hstanding] at hturns
    exact hturns
  · rw [hcalls] at ht
    have hne : t ≠ a.core.calls := by omega
    rw [Ble.arrive, Pool.parties_put_of_ne hne]
    exact hs.fresh t (by omega)

theorem Serial.resumed (hs : Serial a h) {outcome : Outcome} {call : Call} {core : BleakTransport}
    {pc : Pc} (hcall : a.parties t = some call)
    (hresume : a.core.resume maxAttempts t call.pc outcome = some (core, pc)) :
    Serial (a.put t core { call with pc })
      (note a (.resume t outcome) (a.put t core { call with pc }) ++ h) := by
  have hcalls : core.calls = a.core.calls := BleakTransport.resume_calls hresume
  have hstand : a.standing t = call.pc.stand := by simp [standing, hcall]
  refine ⟨?_, fun t' ht' => ?_⟩
  · rw [exchangers_append, exchangers_note_resume hresume,
      standing_put, Pool.core_put, hcalls]
    exact BleakTransport.resume_turns hs.turns hstand hresume
  · rw [Pool.core_put, hcalls] at ht'
    have hne : t' ≠ t := by
      rintro rfl
      rw [hs.fresh t' ht'] at hcall
      simp at hcall
    rw [Pool.parties_put_of_ne hne]
    exact hs.fresh t' ht'

theorem Serial.step (hs : Serial a h) (hstep : (machine maxAttempts).step a action = some a') :
    Serial a' (note a action a' ++ h) := by
  rcases step_cases hstep with ⟨request, rfl, rfl⟩ |
    ⟨t, outcome, call, core, pc, rfl, hcall, hresume, rfl⟩ | ⟨k, rfl, hk, rfl⟩
  · exact hs.arrive request
  · exact hs.resumed hcall hresume
  · exact ⟨hs.turns, hs.fresh⟩

theorem Serial.of_run {as : List Action}
    (hrun : (recorded maxAttempts).run (initial, []) as = some (a, h)) : Serial a h :=
  Machine.recording_invariant_of_step (fun _ _ _ _ hs => hs.step) serial_initial hrun

/-- The head of the queue can take the lock when it is free. -/
theorem step_granted {request : Request} {exchange : Exchange}
    (hcall : a.parties t = some ⟨request, .waiting exchange⟩) (hgrants : a.core.gatt.grants t) :
    (machine maxAttempts).step a (.resume t .granted) =
      some (a.put t ({ a.core with gatt := a.core.gatt.grant t }.inside exchange).1
        ⟨request, ({ a.core with gatt := a.core.gatt.grant t }.inside exchange).2⟩) :=
  step_resume hcall (by simp [BleakTransport.resume, hgrants])

/-- In every run of the transport, whatever is called when and whatever bleak does:
at most one read or write is in the backend; they begin in the order in which they
were called; and while one waits, another is in the backend or some waiting one can
be given its turn. -/
theorem exchanges_take_turns {as : List Action}
    (hrun : (recorded maxAttempts).run (initial, []) as = some (a, h)) :
    (∀ t t', a.Exchanging t → a.Exchanging t' → t = t') ∧
      (exchangers h).Pairwise (· > ·) ∧
      ∀ t, a.Waiting t → (∃ t', a.Exchanging t') ∨
        ∃ t', a.Waiting t' ∧ ((machine maxAttempts).step a (.resume t' .granted)).isSome := by
  have hs : Serial a h := Serial.of_run hrun
  refine ⟨fun t t' ht ht' => ?_, hs.turns.inOrder, fun t ht => ?_⟩
  · exact hs.turns.eq_of_inside (standing_eq_inside.mpr ht) (standing_eq_inside.mpr ht')
  · rcases hs.turns.exists_next (standing_eq_waiting.mpr ht) with ⟨t', ht'⟩ | ⟨t', ht', hgrants⟩
    · exact .inl ⟨t', standing_eq_inside.mp ht'⟩
    · obtain ⟨request, exchange, hcall⟩ := standing_eq_waiting.mp ht'
      exact .inr ⟨t', ⟨request, exchange, hcall⟩, by rw [step_granted hcall hgrants]; rfl⟩

/-- A connection is made, and a write waits for a read. -/
def queuedWrite : List Action :=
  [.call (.connect "bedjet" 10), .resume 0 (.found (some ⟨"bedjet", none⟩)),
    .resume 0 (.established ⟨.ok [⟨"service", [⟨"command", ["write"]⟩]⟩], true⟩),
    .call (.read "status"), .call (.write "Command" [1] none), .resume 1 (.done [7]),
    .resume 2 .granted]

theorem exchanges_take_turns_queuedWrite :
    ∃ a h, (recorded 4).run (initial, []) queuedWrite = some (a, h) ∧
      (∀ t t', a.Exchanging t → a.Exchanging t' → t = t') ∧
      (exchangers h).Pairwise (· > ·) ∧
      ∀ t, a.Waiting t → (∃ t', a.Exchanging t') ∨
        ∃ t', a.Waiting t' ∧ ((machine 4).step a (.resume t' .granted)).isSome :=
  have hrun : (recorded 4).run (initial, []) queuedWrite = some (_, _) := rfl
  ⟨_, _, hrun, exchanges_take_turns hrun⟩

end Ble

end Bedjet.Transport
