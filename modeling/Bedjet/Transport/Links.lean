import Bedjet.Asyncio.History
import Bedjet.Transport.Serial

/-!
Which client a `BleakTransport` holds, and whether its link is up, told from what
happened: the connections that were made, the links that dropped and the calls of
`disconnect`.
-/

namespace Bedjet.Transport

open Asyncio

/-! ### What happened to the client -/

namespace Event

/-- The client an event leaves the transport with, if it changes it. -/
def holds : Event → Option (Option ℕ)
  | .connected _ k _ => some (some k)
  | .called _ .disconnect _ => some none
  | _ => none

/-- Whether an event leaves the link of the client `k` up, if it changes it. -/
def ups (k : ℕ) : Event → Option Bool
  | .connected _ k' up => if k' = k then some up else none
  | .dropped k' => if k' = k then some false else none
  | _ => none

end Event

/-- The client that is held after a history. -/
def heldAfter (h : List Event) : Option ℕ :=
  (h.findSome? Event.holds).getD none

/-- Whether the link of the client `k` is up after a history. -/
def upAfter (h : List Event) (k : ℕ) : Bool :=
  (h.findSome? (Event.ups k)).getD false

/-- Whether a link is up after a history. -/
def connectedAfter (h : List Event) : Bool :=
  (heldAfter h).any (upAfter h)

/-- The client that can be used after a history. -/
def usableAfter (h : List Event) : Option ℕ :=
  (heldAfter h).filter (upAfter h)

theorem heldAfter_append_of_forall {es : List Event} (h : List Event)
    (hes : ∀ e ∈ es, e.holds = none) : heldAfter (es ++ h) = heldAfter h := by
  rw [heldAfter, List.findSome?_append, List.findSome?_eq_none_iff.mpr hes, Option.none_or,
    heldAfter]

theorem upAfter_append_of_forall {es : List Event} (h : List Event) (k : ℕ)
    (hes : ∀ e ∈ es, e.ups k = none) : upAfter (es ++ h) k = upAfter h k := by
  rw [upAfter, List.findSome?_append, List.findSome?_eq_none_iff.mpr hes, Option.none_or, upAfter]

/-- Unless a connection was made in the meantime, the client that is held was held
before. -/
theorem heldAfter_earlier {es h : List Event} {k : ℕ} (hheld : heldAfter (es ++ h) = some k)
    (hes : ∀ t up, .connected t k up ∉ es) : heldAfter h = some k := by
  rw [heldAfter, List.findSome?_append] at hheld
  cases hfound : es.findSome? Event.holds with
  | none =>
      rw [hfound, Option.none_or] at hheld
      exact hheld
  | some held =>
      rw [hfound, Option.some_or] at hheld
      obtain rfl : held = some k := hheld
      obtain ⟨e, he, hholds⟩ := List.exists_of_findSome?_eq_some hfound
      cases e with
      | connected t k' up =>
          obtain rfl : k' = k := by simpa [Event.holds] using hholds
          exact absurd he (hes t up)
      | called t request client => cases request <;> simp [Event.holds] at hholds
      | _ => simp [Event.holds] at hholds

/-- Unless a connection was made in the meantime, a link that is up was up before. -/
theorem upAfter_earlier {es h : List Event} {k : ℕ} (hup : upAfter (es ++ h) k)
    (hes : ∀ t up, .connected t k up ∉ es) : upAfter h k := by
  rw [upAfter, List.findSome?_append] at hup
  cases hfound : es.findSome? (Event.ups k) with
  | none =>
      rw [hfound, Option.none_or] at hup
      exact hup
  | some up =>
      rw [hfound, Option.some_or] at hup
      obtain rfl : up = true := hup
      obtain ⟨e, he, hups⟩ := List.exists_of_findSome?_eq_some hfound
      cases e with
      | connected t k' up =>
          obtain ⟨rfl, rfl⟩ : k' = k ∧ up = true := by simpa [Event.ups] using hups
          exact absurd he (hes t true)
      | _ => simp [Event.ups] at hups

theorem usableAfter_eq_some {h : List Event} {k : ℕ} :
    usableAfter h = some k ↔ heldAfter h = some k ∧ upAfter h k := by
  simp [usableAfter, Option.filter_eq_some_iff]

/-! ### What a call does to the client -/

namespace BleakTransport

variable {c c' : BleakTransport} {t k : ℕ} {pc pc' : Pc} {operation : Operation}

theorem require_eq_some : c.require = some k ↔ c.client = some k ∧ c.up k := by
  simp [require, Option.filter_eq_some_iff]

theorem isConnected_iff : c.isConnected ↔ ∃ k, c.client = some k ∧ c.up k := by
  cases hclient : c.client <;> simp [isConnected, hclient]

theorem inside_client (exchange : Exchange) :
    (c.inside exchange).1.clients = c.clients ∧ (c.inside exchange).1.client = c.client := by
  cases hrequire : c.require <;> simp [inside, hrequire]

theorem inside_calling {exchange : Exchange} (h : (c.inside exchange).2 = .calling k operation) :
    operation = .exchange exchange ∧ c.require = some k := by
  cases hrequire : c.require with
  | none => simp [inside, hrequire, notConnected] at h
  | some k' =>
      obtain ⟨rfl, rfl⟩ : k' = k ∧ Operation.exchange exchange = operation := by
        simpa [inside, hrequire] using h
      exact ⟨rfl, rfl⟩

theorem enter_client (exchange : Exchange) :
    (c.enter t exchange).1.clients = c.clients ∧ (c.enter t exchange).1.client = c.client := by
  by_cases hfree : c.gatt.isFree
  · rw [enter, if_pos hfree]
    exact inside_client exchange
  · rw [enter, if_neg hfree]
    exact ⟨rfl, rfl⟩

theorem enter_calling {exchange : Exchange} (h : (c.enter t exchange).2 = .calling k operation) :
    operation = .exchange exchange ∧ c.require = some k := by
  by_cases hfree : c.gatt.isFree
  · rw [enter, if_pos hfree] at h
    exact inside_calling (c := { c with gatt := c.gatt.take t }) h
  · rw [enter, if_neg hfree] at h
    simp at h

theorem onClient_client (operation : Operation) : (c.onClient operation).1 = c := by
  cases hrequire : c.require <;> simp [onClient, hrequire]

theorem onClient_calling {operation' : Operation}
    (h : (c.onClient operation).2 = .calling k operation') :
    operation' = operation ∧ c.require = some k := by
  cases hrequire : c.require with
  | none => simp [onClient, hrequire, notConnected] at h
  | some k' =>
      obtain ⟨rfl, rfl⟩ : k' = k ∧ operation = operation' := by simpa [onClient, hrequire] using h
      exact ⟨rfl, rfl⟩

/-- The client an operation is begun on. -/
theorem begin_calling {request : Request} (h : (c.begin t request).2 = .calling k operation) :
    if request = .disconnect then operation = .disconnect ∧ c.client = some k
    else operation ≠ .disconnect ∧ c.require = some k := by
  have hb : Begins c t request (c.begin t request) := begins request
  generalize c.begin t request = r at hb h
  cases hb with
  | disconnects hclient =>
      obtain ⟨rfl, rfl⟩ := by simpa using h
      simp [hclient]
  | reads | writes | choosesType =>
      obtain ⟨rfl, hrequire⟩ := enter_calling h
      simp [hrequire]
  | subscribes | unsubscribes =>
      obtain ⟨rfl, hrequire⟩ := onClient_calling h
      simp [hrequire]
  | _ => simp [notConnected] at h

theorem begin_clients (request : Request) : (c.begin t request).1.clients = c.clients := by
  have hb : Begins c t request (c.begin t request) := begins request
  generalize c.begin t request = r at hb
  cases hb with
  | reads | writes | choosesType => exact (enter_client _).1
  | subscribes | unsubscribes => rw [onClient_client]
  | _ => rfl

theorem begin_client (request : Request) :
    (c.begin t request).1.client = if request = .disconnect then none else c.client := by
  have hb : Begins c t request (c.begin t request) := begins request
  generalize c.begin t request = r at hb
  cases hb with
  | hasNone hclient => exact hclient
  | reads | writes | choosesType => exact (enter_client _).2
  | subscribes | unsubscribes => simp [onClient_client]
  | misses hrequest | fails _ hrequest => rw [if_neg hrequest]
  | _ => rfl

theorem leave_client (operation : Operation) :
    (c.leave operation).clients = c.clients ∧ (c.leave operation).client = c.client := by
  cases operation <;> exact ⟨rfl, rfl⟩

/-- What a call that is resumed does to the client: it is the end of a `connect`, or
it leaves the client as it is; if it begins an operation, it had waited for its
turn. -/
theorem resume_client {maxAttempts : ℕ} {outcome : Outcome}
    (h : c.resume maxAttempts t pc outcome = some (c', pc')) :
    (∃ client, outcome = .established client ∧ c'.clients = c.clients ++ [client] ∧
        c'.client = some c.clients.length) ∨
      ((∀ client, outcome ≠ .established client) ∧ c'.clients = c.clients ∧ c'.client = c.client ∧
        ∀ k operation, pc' = .calling k operation →
          ∃ exchange, pc = .waiting exchange ∧ operation = .exchange exchange ∧
            c.require = some k) := by
  have hr : Resumes c maxAttempts t pc outcome (c', pc') := resumes_of_resume h
  generalize hp : (c', pc') = r at hr
  obtain ⟨rfl, rfl⟩ : c' = r.1 ∧ pc' = r.2 := by simp [← hp]
  cases hr with
  | connects address name client => exact .inl ⟨client, rfl, rfl, rfl⟩
  | comesIn exchange hgrants =>
      have hclient := inside_client (c := { c with gatt := c.gatt.grant t }) exchange
      refine .inr ⟨by simp, hclient.1, hclient.2, fun k operation hpc => ?_⟩
      obtain ⟨hoperation, hrequire⟩ := inside_calling hpc
      exact ⟨exchange, rfl, hoperation, hrequire⟩
  | completes k operation data =>
      obtain ⟨hclients, hclient⟩ := leave_client (c := c) operation
      exact .inr ⟨by simp, hclients, hclient, by simp⟩
  | throws k operation e =>
      obtain ⟨hclients, hclient⟩ := leave_client (c := c) operation
      exact .inr ⟨by simp, hclients, hclient, by simp⟩
  | _ => exact .inr ⟨by simp, rfl, rfl, by simp⟩

end BleakTransport

namespace Ble

variable {maxAttempts : ℕ} {a a' : Ble} {h : List Event} {action : Action} {t k : ℕ}

/-! ### What a step adds to the record -/

theorem mem_sentBy_put {core : BleakTransport} {call : Call} {e : Event} :
    e ∈ sentBy (a.put t core call) t ↔
      ∃ k operation, call.pc = .calling k operation ∧ e = .sent t k operation := by
  obtain ⟨request, pc⟩ := call
  cases pc <;> simp [sentBy]

theorem mem_sentBy_arrive {request : Request} {e : Event}
    (he : e ∈ sentBy (a.arrive request) a.core.calls) :
    ∃ k operation, (a.core.begin a.core.calls request).2 = .calling k operation ∧
      e = .sent a.core.calls k operation :=
  mem_sentBy_put.mp he

theorem mem_note_resume {outcome : Outcome} {core : BleakTransport} {call : Call} {e : Event}
    (hne : ∀ client, outcome ≠ .established client)
    (he : e ∈ note a (.resume t outcome) (a.put t core call)) :
    (∃ thrown, outcome = .threw thrown ∧ e = .threw t thrown) ∨
      ∃ k operation, call.pc = .calling k operation ∧ e = .sent t k operation := by
  cases outcome with
  | established client => exact absurd rfl (hne client)
  | threw thrown => exact .inl ⟨thrown, rfl, by simpa [note] using he⟩
  | _ => exact .inr (mem_sentBy_put.mp he)

/-! ### The invariant -/

/-- An operation is begun on the client that is held, which nobody has told to
disconnect. Its link is up; `disconnect` alone does not ask, and has just let the
client go. -/
def Rightful : Event → List Event → Prop
  | .called _ _ client, earlier => client = usableAfter earlier
  | .sent t k operation, earlier =>
      (∀ t', .sent t' k .disconnect ∉ earlier) ∧
        if operation = .disconnect then
          ∃ client before, earlier = .called t .disconnect client :: before ∧
            heldAfter before = some k
        else usableAfter earlier = some k
  | _, _ => True

structure Linked (a : Ble) (h : List Event) : Prop where
  client_eq : a.core.client = heldAfter h
  up_eq : ∀ k, a.core.up k = upAfter h k
  held_lt : ∀ k, a.core.client = some k → k < a.core.clients.length
  sent_lt : ∀ t k operation, .sent t k operation ∈ h → k < a.core.clients.length
  unreleased : ∀ k, a.core.client = some k → ∀ t, .sent t k .disconnect ∉ h
  rightful : History.Each Rightful h

theorem linked_initial : Linked initial [] where
  client_eq := rfl
  up_eq k := by simp [initial, BleakTransport.up, upAfter]
  held_lt k hk := by simp [initial] at hk
  sent_lt t k operation hsent := by simp at hsent
  unreleased k hk := by simp [initial] at hk
  rightful := History.each_nil _

namespace Linked

theorem isConnected_eq (hl : Linked a h) : a.core.isConnected = connectedAfter h := by
  rw [BleakTransport.isConnected, connectedAfter, hl.client_eq]
  congr
  funext k
  exact hl.up_eq k

theorem require_eq (hl : Linked a h) : a.core.require = usableAfter h := by
  rw [BleakTransport.require, usableAfter, hl.client_eq]
  congr
  funext k
  exact hl.up_eq k

/-- A connection is made. -/
theorem connect (hl : Linked a h) {core : BleakTransport} {call : Call} {client : BleakClient}
    (hclients : core.clients = a.core.clients ++ [client])
    (hclient : core.client = some a.core.clients.length) :
    Linked (a.put t core call) (.connected t a.core.clients.length client.isConnected :: h) := by
  have hlength : core.clients.length = a.core.clients.length + 1 := by simp [hclients]
  have hold (k : ℕ) (operation : Operation) (t' : ℕ)
      (hsent : .sent t' k operation ∈
        Event.connected t a.core.clients.length client.isConnected :: h) :
      k < a.core.clients.length := by
    rcases List.mem_cons.mp hsent with hnew | hsent
    · simp at hnew
    · exact hl.sent_lt t' k operation hsent
  refine ⟨hclient, fun k => ?_, fun k hk => ?_, fun t' k operation hsent => ?_,
    fun k hk t' hsent => ?_, hl.rightful.cons trivial⟩
  · by_cases hk : k = a.core.clients.length
    · simp [BleakTransport.up, upAfter, Event.ups, hclients, hk]
    · have hup := hl.up_eq k
      have hne : ¬a.core.clients.length = k := fun heq => hk heq.symm
      have hget : core.clients[k]? = a.core.clients[k]? := by
        rw [hclients]
        by_cases hlt : k < a.core.clients.length
        · exact List.getElem?_append_left hlt
        · rw [List.getElem?_eq_none (by simp; omega), List.getElem?_eq_none (by omega)]
      have hsame : core.up k = a.core.up k := by simp [BleakTransport.up, hget]
      rw [Pool.core_put, hsame, hup]
      simp [upAfter, Event.ups, hne]
  · rw [Pool.core_put, hclient] at hk
    obtain rfl : a.core.clients.length = k := by simpa using hk
    rw [Pool.core_put, hlength]
    omega
  · have hlt := hold k operation t' hsent
    rw [Pool.core_put, hlength]
    omega
  · rw [Pool.core_put, hclient] at hk
    obtain rfl : a.core.clients.length = k := by simpa using hk
    have hlt := hold _ _ _ hsent
    omega

/-- A call goes on, and may begin an operation on the client there is. -/
theorem goOn (hl : Linked a h) {core : BleakTransport} {call : Call} {es : List Event}
    (hclients : core.clients = a.core.clients) (hclient : core.client = a.core.client)
    (hes : ∀ e ∈ es, (∃ thrown, e = .threw t thrown) ∨
      ∃ k operation, e = .sent t k operation ∧ operation ≠ .disconnect ∧ a.core.require = some k) :
    Linked (a.put t core call) (es ++ h) := by
  have hholds (e : Event) (he : e ∈ es) : e.holds = none := by
    rcases hes e he with ⟨thrown, rfl⟩ | ⟨k, operation, rfl, -⟩ <;> rfl
  have hups (k : ℕ) (e : Event) (he : e ∈ es) : e.ups k = none := by
    rcases hes e he with ⟨thrown, rfl⟩ | ⟨k', operation, rfl, -⟩ <;> rfl
  have hreleased (k : ℕ) (between : List Event) (hbetween : between ⊆ es) (t' : ℕ) :
      .sent t' k .disconnect ∈ between ++ h → .sent t' k .disconnect ∈ h := by
    intro hsent
    rcases List.mem_append.mp hsent with hsent | hsent
    · rcases hes _ (hbetween hsent) with ⟨thrown, heq⟩ | ⟨k', operation, heq, hne, -⟩
      · simp at heq
      · obtain ⟨-, -, rfl⟩ : t' = t ∧ k = k' ∧ Operation.disconnect = operation := by
          simpa using heq
        exact absurd rfl hne
    · exact hsent
  refine ⟨?_, fun k => ?_, fun k hk => ?_, fun t' k operation hsent => ?_, fun k hk t' hsent => ?_,
    hl.rightful.append fun e he between hbetween => ?_⟩
  · rw [Pool.core_put, hclient, hl.client_eq, heldAfter_append_of_forall h hholds]
  · rw [upAfter_append_of_forall h k (hups k), ← hl.up_eq]
    simp [BleakTransport.up, hclients]
  · rw [Pool.core_put, hclient] at hk
    rw [Pool.core_put, hclients]
    exact hl.held_lt k hk
  · rw [Pool.core_put, hclients]
    rcases List.mem_append.mp hsent with hsent | hsent
    · rcases hes _ hsent with ⟨thrown, heq⟩ | ⟨k', operation', heq, -, hrequire⟩
      · simp at heq
      · obtain ⟨-, rfl, -⟩ : t' = t ∧ k = k' ∧ operation = operation' := by simpa using heq
        exact hl.held_lt k (BleakTransport.require_eq_some.mp hrequire).1
    · exact hl.sent_lt t' k operation hsent
  · rw [Pool.core_put, hclient] at hk
    exact hl.unreleased k hk t' (hreleased k es (List.Subset.refl es) t' hsent)
  · rcases hes e he with ⟨thrown, rfl⟩ | ⟨k, operation, rfl, hne, hrequire⟩
    · trivial
    · have hclient := (BleakTransport.require_eq_some.mp hrequire).1
      have hheld (e : Event) (he : e ∈ between) : e.holds = none := hholds e (hbetween he)
      have hup (e : Event) (he : e ∈ between) : e.ups k = none := hups k e (hbetween he)
      refine ⟨fun t' hsent => ?_, ?_⟩
      · exact hl.unreleased k hclient t' (hreleased k between hbetween t' hsent)
      · rw [if_neg hne, usableAfter_eq_some, heldAfter_append_of_forall h hheld,
          upAfter_append_of_forall h k hup, ← usableAfter_eq_some, ← hl.require_eq]
        exact hrequire

/-- A call is made that is not a `disconnect`. -/
theorem called (hl : Linked a h) {request : Request} (hne : request ≠ .disconnect) :
    Linked a (.called t request a.core.require :: h) := by
  have hholds : (Event.called t request a.core.require).holds = none := by
    cases request with
    | disconnect => exact absurd rfl hne
    | _ => rfl
  refine ⟨?_, fun k => ?_, hl.held_lt, fun t' k operation hsent => ?_, fun k hk t' hsent => ?_,
    hl.rightful.cons hl.require_eq⟩
  · rw [hl.client_eq, ← List.singleton_append, heldAfter_append_of_forall h (by simpa using hholds)]
  · rw [hl.up_eq, ← List.singleton_append, upAfter_append_of_forall h k (by simp [Event.ups])]
  · exact hl.sent_lt t' k operation (by simpa using hsent)
  · exact hl.unreleased k hk t' (by simpa using hsent)

/-- The client is let go, and told to disconnect if there is one. -/
theorem release (hl : Linked a h) {core : BleakTransport} {call : Call} {es : List Event}
    (hclients : core.clients = a.core.clients) (hclient : core.client = none)
    (hes : es = [] ∨ ∃ k, es = [.sent t k .disconnect] ∧ a.core.client = some k) :
    Linked (a.put t core call) (es ++ .called t .disconnect a.core.require :: h) := by
  have hholds (e : Event) (he : e ∈ es) : e.holds = none := by
    rcases hes with rfl | ⟨k, rfl, -⟩
    · simp at he
    · obtain rfl : e = .sent t k .disconnect := by simpa using he
      rfl
  have hups (k : ℕ) (e : Event) (he : e ∈ es) : e.ups k = none := by
    rcases hes with rfl | ⟨k', rfl, -⟩
    · simp at he
    · obtain rfl : e = .sent t k' .disconnect := by simpa using he
      rfl
  have hright : History.Each Rightful (.called t .disconnect a.core.require :: h) :=
    hl.rightful.cons hl.require_eq
  refine ⟨?_, fun k => ?_, fun k hk => ?_, fun t' k operation hsent => ?_, fun k hk => ?_, ?_⟩
  · rw [Pool.core_put, hclient, heldAfter_append_of_forall _ hholds]
    rfl
  · have hcalled : upAfter (.called t .disconnect a.core.require :: h) k = upAfter h k := rfl
    rw [upAfter_append_of_forall _ k (hups k), hcalled, ← hl.up_eq]
    simp [BleakTransport.up, hclients]
  · rw [Pool.core_put, hclient] at hk
    simp at hk
  · rw [Pool.core_put, hclients]
    rcases List.mem_append.mp hsent with hsent | hsent
    · rcases hes with rfl | ⟨k', rfl, hheld⟩
      · simp at hsent
      · obtain ⟨-, rfl, -⟩ : t' = t ∧ k = k' ∧ operation = .disconnect := by simpa using hsent
        exact hl.held_lt k hheld
    · exact hl.sent_lt t' k operation (by simpa using hsent)
  · rw [Pool.core_put, hclient] at hk
    simp at hk
  · rcases hes with rfl | ⟨k, rfl, hheld⟩
    · exact hright
    · refine hright.cons ⟨fun t' hsent => ?_, ?_⟩
      · exact hl.unreleased k hheld t' (by simpa using hsent)
      · rw [if_pos rfl]
        exact ⟨a.core.require, h, rfl, by rw [← hl.client_eq, hheld]⟩

theorem arrive (hl : Linked a h) (request : Request) :
    Linked (a.arrive request) (note a (.call request) (a.arrive request) ++ h) := by
  by_cases hrequest : request = .disconnect
  · subst hrequest
    have hes : sentBy (a.arrive .disconnect) a.core.calls = [] ∨
        ∃ k, sentBy (a.arrive .disconnect) a.core.calls = [.sent a.core.calls k .disconnect] ∧
          a.core.client = some k := by
      cases hclient : a.core.client with
      | none => exact .inl (by simp [Ble.arrive, BleakTransport.begin, hclient, sentBy])
      | some k => exact .inr ⟨k, by simp [Ble.arrive, BleakTransport.begin, hclient, sentBy], rfl⟩
    have hnote : note a (.call .disconnect) (a.arrive .disconnect) ++ h =
        sentBy (a.arrive .disconnect) a.core.calls ++
          .called a.core.calls .disconnect a.core.require :: h := by
      simp [note, inspecting]
    rw [hnote]
    exact hl.release (BleakTransport.begin_clients (t := a.core.calls) .disconnect)
      (BleakTransport.begin_client (t := a.core.calls) .disconnect) hes
  · have hnote : note a (.call request) (a.arrive request) ++ h =
        (sentBy (a.arrive request) a.core.calls ++
          (inspecting a.core request).toList.map (.threw a.core.calls)) ++
            .called a.core.calls request a.core.require :: h := by
      simp [note]
    rw [hnote]
    refine (hl.called hrequest).goOn (BleakTransport.begin_clients request) ?_ fun e he => ?_
    · have hclient := BleakTransport.begin_client (c := a.core) (t := a.core.calls) request
      rwa [if_neg hrequest] at hclient
    · rcases List.mem_append.mp he with he | he
      · obtain ⟨k, operation, hpc, rfl⟩ := mem_sentBy_arrive he
        have hcalling := BleakTransport.begin_calling hpc
        rw [if_neg hrequest] at hcalling
        exact .inr ⟨k, operation, rfl, hcalling⟩
      · obtain ⟨thrown, -, rfl⟩ := List.mem_map.mp he
        exact .inl ⟨thrown, rfl⟩

theorem drop (hl : Linked a h) (hk : k < a.core.clients.length) :
    Linked { a with core := a.core.drop k } (.dropped k :: h) := by
  refine ⟨hl.client_eq, fun k' => ?_, fun k' hk' => ?_, fun t k' operation hsent => ?_,
    fun k' hk' t hsent => ?_, hl.rightful.cons trivial⟩
  · have hup := hl.up_eq k'
    by_cases heq : k = k'
    · subst heq
      simp [BleakTransport.up, BleakTransport.drop, upAfter, Event.ups, hk]
    · have hsame : (a.core.drop k).up k' = a.core.up k' := by
        simp [BleakTransport.up, BleakTransport.drop, heq]
      rw [hsame, hup]
      simp [upAfter, Event.ups, heq]
  · have hlt := hl.held_lt k' hk'
    simpa [BleakTransport.drop] using hlt
  · have hlt := hl.sent_lt t k' operation (by simpa using hsent)
    simpa [BleakTransport.drop] using hlt
  · exact hl.unreleased k' hk' t (by simpa using hsent)

theorem step (hl : Linked a h) (hstep : (machine maxAttempts).step a action = some a') :
    Linked a' (note a action a' ++ h) := by
  rcases step_cases hstep with ⟨request, rfl, rfl⟩ |
    ⟨t, outcome, call, core, pc, rfl, hcall, hresume, rfl⟩ | ⟨k, rfl, hk, rfl⟩
  · exact hl.arrive request
  · rcases BleakTransport.resume_client hresume with ⟨client, rfl, hclients, hclient⟩ |
      ⟨hne, hclients, hclient, hcalling⟩
    · exact hl.connect hclients hclient
    · refine hl.goOn hclients hclient fun e he => ?_
      rcases mem_note_resume hne he with ⟨thrown, -, rfl⟩ | ⟨k, operation, hpc, rfl⟩
      · exact .inl ⟨thrown, rfl⟩
      · obtain ⟨exchange, -, rfl, hrequire⟩ := hcalling k operation hpc
        exact .inr ⟨k, _, rfl, by simp, hrequire⟩
  · exact hl.drop hk

theorem of_run {as : List Action}
    (hrun : (recorded maxAttempts).run (initial, []) as = some (a, h)) : Linked a h :=
  Machine.recording_invariant_of_step (fun _ _ _ _ hl => hl.step) linked_initial hrun

end Linked

/-! ### What follows for runs -/

/-- `is_connected` says what happened: it is true exactly if the last connection that
was made was up, has not dropped since, and `disconnect` has not been called since;
what the disconnecting comes to makes no difference. -/
theorem isConnected_eq_connectedAfter {as : List Action}
    (hrun : (recorded maxAttempts).run (initial, []) as = some (a, h)) :
    a.core.isConnected = connectedAfter h :=
  (Linked.of_run hrun).isConnected_eq

theorem isConnected_eq_connectedAfter_queuedWrite :
    ∃ a h, (recorded 4).run (initial, []) queuedWrite = some (a, h) ∧
      a.core.isConnected = connectedAfter h :=
  have hrun : (recorded 4).run (initial, []) queuedWrite = some (_, _) := rfl
  ⟨_, _, hrun, isConnected_eq_connectedAfter hrun⟩

/-- Every operation is begun on the client of the last connection, and a client that
was told to disconnect is never touched again. -/
theorem operations_rightful {as : List Action}
    (hrun : (recorded maxAttempts).run (initial, []) as = some (a, h)) :
    History.Each Rightful h :=
  (Linked.of_run hrun).rightful

theorem operations_rightful_queuedWrite :
    ∃ a h, (recorded 4).run (initial, []) queuedWrite = some (a, h) ∧ History.Each Rightful h :=
  have hrun : (recorded 4).run (initial, []) queuedWrite = some (_, _) := rfl
  ⟨_, _, hrun, operations_rightful hrun⟩

/-- A client whose link is up though the transport has lost sight of it: it is not
held, and nobody has told it to disconnect. -/
def Stray (x : Ble × List Event) : Prop :=
  ∃ k, x.1.core.up k ∧ x.1.core.client ≠ some k ∧ ∀ t, .sent t k .disconnect ∉ x.2

/-- No connection is made while there is one. -/
def Alone (x : Ble × List Event) : Action → Prop
  | .resume _ (.established _) => x.1.core.isConnected = false
  | _ => True

theorem up_of_clients_eq {c c' : BleakTransport} (h : c'.clients = c.clients) (k : ℕ) :
    c'.up k = c.up k := by
  simp [BleakTransport.up, h]

/-- What is stray after a call was made was stray before. -/
theorem stray_of_arrive {request : Request}
    (hstray : Stray (a.arrive request, note a (.call request) (a.arrive request) ++ h)) :
    Stray (a, h) := by
  obtain ⟨k, hup, hclient, hunreleased⟩ := hstray
  have hbefore : a.core.up k := by
    rw [← hup]
    exact (up_of_clients_eq (BleakTransport.begin_clients (t := a.core.calls) request) k).symm
  have hafter : (a.arrive request).core.client = if request = .disconnect then none
      else a.core.client := BleakTransport.begin_client (t := a.core.calls) request
  refine ⟨k, hbefore, fun hheld => ?_, fun t hsent => hunreleased t (by simp [hsent])⟩
  have hheld' : a.core.client = some k := hheld
  by_cases hrequest : request = .disconnect
  -- the client that `disconnect` lets go is told so
  · subst hrequest
    refine hunreleased a.core.calls ?_
    simp [note, Ble.arrive, BleakTransport.begin, hheld', sentBy]
  · rw [if_neg hrequest, hheld'] at hafter
    exact hclient hafter

theorem not_stray_step (hclean : ¬Stray (a, h)) (hok : Alone (a, h) action)
    (hstep : (machine maxAttempts).step a action = some a') :
    ¬Stray (a', note a action a' ++ h) := by
  rcases step_cases hstep with ⟨request, rfl, rfl⟩ |
    ⟨t, outcome, call, core, pc, rfl, hcall, hresume, rfl⟩ | ⟨k, rfl, hk, rfl⟩
  · exact fun hstray => hclean (stray_of_arrive hstray)
  · rintro ⟨k, hup, hclient', hunreleased⟩
    have hquiet (t' : ℕ) : .sent t' k .disconnect ∉ h := fun hsent =>
      hunreleased t' (List.mem_append_right _ hsent)
    rcases BleakTransport.resume_client hresume with ⟨client, rfl, hclients, hclient⟩ |
      ⟨-, hclients, hclient, -⟩
    · have hdown : a.core.isConnected = false := hok
      have hk : k ≠ a.core.clients.length := by
        rintro rfl
        exact hclient' hclient
      have hup' : (core.clients[k]?).any (·.isConnected) = true := hup
      rw [hclients, List.getElem?_append, List.getElem?_singleton] at hup'
      have hbefore : a.core.up k := by
        by_cases hlt : k < a.core.clients.length
        · rwa [if_pos hlt] at hup'
        · have hgt : k - a.core.clients.length ≠ 0 := by omega
          simp [hlt, hgt] at hup'
      refine hclean ⟨k, hbefore, fun hheld => ?_, hquiet⟩
      have hconnected := BleakTransport.isConnected_iff.mpr ⟨k, hheld, hbefore⟩
      simp [hdown] at hconnected
    · refine hclean ⟨k, ?_, ?_, hquiet⟩
      · rw [← hup]
        exact (up_of_clients_eq hclients k).symm
      · rw [← hclient]
        exact hclient'
  · rintro ⟨k', hup, hclient, hunreleased⟩
    have hne : k ≠ k' := by
      rintro rfl
      simp [BleakTransport.up, BleakTransport.drop, hk] at hup
    refine hclean ⟨k', ?_, hclient, fun t hsent => hunreleased t (List.mem_append_right _ hsent)⟩
    simpa [BleakTransport.up, BleakTransport.drop, hne] using hup

/-- A connection made while there is one makes that one stray. -/
theorem stray_of_not_alone (hl : Linked a h) (hok : ¬Alone (a, h) action)
    (hstep : (machine maxAttempts).step a action = some a') :
    Stray (a', note a action a' ++ h) := by
  cases action with
  | call request => exact absurd trivial hok
  | drop k => exact absurd trivial hok
  | resume t outcome =>
      cases outcome with
      | established client =>
          have hconnected : a.core.isConnected = true := by simpa [Alone] using hok
          rcases step_cases hstep with ⟨request, heq, -⟩ |
            ⟨t', outcome, call, core, pc, heq, hcall, hresume, rfl⟩ | ⟨k, heq, -⟩
          · simp at heq
          · obtain ⟨rfl, rfl⟩ : t = t' ∧ Outcome.established client = outcome := by
              simpa using heq
            rcases BleakTransport.resume_client hresume with ⟨client', -, hclients, hclient⟩ |
              ⟨hne, -⟩
            · obtain ⟨k, hheld, hup⟩ := BleakTransport.isConnected_iff.mp hconnected
              have hlt := hl.held_lt k hheld
              have hup' : core.up k := by
                rwa [BleakTransport.up, hclients, List.getElem?_append_left hlt]
              refine ⟨k, hup', fun heq => ?_, fun t' hsent => ?_⟩
              · have heq' : core.client = some k := heq
                rw [hclient] at heq'
                obtain rfl : a.core.clients.length = k := by simpa using heq'
                exact absurd hlt (Nat.lt_irrefl _)
              · exact hl.unreleased k hheld t' (by simpa [note] using hsent)
            · exact absurd rfl (hne client)
          · simp at heq
      | _ => exact absurd trivial hok

/-- In every run: the links that are up are, all along, the one that is held and those
that are being given back, if and only if every connection is made while there is
none. -/
theorem never_stray_iff {as : List Action} {x : Ble × List Event}
    (hrun : (recorded maxAttempts).run (initial, []) as = some x) :
    (recorded maxAttempts).Always (fun x => ¬Stray x) (initial, []) as ↔
      (recorded maxAttempts).Meets Alone (initial, []) as := by
  have hclean : ¬Stray (initial, []) := by
    rintro ⟨k, hup, -⟩
    simp [initial, BleakTransport.up] at hup
  have hlinked (x : Ble × List Event) (action : Action) (y : Ble × List Event)
      (hx : Linked x.1 x.2) (hxy : (recorded maxAttempts).step x action = some y) :
      Linked y.1 y.2 := by
    obtain ⟨hstep, hhistory⟩ := Machine.step_recording.mp hxy
    rw [hhistory]
    exact hx.step hstep
  constructor
  · intro halways
    refine Machine.meets_of_always hlinked (fun x action y hx _ hok hxy hnot => ?_) linked_initial
      hrun halways
    obtain ⟨hstep, hhistory⟩ := Machine.step_recording.mp hxy
    have hstray := stray_of_not_alone hx hok hstep
    rw [← hhistory] at hstray
    exact hnot hstray
  · intro hmeets
    refine Machine.always_of_meets (I := fun x => ¬Stray x) (fun x action y hx hok hxy => ?_)
      (fun _ hx => hx) hclean hmeets
    obtain ⟨hstep, hhistory⟩ := Machine.step_recording.mp hxy
    have hnot := not_stray_step hx hok hstep
    rwa [← hhistory] at hnot

theorem never_stray_iff_queuedWrite :
    (recorded 4).Always (fun x => ¬Stray x) (initial, []) queuedWrite ↔
      (recorded 4).Meets Alone (initial, []) queuedWrite :=
  have hrun : (recorded 4).run (initial, []) queuedWrite = some _ := rfl
  never_stray_iff hrun

end Ble

end Bedjet.Transport
