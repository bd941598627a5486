import Bedjet.Transport.Links

/-!
What reaches bleak's backend is what was asked for. A write that leaves its type to
the transport goes out with the type its characteristic declares on the client of
the moment of the call, however long it then waits for its turn.
-/

namespace Bedjet.Transport

open Asyncio

namespace BleakTransport

variable {c c' : BleakTransport} {t k : ℕ} {pc pc' : Pc} {exchange : Exchange}
  {client : Option ℕ} {request : Request}

/-- The read or write is the one that the request, made while there is this client to
use, asks for. -/
def Asked (c : BleakTransport) (request : Request) (client : Option ℕ) : Exchange → Prop
  | .read characteristic => request = .read characteristic
  | .write characteristic data response =>
      request = .write characteristic data (some response) ∨
        request = .write characteristic data none ∧
          ∃ k services, client = some k ∧ k < c.clients.length ∧ c.servicesOf k = .ok services ∧
            response = writeNeedsResponse services characteristic

/-- The services of a client stay what they were. -/
theorem Asked.mono (h : c.Asked request client exchange)
    (hkeep : ∀ k, k < c.clients.length → k < c'.clients.length ∧ c'.servicesOf k = c.servicesOf k) :
    c'.Asked request client exchange := by
  cases exchange with
  | read characteristic => exact h
  | write characteristic data response =>
      rcases h with h | ⟨h, k, services, hclient, hk, hservices, hresponse⟩
      · exact .inl h
      · obtain ⟨hk', hsame⟩ := hkeep k hk
        exact .inr ⟨h, k, services, hclient, hk', hsame.trans hservices, hresponse⟩

end BleakTransport

/-- The read or write a call is at. -/
def Pc.exchange : Pc → Option Exchange
  | .waiting exchange | .calling _ (.exchange exchange) => some exchange
  | _ => none

namespace BleakTransport

variable {c c' : BleakTransport} {t k : ℕ} {pc pc' : Pc} {exchange exchange' : Exchange}

theorem exchange_inside (h : (c.inside exchange).2.exchange = some exchange') :
    exchange = exchange' := by
  cases hrequire : c.require with
  | none => simp [inside, hrequire, notConnected, Pc.exchange] at h
  | some k => simpa [inside, hrequire, Pc.exchange] using h

theorem exchange_enter (h : (c.enter t exchange).2.exchange = some exchange') :
    exchange = exchange' := by
  by_cases hfree : c.gatt.isFree
  · rw [enter, if_pos hfree] at h
    exact exchange_inside (c := { c with gatt := c.gatt.take t }) h
  · rw [enter, if_neg hfree] at h
    simpa [Pc.exchange] using h

theorem exchange_onClient {operation : Operation} (hne : ∀ e, operation ≠ .exchange e) :
    (c.onClient operation).2.exchange = none := by
  cases operation with
  | exchange e => exact absurd rfl (hne e)
  | _ => cases hrequire : c.require <;> simp [onClient, hrequire, notConnected, Pc.exchange]

/-- A new call is at what it was asked for. -/
theorem begin_asked (hlt : ∀ k, c.client = some k → k < c.clients.length) {request : Request}
    (h : (c.begin t request).2.exchange = some exchange) :
    c.Asked request c.require exchange := by
  have hb : Begins c t request (c.begin t request) := begins request
  generalize c.begin t request = r at hb h
  cases hb with
  | reads characteristic =>
      obtain rfl := exchange_enter h
      rfl
  | writes characteristic data response =>
      obtain rfl := exchange_enter h
      exact .inl rfl
  | @choosesType k services characteristic data hrequire hservices =>
      have hk := hlt k (require_eq_some.mp hrequire).1
      obtain rfl := exchange_enter h
      exact .inr ⟨rfl, k, services, hrequire, hk, hservices, rfl⟩
  | subscribes | unsubscribes => simp [exchange_onClient] at h
  | _ => simp [notConnected, Pc.exchange] at h

/-- A call that goes on is at nothing it was not at before. -/
theorem resume_exchange {maxAttempts : ℕ} {outcome : Outcome}
    (h : c.resume maxAttempts t pc outcome = some (c', pc')) (hpc : pc'.exchange = some exchange) :
    pc.exchange = some exchange := by
  have hr : Resumes c maxAttempts t pc outcome (c', pc') := resumes_of_resume h
  generalize hp : (c', pc') = r at hr
  obtain rfl : pc' = r.2 := by simp [← hp]
  cases hr with
  | comesIn exchange' hgrants =>
      obtain rfl := exchange_inside hpc
      rfl
  | _ => simp [Pc.exchange] at hpc

theorem servicesOf_of_clients_eq (h : c'.clients = c.clients) (k : ℕ) (hk : k < c.clients.length) :
    k < c'.clients.length ∧ c'.servicesOf k = c.servicesOf k := by
  simp [servicesOf, h, hk]

theorem resume_servicesOf {maxAttempts : ℕ} {outcome : Outcome}
    (h : c.resume maxAttempts t pc outcome = some (c', pc')) (k : ℕ) (hk : k < c.clients.length) :
    k < c'.clients.length ∧ c'.servicesOf k = c.servicesOf k := by
  rcases resume_client h with ⟨client, -, hclients, -⟩ | ⟨-, hclients, -, -⟩
  · have hk' : k < c.clients.length + 1 := Nat.lt_succ_of_lt hk
    simp [servicesOf, hclients, hk, hk']
  · exact servicesOf_of_clients_eq hclients k hk

theorem drop_servicesOf (k' : ℕ) (k : ℕ) (hk : k < c.clients.length) :
    k < (c.drop k').clients.length ∧ (c.drop k').servicesOf k = c.servicesOf k := by
  refine ⟨by simpa [drop] using hk, ?_⟩
  by_cases heq : k' = k
  · subst heq
    simp [servicesOf, drop, hk]
  · simp [servicesOf, drop, heq]

end BleakTransport

namespace Ble

variable {maxAttempts : ℕ} {a a' : Ble} {h : List Event} {action : Action}

/-- A read or write is begun for a call that asked for it. -/
def Wanted (c : BleakTransport) (e : Event) (earlier : List Event) : Prop :=
  ∀ t k exchange, e = .sent t k (.exchange exchange) →
    ∃ request client, .called t request client ∈ earlier ∧ c.Asked request client exchange

theorem Wanted.mono {c c' : BleakTransport} {e : Event} {earlier : List Event}
    (hw : Wanted c e earlier)
    (hkeep : ∀ k, k < c.clients.length → k < c'.clients.length ∧ c'.servicesOf k = c.servicesOf k) :
    Wanted c' e earlier := by
  intro t k exchange he
  obtain ⟨request, client, hcalled, hasked⟩ := hw t k exchange he
  exact ⟨request, client, hcalled, hasked.mono hkeep⟩

structure Asking (a : Ble) (h : List Event) : Prop where
  calls : ∀ t call exchange, a.parties t = some call → call.pc.exchange = some exchange →
    ∃ client, .called t call.request client ∈ h ∧ a.core.Asked call.request client exchange
  wanted : History.Each (Wanted a.core) h

theorem asking_initial : Asking initial [] where
  calls t call exchange hcall := by simp [initial] at hcall
  wanted := History.each_nil _

namespace Asking

/-- A call that has moved is at what it asked for. -/
theorem put (ha : Asking a h) {t : ℕ} {core : BleakTransport} {call : Call} {es : List Event}
    (hkeep : ∀ k, k < a.core.clients.length →
      k < core.clients.length ∧ core.servicesOf k = a.core.servicesOf k)
    (hcall : ∀ exchange, call.pc.exchange = some exchange →
      ∃ client, .called t call.request client ∈ es ++ h ∧ core.Asked call.request client exchange)
    (hes : History.Each (Wanted core) (es ++ h)) : Asking (a.put t core call) (es ++ h) := by
  refine ⟨fun t' call' exchange hcall' hpc => ?_, hes⟩
  rcases Pool.parties_put_eq_some.mp hcall' with ⟨rfl, rfl⟩ | ⟨-, hcall'⟩
  · exact hcall exchange hpc
  · obtain ⟨client, hcalled, hasked⟩ := ha.calls t' call' exchange hcall' hpc
    exact ⟨client, List.mem_append_right _ hcalled, hasked.mono hkeep⟩

theorem arrive (ha : Asking a h) (hl : Linked a h) (request : Request) :
    Asking (a.arrive request) (note a (.call request) (a.arrive request) ++ h) := by
  have hclients : (a.arrive request).core.clients = a.core.clients :=
    BleakTransport.begin_clients (t := a.core.calls) request
  have hkeep := BleakTransport.servicesOf_of_clients_eq hclients
  have hasked (exchange : Exchange)
      (hpc : (a.core.begin a.core.calls request).2.exchange = some exchange) :
      (a.arrive request).core.Asked request a.core.require exchange :=
    (BleakTransport.begin_asked hl.held_lt hpc).mono hkeep
  have hcalled : .called a.core.calls request a.core.require ∈
      note a (.call request) (a.arrive request) := by simp [note]
  refine ha.put hkeep (fun exchange hpc => ?_) ?_
  · exact ⟨a.core.require, List.mem_append_left _ hcalled, hasked exchange hpc⟩
  · have hold : History.Each (Wanted (a.arrive request).core)
        (((inspecting a.core request).toList.map (.threw a.core.calls) ++
          [.called a.core.calls request a.core.require]) ++ h) := by
      refine (ha.wanted.imp fun e earlier hw => hw.mono hkeep).append fun e he between _ => ?_
      rintro t k exchange rfl
      simp at he
    have hnote : note a (.call request) (a.arrive request) ++ h =
        sentBy (a.arrive request) a.core.calls ++
          (((inspecting a.core request).toList.map (.threw a.core.calls) ++
            [.called a.core.calls request a.core.require]) ++ h) := by
      simp [note]
    rw [hnote]
    refine hold.append fun e he between _ => ?_
    obtain ⟨k', operation, hpc, rfl⟩ := mem_sentBy_arrive he
    intro t k exchange heq
    obtain ⟨rfl, rfl, rfl⟩ : a.core.calls = t ∧ k' = k ∧ operation = .exchange exchange := by
      simpa using heq
    exact ⟨request, a.core.require, by simp, hasked exchange (by rw [hpc]; rfl)⟩

theorem resumed (ha : Asking a h) {t : ℕ} {outcome : Outcome} {call : Call} {core : BleakTransport}
    {pc : Pc} (hcall : a.parties t = some call)
    (hresume : a.core.resume maxAttempts t call.pc outcome = some (core, pc)) :
    Asking (a.put t core { call with pc })
      (note a (.resume t outcome) (a.put t core { call with pc }) ++ h) := by
  have hkeep := BleakTransport.resume_servicesOf hresume
  have hasked (exchange : Exchange) (hpc : pc.exchange = some exchange) :
      ∃ client, .called t call.request client ∈ h ∧ core.Asked call.request client exchange := by
    obtain ⟨client, hcalled, hasked⟩ := ha.calls t call exchange hcall
      (BleakTransport.resume_exchange hresume hpc)
    exact ⟨client, hcalled, hasked.mono hkeep⟩
  refine ha.put hkeep (fun exchange hpc => ?_) ?_
  · obtain ⟨client, hcalled, hasked⟩ := hasked exchange hpc
    exact ⟨client, List.mem_append_right _ hcalled, hasked⟩
  · refine (ha.wanted.imp fun e earlier hw => hw.mono hkeep).append fun e he between _ => ?_
    rintro t' k exchange rfl
    by_cases hestablished : ∃ client, outcome = .established client
    · obtain ⟨client, rfl⟩ := hestablished
      simp [note] at he
    · rcases mem_note_resume (fun client heq => hestablished ⟨client, heq⟩) he with
        ⟨thrown, -, heq⟩ | ⟨k', operation, hpc, heq⟩
      · simp at heq
      · obtain ⟨rfl, rfl, rfl⟩ : t' = t ∧ k = k' ∧ .exchange exchange = operation := by
          simpa using heq
        have hexchange : pc.exchange = some exchange := congrArg Pc.exchange hpc
        obtain ⟨client, hcalled, hasked⟩ := hasked exchange hexchange
        exact ⟨call.request, client, List.mem_append_right _ hcalled, hasked⟩

theorem step (ha : Asking a h) (hl : Linked a h)
    (hstep : (machine maxAttempts).step a action = some a') :
    Asking a' (note a action a' ++ h) := by
  rcases step_cases hstep with ⟨request, rfl, rfl⟩ |
    ⟨t, outcome, call, core, pc, rfl, hcall, hresume, rfl⟩ | ⟨k, rfl, hk, rfl⟩
  · exact ha.arrive hl request
  · exact ha.resumed hcall hresume
  · have hkeep := BleakTransport.drop_servicesOf (c := a.core) k
    refine ⟨fun t call exchange hcall hpc => ?_, ?_⟩
    · obtain ⟨client, hcalled, hasked⟩ := ha.calls t call exchange hcall hpc
      exact ⟨client, List.mem_append_right _ hcalled, hasked.mono hkeep⟩
    · refine (ha.wanted.imp fun e earlier hw => hw.mono hkeep).append fun e he between _ => ?_
      rintro t k exchange rfl
      simp [note] at he

theorem of_run {as : List Action}
    (hrun : (recorded maxAttempts).run (initial, []) as = some (a, h)) : Asking a h := by
  have hstep (s : Ble) (action : Action) (s' : Ble) (h : List Event)
      (hs : Linked s h ∧ Asking s h)
      (hstep : (machine maxAttempts).step s action = some s') :
      Linked s' (note s action s' ++ h) ∧ Asking s' (note s action s' ++ h) :=
    ⟨hs.1.step hstep, hs.2.step hs.1 hstep⟩
  exact (Machine.recording_invariant_of_step (I := fun s h => Linked s h ∧ Asking s h) hstep
    ⟨linked_initial, asking_initial⟩ hrun).2

end Asking

/-- In every run, each read or write is begun for a call that asked for it. A write that
left its type to the transport has the type that its characteristic declares on the
client there was when it was called, and goes to this very client unless a connection
was made while it waited for its turn. -/
theorem exchanges_as_asked {as : List Action}
    (hrun : (recorded maxAttempts).run (initial, []) as = some (a, h))
    {later earlier : List Event} {t k : ℕ} {exchange : Exchange}
    (hsent : h = later ++ .sent t k (.exchange exchange) :: earlier) :
    ∃ request client between before,
      earlier = between ++ .called t request client :: before ∧
        a.core.Asked request client exchange ∧
        (client = some k ∨ ∃ t' up, .connected t' k up ∈ between) := by
  have hasking : Asking a h := Asking.of_run hrun
  have hright : History.Each Rightful h := operations_rightful hrun
  obtain ⟨request, client, hcalled, hasked⟩ :=
    hasking.wanted later _ earlier hsent t k exchange rfl
  obtain ⟨between, before, rfl⟩ := List.append_of_mem hcalled
  refine ⟨request, client, between, before, rfl, hasked, ?_⟩
  by_cases hmade : ∃ t' up, .connected t' k up ∈ between
  · exact .inr hmade
  · have hnone (t' : ℕ) (up : Bool) :
        .connected t' k up ∉ between ++ [.called t request client] := by
      intro hmem
      exact hmade ⟨t', up, by simpa using hmem⟩
    have husable := (hright later _ _ hsent).2
    rw [if_neg (by simp), List.append_cons, usableAfter_eq_some] at husable
    have hbefore : usableAfter before = some k :=
      usableAfter_eq_some.mpr ⟨heldAfter_earlier husable.1 hnone, upAfter_earlier husable.2 hnone⟩
    have hclient : client = usableAfter before :=
      hright (later ++ .sent t k (.exchange exchange) :: between) (.called t request client) before
        (by simp [hsent])
    exact .inl (hclient.trans hbefore)

theorem exchanges_as_asked_queuedWrite :
    ∃ a h later earlier t k exchange,
      (recorded 4).run (initial, []) queuedWrite = some (a, h) ∧
      h = later ++ .sent t k (.exchange exchange) :: earlier ∧
      ∃ request client between before,
        earlier = between ++ .called t request client :: before ∧
          a.core.Asked request client exchange ∧
          (client = some k ∨ ∃ t' up, .connected t' k up ∈ between) :=
  have hrun : (recorded 4).run (initial, []) queuedWrite = some (_, _) := rfl
  have hsent : _ = [] ++ Event.sent _ _ (.exchange _) :: _ := rfl
  ⟨_, _, _, _, _, _, _, hrun, hsent, exchanges_as_asked hrun hsent⟩

end Ble

end Bedjet.Transport
