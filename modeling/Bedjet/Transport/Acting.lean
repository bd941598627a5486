import Bedjet.Transport.Ble

/-!
What a step of the transport is, one case for each way a call can begin or go on.
-/

namespace Bedjet.Transport

open Asyncio Python

namespace BleakTransport

/-- How the call `t` begins. -/
inductive Begins (c : BleakTransport) (t : ℕ) : Request → BleakTransport × Pc → Prop
  | scans (address : String) (timeout : ℚ) :
      Begins c t (.connect address timeout) (c, .resolving address timeout)
  | disconnects {k : ℕ} (hclient : c.client = some k) :
      Begins c t .disconnect ({ c with client := none }, .calling k .disconnect)
  | hasNone (hclient : c.client = none) : Begins c t .disconnect (c, .returned .nothing)
  | reads (characteristic : String) :
      Begins c t (.read characteristic) (c.enter t (.read characteristic))
  | writes (characteristic : String) (data : Bytes) (response : Bool) :
      Begins c t (.write characteristic data (some response))
        (c.enter t (.write characteristic data response))
  | choosesType {k : ℕ} {services : List GattService} (characteristic : String) (data : Bytes)
      (hrequire : c.require = some k) (hservices : c.servicesOf k = .ok services) :
      Begins c t (.write characteristic data none)
        (c.enter t (.write characteristic data (writeNeedsResponse services characteristic)))
  | subscribes (characteristic : String) (callback : ℕ) (discriminator : Option ℕ) :
      Begins c t (.subscribe characteristic callback discriminator)
        (c.onClient (.startNotify characteristic callback discriminator))
  | unsubscribes (characteristic : String) :
      Begins c t (.unsubscribe characteristic) (c.onClient (.stopNotify characteristic))
  | lists {k : ℕ} {services : List GattService} (hrequire : c.require = some k)
      (hservices : c.servicesOf k = .ok services) :
      Begins c t .services (c, .returned (.layout (layoutOf services)))
  /-- a call that looks at the services finds no link -/
  | misses {request : Request} (hrequest : request ≠ .disconnect)
      (hinspecting : Ble.inspecting c request = none) : Begins c t request (c, notConnected)
  /-- bleak raises where the call looks at the services -/
  | fails {request : Request} {e : Thrown} (doing : String) (hrequest : request ≠ .disconnect)
      (hinspecting : Ble.inspecting c request = some e) :
      Begins c t request (c, .raised (bleakErrorsAsTransport doing e))

/-- How the call `t` goes on. -/
inductive Resumes (c : BleakTransport) (maxAttempts t : ℕ) :
    Pc → Outcome → BleakTransport × Pc → Prop
  | finds (address : String) (timeout : ℚ) (device : BleDevice) :
      Resumes c maxAttempts t (.resolving address timeout) (.found (some device))
        (c, .establishing address (device.label address))
  | findsNone (address : String) (timeout : ℚ) :
      Resumes c maxAttempts t (.resolving address timeout) (.found none)
        (c, .raised (.transportError (notAdvertising address timeout)))
  | scanThrows (address : String) (timeout : ℚ) (e : Thrown) :
      Resumes c maxAttempts t (.resolving address timeout) (.threw e)
        (c, .raised (bleakErrorsAsTransport s!"scanning for {address}" e))
  | connects (address name : String) (client : BleakClient) :
      Resumes c maxAttempts t (.establishing address name) (.established client)
        ({ c with clients := c.clients ++ [client], client := some c.clients.length },
          .returned .nothing)
  | connectionThrows (address name : String) (e : Thrown) :
      Resumes c maxAttempts t (.establishing address name) (.threw e)
        (c, .raised (connectError maxAttempts address e))
  | comesIn (exchange : Exchange) (hgrants : c.gatt.grants t) :
      Resumes c maxAttempts t (.waiting exchange) .granted
        ({ c with gatt := c.gatt.grant t }.inside exchange)
  | givesUp (exchange : Exchange) :
      Resumes c maxAttempts t (.waiting exchange) (.threw .cancelledError)
        ({ c with gatt := c.gatt.leave t }, .raised (.thrown .cancelledError))
  | completes (k : ℕ) (operation : Operation) (data : Bytes) :
      Resumes c maxAttempts t (.calling k operation) (.done data)
        (c.leave operation, .returned (operation.answer data))
  | throws (k : ℕ) (operation : Operation) (e : Thrown) :
      Resumes c maxAttempts t (.calling k operation) (.threw e)
        (c.leave operation, .raised (bleakErrorsAsTransport operation.label e))

variable {c : BleakTransport} {maxAttempts t : ℕ}

theorem begins (request : Request) : Begins c t request (c.begin t request) := by
  cases request with
  | connect address timeout => exact .scans address timeout
  | disconnect =>
      simp only [begin]
      split
      · rename_i hclient
        exact .disconnects hclient
      · rename_i hclient
        exact .hasNone hclient
  | read characteristic => exact .reads characteristic
  | write characteristic data response =>
      cases response with
      | some response => exact .writes characteristic data response
      | none =>
          simp only [begin]
          split
          · rename_i services hservices
            obtain ⟨k, hrequire, hk⟩ := Option.map_eq_some_iff.mp hservices
            exact .choosesType characteristic data hrequire hk
          · rename_i e hservices
            exact .fails _ (by simp) (by simp [Ble.inspecting, hservices])
          · rename_i hservices
            exact .misses (by simp) (by simp [Ble.inspecting, hservices])
  | subscribe characteristic callback discriminator =>
      exact .subscribes characteristic callback discriminator
  | unsubscribe characteristic => exact .unsubscribes characteristic
  | services =>
      simp only [begin]
      split
      · rename_i services hservices
        obtain ⟨k, hrequire, hk⟩ := Option.map_eq_some_iff.mp hservices
        exact .lists hrequire hk
      · rename_i e hservices
        exact .fails _ (by simp) (by simp [Ble.inspecting, hservices])
      · rename_i hservices
        exact .misses (by simp) (by simp [Ble.inspecting, hservices])

theorem resumes_of_resume {pc : Pc} {outcome : Outcome} {r : BleakTransport × Pc}
    (h : c.resume maxAttempts t pc outcome = some r) : Resumes c maxAttempts t pc outcome r := by
  unfold resume at h
  split at h
  case h_6 exchange =>
    obtain ⟨hgrants, h⟩ := Option.ite_none_right_eq_some.mp h
    obtain rfl := Option.some.inj h
    exact .comesIn exchange hgrants
  case h_10 => simp at h
  all_goals
    obtain rfl := Option.some.inj h
    constructor

end BleakTransport

namespace Ble

variable {maxAttempts : ℕ} {a a' : Ble} {action : Action}

theorem step_cases (h : (machine maxAttempts).step a action = some a') :
    (∃ request, action = .call request ∧ a' = a.arrive request) ∨
      (∃ t outcome call core pc, action = .resume t outcome ∧ a.parties t = some call ∧
        a.core.resume maxAttempts t call.pc outcome = some (core, pc) ∧
        a' = a.put t core { call with pc }) ∨
      (∃ k, action = .drop k ∧ k < a.core.clients.length ∧
        a' = { a with core := a.core.drop k }) := by
  cases action with
  | call request =>
      obtain rfl : a.arrive request = a' := by simpa [machine, step] using h
      exact .inl ⟨request, rfl, rfl⟩
  | resume t outcome =>
      obtain ⟨call, hcall, h⟩ := Option.bind_eq_some_iff.mp h
      obtain ⟨⟨core, pc⟩, hresume, h⟩ := Option.bind_eq_some_iff.mp h
      obtain rfl : a.put t core { call with pc } = a' := by simpa using h
      exact .inr (.inl ⟨t, outcome, call, core, pc, rfl, hcall, hresume, rfl⟩)
  | drop k =>
      by_cases hk : k < a.core.clients.length
      · obtain rfl : { a with core := a.core.drop k } = a' := by simpa [machine, step, hk] using h
        exact .inr (.inr ⟨k, rfl, hk, rfl⟩)
      · simp [machine, step, hk] at h

/-- A call can be resumed as its coroutine can. -/
theorem step_resume {t : ℕ} {outcome : Outcome} {call : Call} {r : BleakTransport × Pc}
    (hcall : a.parties t = some call)
    (hresume : a.core.resume maxAttempts t call.pc outcome = some r) :
    (machine maxAttempts).step a (.resume t outcome) =
      some (a.put t r.1 { call with pc := r.2 }) := by
  simp [machine, step, hcall, hresume]

end Ble

end Bedjet.Transport
