import Bedjet.Transport.Links

/-!
What bleak raises in a call is what the call ends with: a `BleakError` as a
`TransportError` that tells its text, anything else as it is. Nothing is swallowed,
and no `BleakError` leaves the transport.
-/

namespace Bedjet.Transport

open Asyncio

/-- What an exception that bleak raises is to become. -/
def Thrown.Becomes : Thrown → Raised → Prop
  | .bleakError e, r => ∃ text, r = .transportError text ∧ e.text.toList <:+: text.toList
  | e, r => r = .thrown e

theorem becomes_bleakErrorsAsTransport (operation : String) (e : Thrown) :
    e.Becomes (bleakErrorsAsTransport operation e) := by
  cases e with
  | bleakError e =>
      refine ⟨_, rfl, ?_⟩
      simp only [String.toList_append]
      exact (List.suffix_append _ _).isInfix
  | other typeName text => rfl
  | cancelledError => rfl

theorem becomes_connectError (maxAttempts : ℕ) (address : String) (e : Thrown) :
    e.Becomes (connectError maxAttempts address e) := by
  cases e with
  | bleakError e =>
      obtain ⟨cls, typeName, text⟩ := e
      cases cls <;> refine ⟨_, rfl, ?_⟩ <;> simp only [String.toList_append, List.append_assoc] <;>
        repeat (first
          | exact List.infix_append_left
          | apply List.infix_append_of_infix_right)
  | other typeName text => rfl
  | cancelledError => rfl

namespace BleakTransport

variable {c c' : BleakTransport} {t : ℕ} {pc pc' : Pc} {r : Raised}

theorem inside_raised {exchange : Exchange} (h : (c.inside exchange).2 = .raised r) :
    ∃ text, r = .transportError text := by
  cases hrequire : c.require with
  | none =>
      obtain rfl : .transportError "not connected" = r := by
        simpa [inside, hrequire, notConnected] using h
      exact ⟨_, rfl⟩
  | some k => simp [inside, hrequire] at h

theorem enter_raised {exchange : Exchange} (h : (c.enter t exchange).2 = .raised r) :
    ∃ text, r = .transportError text := by
  by_cases hfree : c.gatt.isFree
  · rw [enter, if_pos hfree] at h
    exact inside_raised (c := { c with gatt := c.gatt.take t }) h
  · rw [enter, if_neg hfree] at h
    simp at h

theorem onClient_raised {operation : Operation} (h : (c.onClient operation).2 = .raised r) :
    ∃ text, r = .transportError text := by
  cases hrequire : c.require with
  | none =>
      obtain rfl : .transportError "not connected" = r := by
        simpa [onClient, hrequire, notConnected] using h
      exact ⟨_, rfl⟩
  | some k => simp [onClient, hrequire] at h

/-- A new call that raises at once reports what the services raised, or says that there
is no link. -/
theorem begin_raised {request : Request} (h : (c.begin t request).2 = .raised r) :
    match Ble.inspecting c request with
    | some e => e.Becomes r
    | none => ∃ text, r = .transportError text := by
  have hb : Begins c t request (c.begin t request) := begins request
  generalize c.begin t request = r' at hb h
  cases hb with
  | reads | writes => exact enter_raised h
  | choosesType characteristic data hrequire hservices =>
      simp only [Ble.inspecting, hrequire, Option.map_some, hservices]
      exact enter_raised h
  | subscribes | unsubscribes => exact onClient_raised h
  | misses hrequest hinspecting =>
      obtain rfl : .transportError "not connected" = r := by simpa [notConnected] using h
      rw [hinspecting]
      exact ⟨_, rfl⟩
  | @fails _ e doing hrequest hinspecting =>
      obtain rfl : bleakErrorsAsTransport doing e = r := by simpa using h
      rw [hinspecting]
      exact becomes_bleakErrorsAsTransport _ e
  | _ => simp at h

/-- If the services raise, so does the call that looks at them. -/
theorem raised_of_inspecting {request : Request} {e : Thrown}
    (h : Ble.inspecting c request = some e) : ∃ r, (c.begin t request).2 = .raised r := by
  have hb : Begins c t request (c.begin t request) := begins request
  generalize c.begin t request = r at hb
  cases hb with
  | choosesType characteristic data hrequire hservices =>
      simp [Ble.inspecting, hrequire, hservices] at h
  | lists hrequire hservices => simp [Ble.inspecting, hrequire, hservices] at h
  | misses hrequest hinspecting => simp [hinspecting] at h
  | fails => exact ⟨_, rfl⟩
  | _ => simp [Ble.inspecting] at h

/-- A call that goes on and raises reports what bleak raised, or says that there is no
device or no link. -/
theorem resume_raised {maxAttempts : ℕ} {outcome : Outcome}
    (h : c.resume maxAttempts t pc outcome = some (c', .raised r)) :
    (∃ e, outcome = .threw e ∧ e.Becomes r) ∨
      (∀ e, outcome ≠ .threw e) ∧ ∃ text, r = .transportError text := by
  have hr : Resumes c maxAttempts t pc outcome (c', .raised r) := resumes_of_resume h
  generalize hp : (c', Pc.raised r) = r' at hr
  have hraised : r'.2 = .raised r := by simp [← hp]
  cases hr with
  | findsNone address timeout =>
      obtain rfl := by simpa using hraised
      exact .inr ⟨by simp, _, rfl⟩
  | scanThrows address timeout e =>
      obtain rfl := by simpa using hraised
      exact .inl ⟨e, rfl, becomes_bleakErrorsAsTransport _ e⟩
  | connectionThrows address name e =>
      obtain rfl := by simpa using hraised
      exact .inl ⟨e, rfl, becomes_connectError maxAttempts address e⟩
  | comesIn exchange hgrants => exact .inr ⟨by simp, inside_raised hraised⟩
  | givesUp exchange =>
      obtain rfl := by simpa using hraised
      exact .inl ⟨_, rfl, rfl⟩
  | throws k operation e =>
      obtain rfl := by simpa using hraised
      exact .inl ⟨e, rfl, becomes_bleakErrorsAsTransport _ e⟩
  | _ => simp at hraised

end BleakTransport

namespace Ble

variable {maxAttempts : ℕ} {a a' : Ble} {h : List Event} {action : Action} {t : ℕ}

/-- What a call that raised says of what bleak raised in it. -/
def Reports (h : List Event) (t : ℕ) (r : Raised) : Prop :=
  (∃ e, .threw t e ∈ h ∧ e.Becomes r) ∨
    (∀ e, .threw t e ∉ h) ∧ ∃ text, r = .transportError text

structure Reported (a : Ble) (h : List Event) : Prop where
  ended : ∀ t call r, a.parties t = some call → call.pc = .raised r → Reports h t r
  kept : ∀ t e, .threw t e ∈ h →
    ∃ call r, a.parties t = some call ∧ call.pc = .raised r ∧ e.Becomes r

theorem reported_initial : Reported initial [] where
  ended t call r hcall := by simp [initial] at hcall
  kept t e he := by simp at he

namespace Reported

/-- A call has moved, and what it reports is what bleak raised in it. -/
theorem put (hr : Reported a h) {core : BleakTransport} {call : Call} {es : List Event}
    (hother : ∀ t' e, .threw t' e ∈ es → t' = t)
    (hnew : ∀ e, .threw t e ∉ h)
    (hended : ∀ r, call.pc = .raised r → Reports es t r)
    (hkept : ∀ e, .threw t e ∈ es → ∃ r, call.pc = .raised r ∧ e.Becomes r) :
    Reported (a.put t core call) (es ++ h) := by
  refine ⟨fun t' call' r hcall' hpc => ?_, fun t' e he => ?_⟩
  · rcases Pool.parties_put_eq_some.mp hcall' with ⟨rfl, rfl⟩ | ⟨hne, hcall'⟩
    · rcases hended r hpc with ⟨e, he, hbecomes⟩ | ⟨hnone, htext⟩
      · exact .inl ⟨e, List.mem_append_left _ he, hbecomes⟩
      · refine .inr ⟨fun e he => ?_, htext⟩
        rcases List.mem_append.mp he with he | he
        · exact hnone e he
        · exact hnew e he
    · rcases hr.ended t' call' r hcall' hpc with ⟨e, he, hbecomes⟩ | ⟨hnone, htext⟩
      · exact .inl ⟨e, List.mem_append_right _ he, hbecomes⟩
      · refine .inr ⟨fun e he => ?_, htext⟩
        rcases List.mem_append.mp he with he | he
        · exact hne (hother t' e he)
        · exact hnone e he
  · rcases List.mem_append.mp he with he | he
    · obtain rfl := hother t' e he
      obtain ⟨r, hpc, hbecomes⟩ := hkept e he
      exact ⟨call, r, Pool.parties_put_self, hpc, hbecomes⟩
    · obtain ⟨call', r, hcall', hpc, hbecomes⟩ := hr.kept t' e he
      have hne : t' ≠ t := by
        rintro rfl
        exact hnew e he
      exact ⟨call', r, by rwa [Pool.parties_put_of_ne hne], hpc, hbecomes⟩

/-- In a call that has not ended, bleak has raised nothing. -/
theorem not_threw (hr : Reported a h) (hcall : ∀ call r, a.parties t = some call →
    call.pc ≠ .raised r) (e : Thrown) : .threw t e ∉ h := by
  intro he
  obtain ⟨call, r, hparty, hpc, -⟩ := hr.kept t e he
  exact hcall call r hparty hpc

theorem arrive (hr : Reported a h) (hs : Serial a h) (request : Request) :
    Reported (a.arrive request) (note a (.call request) (a.arrive request) ++ h) := by
  have hnone : a.parties a.core.calls = none := hs.fresh _ (Nat.le_refl _)
  have hthrew (t : ℕ) (e : Thrown) :
      .threw t e ∈ note a (.call request) (a.arrive request) ↔
        t = a.core.calls ∧ inspecting a.core request = some e := by
    have hsent : .threw t e ∉ sentBy (a.arrive request) a.core.calls := by
      intro he
      obtain ⟨k, operation, -, heq⟩ := mem_sentBy_arrive he
      simp at heq
    simp only [note, List.mem_append, hsent, List.mem_map, List.mem_singleton, Option.mem_toList,
      Event.threw.injEq, false_or, reduceCtorEq, or_false]
    constructor
    · rintro ⟨e', he', rfl, rfl⟩
      exact ⟨rfl, he'⟩
    · rintro ⟨rfl, he⟩
      exact ⟨e, he, rfl, rfl⟩
  refine hr.put (fun t e he => ((hthrew t e).mp he).1) (hr.not_threw (by simp [hnone]))
    (fun r hpc => ?_) (fun e he => ?_)
  · have hraised := BleakTransport.begin_raised (c := a.core) (t := a.core.calls) hpc
    cases hinspecting : inspecting a.core request with
    | some e =>
        rw [hinspecting] at hraised
        exact .inl ⟨e, (hthrew _ e).mpr ⟨rfl, hinspecting⟩, hraised⟩
    | none =>
        rw [hinspecting] at hraised
        refine .inr ⟨fun e he => ?_, hraised⟩
        have hsome := ((hthrew _ e).mp he).2
        simp [hinspecting] at hsome
  · have hinspecting := ((hthrew _ e).mp he).2
    obtain ⟨r, hpc⟩ := BleakTransport.raised_of_inspecting (t := a.core.calls) hinspecting
    have hraised := BleakTransport.begin_raised (c := a.core) hpc
    rw [hinspecting] at hraised
    exact ⟨r, hpc, hraised⟩

theorem resumed (hr : Reported a h) {outcome : Outcome} {call : Call} {core : BleakTransport}
    {pc : Pc} (hcall : a.parties t = some call)
    (hresume : a.core.resume maxAttempts t call.pc outcome = some (core, pc)) :
    Reported (a.put t core { call with pc })
      (note a (.resume t outcome) (a.put t core { call with pc }) ++ h) := by
  have hthrew (t' : ℕ) (e : Thrown) :
      .threw t' e ∈ note a (.resume t outcome) (a.put t core { call with pc }) ↔
        t' = t ∧ outcome = .threw e := by
    cases outcome with
    | established client => simp [note]
    | threw e' => simp [note, eq_comm]
    | _ =>
        simp only [note, reduceCtorEq, and_false, iff_false]
        intro he
        obtain ⟨k, operation, -, heq⟩ := mem_sentBy_put.mp he
        simp at heq
  have hrunning (call' : Call) (r : Raised) (hcall' : a.parties t = some call') :
      call'.pc ≠ .raised r := by
    obtain rfl : call = call' := Option.some.inj (hcall.symm.trans hcall')
    intro hpc
    rw [hpc] at hresume
    simp [BleakTransport.resume] at hresume
  refine hr.put (fun t' e he => ((hthrew t' e).mp he).1) (hr.not_threw hrunning)
    (fun r hpc => ?_) (fun e he => ?_)
  · obtain rfl : pc = .raised r := hpc
    rcases BleakTransport.resume_raised hresume with ⟨e, he, hbecomes⟩ | ⟨hne, htext⟩
    · exact .inl ⟨e, (hthrew t e).mpr ⟨rfl, he⟩, hbecomes⟩
    · exact .inr ⟨fun e he => hne e ((hthrew t e).mp he).2, htext⟩
  · obtain rfl := ((hthrew t e).mp he).2
    obtain ⟨r, rfl⟩ := BleakTransport.raised_of_threw hresume
    rcases BleakTransport.resume_raised hresume with ⟨e', he', hbecomes⟩ | ⟨hne, -⟩
    · obtain rfl : e = e' := by simpa using he'
      exact ⟨r, rfl, hbecomes⟩
    · exact absurd rfl (hne e)

theorem step (hr : Reported a h) (hs : Serial a h)
    (hstep : (machine maxAttempts).step a action = some a') :
    Reported a' (note a action a' ++ h) := by
  rcases step_cases hstep with ⟨request, rfl, rfl⟩ |
    ⟨t, outcome, call, core, pc, rfl, hcall, hresume, rfl⟩ | ⟨k, rfl, hk, rfl⟩
  · exact hr.arrive hs request
  · exact hr.resumed hcall hresume
  · refine ⟨fun t call r hcall hpc => ?_, fun t e he => hr.kept t e (by simpa [note] using he)⟩
    simpa [Reports, note] using hr.ended t call r hcall hpc

theorem of_run {as : List Action}
    (hrun : (recorded maxAttempts).run (initial, []) as = some (a, h)) : Reported a h := by
  have hstep (s : Ble) (action : Action) (s' : Ble) (h : List Event)
      (hs : Serial s h ∧ Reported s h)
      (hstep : (machine maxAttempts).step s action = some s') :
      Serial s' (note s action s' ++ h) ∧ Reported s' (note s action s' ++ h) :=
    ⟨hs.1.step hstep, hs.2.step hs.1 hstep⟩
  exact (Machine.recording_invariant_of_step (I := fun s h => Serial s h ∧ Reported s h) hstep
    ⟨serial_initial, reported_initial⟩ hrun).2

end Reported

/-- In every run: a call in which bleak raised has ended with what the exception was to
become, and a call that raised without bleak doing so raised a `TransportError`. So
no `BleakError` leaves the transport, and no other exception is changed or lost. -/
theorem errors_reported {as : List Action}
    (hrun : (recorded maxAttempts).run (initial, []) as = some (a, h)) :
    (∀ t e, .threw t e ∈ h →
        ∃ call r, a.parties t = some call ∧ call.pc = .raised r ∧ e.Becomes r) ∧
      (∀ t call r, a.parties t = some call → call.pc = .raised r → Reports h t r) ∧
      ∀ t call e, a.parties t = some call → call.pc ≠ .raised (.thrown (.bleakError e)) := by
  have hr : Reported a h := Reported.of_run hrun
  refine ⟨hr.kept, hr.ended, fun t call e hcall hpc => ?_⟩
  rcases hr.ended t call _ hcall hpc with ⟨e', -, hbecomes⟩ | ⟨-, text, heq⟩
  · cases e' with
    | bleakError e' =>
        obtain ⟨text, heq, -⟩ := hbecomes
        simp at heq
    | other typeName text => simp [Thrown.Becomes] at hbecomes
    | cancelledError => simp [Thrown.Becomes] at hbecomes
  · simp at heq

theorem errors_reported_queuedWrite :
    ∃ a h, (recorded 4).run (initial, []) queuedWrite = some (a, h) ∧
      (∀ t e, .threw t e ∈ h →
        ∃ call r, a.parties t = some call ∧ call.pc = .raised r ∧ e.Becomes r) ∧
      (∀ t call r, a.parties t = some call → call.pc = .raised r → Reports h t r) ∧
      ∀ t call e, a.parties t = some call → call.pc ≠ .raised (.thrown (.bleakError e)) :=
  have hrun : (recorded 4).run (initial, []) queuedWrite = some (_, _) := rfl
  ⟨_, _, hrun, errors_reported hrun⟩

end Ble

end Bedjet.Transport
