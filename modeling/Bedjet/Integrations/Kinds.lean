import Bedjet.Api.CallRuns
import Bedjet.Integrations.HttpWs
import Bedjet.Integrations.Mqtt

/-!
The three failure modes of a command, as the two adapters tell them. The guard
of the HTTP adapter tells each by its name; the MQTT bridge singles out the
unverified write and calls everything else refused, an unavailable link too.
-/

namespace Bedjet.Integrations

open Python Protocol Device Service Asyncio Api History

/-- What a route handler makes of the answer to its call, for the guard. -/
def routeResult : ApiAnswer → Except HttpException CommandOutcome
  | .returned outcome => .ok outcome
  | .unavailable detail => .error (.api (.unavailable (Str.of detail)))
  | .refused detail => .error (.api (.refused (Str.of detail)))
  | .unverified detail => .error (.api (.unverified (Str.of detail)))
  | .escaped _ => .error .other

/-- The kind of error in the body of the HTTP response. -/
def httpKind (answer : ApiAnswer) : Option String :=
  match translateErrors (routeResult answer) with
  | .ok (.error kind _ _) => some kind
  | _ => none

/-- The kind of error in the MQTT result. -/
def mqttKind (name : String) (answer : ApiAnswer) : Option String :=
  match report name answer with
  | .ok (.error _ kind _) => some kind
  | _ => none

end Bedjet.Integrations

namespace Bedjet.Api

open Python Protocol Device Service Asyncio History

/-- The answer is an `ApiError`. -/
def ApiAnswer.isApiError : ApiAnswer → Bool
  | .unavailable _ | .refused _ | .unverified _ => true
  | .returned _ | .escaped _ => false

/-- The API asks for the link only for a request that is in order. -/
def ApiRequest.WellFormed (request : ApiRequest) : Prop :=
  ∃ resolved, request.resolve = .ok resolved

theorem ofEncodeError_refused {e : Encode.EncodeError} (h : (ofEncodeError e).isApiError) :
    ∃ detail, ofEncodeError e = .refused detail := by
  cases e with
  | command message => exact ⟨message, rfl⟩
  | conversion => simp [ofEncodeError, ApiAnswer.isApiError] at h

theorem ApiRequest.refused_of_resolve {request : ApiRequest} {answer : ApiAnswer}
    (h : request.resolve = .error answer) (herror : answer.isApiError) :
    ∃ detail, answer = .refused detail := by
  have hresolves := request.resolves
  rw [h] at hresolves
  cases hresolves with
  | refused detail => exact ⟨detail, rfl⟩
  | targetRaises | fanRaises => exact ofEncodeError_refused herror

/-- The `ApiError`s of a command: a refusal, or a write that was not confirmed. -/
theorem isApiError_translate {description : String} {dryRun : Bool}
    {before after : DeviceSnapshot} {ending : Ending}
    (h : (translate description dryRun before after ending).isApiError) :
    (∃ detail, translate description dryRun before after ending = .refused detail) ∨
      ∃ detail, translate description dryRun before after ending = .unverified detail := by
  cases ending with
  | returned result => simp [translate, ApiAnswer.isApiError] at h
  | raised exception =>
      cases exception with
      | refused message => exact .inl ⟨message, rfl⟩
      | alreadySatisfied message => simp [translate, ApiAnswer.isApiError] at h
      | encode e => exact .inl (ofEncodeError_refused h)
      | unverified message cause => exact .inr ⟨message, rfl⟩
      | assertion => simp [translate, ApiAnswer.isApiError] at h

namespace System

variable {cfg : Config} {s s₁ s' : System} {request : ApiRequest} {call : ApiCall}
  {answer : ApiAnswer} {actions : List Action}

/-- How a call made in a state fails: each `ApiError` says what it says. -/
inductive Fails (s s' : System) (request : ApiRequest) (call : ApiCall) : ApiAnswer → Prop
  | unavailable {detail : String} (hwell : request.WellFormed) (hlink : s.lease.link ≠ .connected)
      (hwrites : call.writes s'.trace = []) : Fails s s' request call (.unavailable detail)
  | refused {detail : String} (hreason : request.WellFormed → s.lease.link = .connected)
      (hwrites : call.writes s'.trace = []) : Fails s s' request call (.refused detail)
  | unverified {detail : String} (hwell : request.WellFormed) (hlink : s.lease.link = .connected)
      (hwrites : call.writes s'.trace ≠ []) : Fails s s' request call (.unverified detail)

theorem fails_of_run (hreach : Reachable cfg s)
    (hstep : (machine cfg).step s (.call request false) = some s₁)
    (hrun : (machine cfg).run s₁ actions = some s')
    (hcall : s'.calls[s.calls.length]? = some call) (hanswer : call.answer = some answer)
    (herror : answer.isApiError) : s.Fails s' request call answer := by
  have hreach' : Reachable cfg s' := (hreach.step hstep).run hrun
  have hsound₁ : s₁.Sound := (hreach.step hstep).sound
  cases begins_of_step hstep with
  | @refused refusal hresolve hbegan =>
      obtain ⟨call', hcall', hcontinues⟩ := call_run hbegan hsound₁ hrun
      obtain rfl : call = call' := Option.some.inj (hcall.symm.trans hcall')
      obtain rfl := hcontinues.answered rfl
      obtain rfl : refusal = answer := Option.some.inj hanswer
      obtain ⟨detail, rfl⟩ := ApiRequest.refused_of_resolve hresolve herror
      refine .refused ?_ rfl
      rintro ⟨resolved, hwell⟩
      simp [hresolve] at hwell
  | @unavailable resolved message hresolve hlink hbegan =>
      obtain ⟨call', hcall', hcontinues⟩ := call_run hbegan hsound₁ hrun
      obtain rfl : call = call' := Option.some.inj (hcall.symm.trans hcall')
      obtain rfl := hcontinues.answered rfl
      obtain rfl : ApiAnswer.unavailable message = answer := Option.some.inj hanswer
      exact .unavailable ⟨resolved, hresolve⟩ hlink rfl
  | @commands resolved began hresolve hlink hbegan hcommand hrequest =>
      obtain ⟨call', hcall', hcontinues⟩ := call_run hbegan hsound₁ hrun
      obtain rfl : call = call' := Option.some.inj (hcall.symm.trans hcall')
      have hawaits := hcontinues.command.trans hcommand
      obtain ⟨c, ending, description, before, after, hc, hdry, hpc, rfl⟩ :=
        hreach'.told.ended hcall hawaits hanswer
      have hledger : Settled s'.trace s.commander.commands.length c.request call.dryRun ending := by
        have haccount := hreach'.accounted.ledger _ c hc
        simpa [Ledger, hpc, hdry] using haccount
      have htruth : Truthful s'.trace call
          (translate description call.dryRun before after ending) :=
        truthful_translate hawaits hledger
      rcases isApiError_translate herror with ⟨detail, hrefused⟩ | ⟨detail, hunverified⟩
      · rw [hrefused] at htruth ⊢
        exact .refused (fun _ => hlink) htruth
      · rw [hunverified] at htruth ⊢
        obtain ⟨payload, hpayload⟩ := htruth
        exact .unverified ⟨resolved, hresolve⟩ hlink (by simp [hpayload])

end System

end Bedjet.Api

namespace Bedjet.Integrations

open Python Protocol Device Service Asyncio Api History

/-- Both adapters tell the failure of a call by the same name, and the name says
what happened. -/
structure TellsApart (s s' : System) (request : ApiRequest) (call : ApiCall) (name : String)
    (answer : ApiAnswer) : Prop where
  agrees : mqttKind name answer = httpKind answer
  unavailable : httpKind answer = some "unavailable" ↔
    request.WellFormed ∧ s.lease.link ≠ .connected
  refused : httpKind answer = some "refused" ↔
    (request.WellFormed → s.lease.link = .connected) ∧ call.writes s'.trace = []
  unverified : httpKind answer = some "unverified" ↔ call.writes s'.trace ≠ []

variable {cfg : Config} {s s₁ s' : System} {request : ApiRequest} {call : ApiCall}
  {answer : ApiAnswer} {actions : List Action}

theorem tellsApart_iff (h : s.Fails s' request call answer) (name : String) :
    TellsApart s s' request call name answer ↔
      (request.WellFormed → s.lease.link = .connected) := by
  cases h with
  | @unavailable detail hwell hlink hwrites =>
      refine iff_of_false ?_ fun h => hlink (h hwell)
      intro h
      have hagrees : some "refused" = some "unavailable" := h.agrees
      simp at hagrees
  | @refused detail hreason hwrites =>
      refine iff_of_true ?_ hreason
      have hkind : httpKind (.refused detail) = some "refused" := rfl
      constructor
      · rfl
      · simpa [hkind] using hreason
      · simpa [hkind] using ⟨hreason, hwrites⟩
      · simpa [hkind] using hwrites
  | @unverified detail hwell hlink hwrites =>
      refine iff_of_true ?_ fun _ => hlink
      have hkind : httpKind (.unverified detail) = some "unverified" := rfl
      constructor
      · rfl
      · simpa [hkind, hwell] using hlink
      · simpa [hkind] using fun _ => hwrites
      · simpa [hkind] using hwrites

/-- A call that fails with an `ApiError` is told apart by both adapters if and
only if the link was connected when it was made, or its request is not in
order. -/
theorem failures_told_apart_iff (hreach : System.Reachable cfg s)
    (hstep : (System.machine cfg).step s (.call request false) = some s₁)
    (hrun : (System.machine cfg).run s₁ actions = some s')
    (hcall : s'.calls[s.calls.length]? = some call) (hanswer : call.answer = some answer)
    (herror : answer.isApiError) (name : String) :
    TellsApart s s' request call name answer ↔
      (request.WellFormed → s.lease.link = .connected) :=
  tellsApart_iff (System.fails_of_run hreach hstep hrun hcall hanswer herror) name

/-- A link that is up, over a device that runs. -/
def upAndRunning : List Action :=
  [.start, .link 0 .connected, .link 0 .subscribed, .notify coolPacket]

theorem failures_told_apart_iff_lostWrite :
    ∃ s s₁ s' call answer, (System.machine {}).run {} upAndRunning = some s ∧
      (System.machine {}).step s (.call .turnOff false) = some s₁ ∧
      (System.machine {}).run s₁ [.wake 0 (.writeFailed "gone")] = some s' ∧
      TellsApart s s' .turnOff call "mode" answer := by
  have hany : ((System.machine {}).run {} upAndRunning).any fun s =>
      s.lease.link = .connected && s.calls.length = 0 &&
        ((System.machine {}).step s (.call .turnOff false)).any fun s₁ =>
          ((System.machine {}).run s₁ [.wake 0 (.writeFailed "gone")]).any fun s' =>
            (s'.calls[0]?).any fun call => call.answer.any (·.isApiError) := by
    decide +kernel
  obtain ⟨s, hrun, hcheck⟩ := Machine.exists_of_run_any hany
  simp only [Bool.and_eq_true, decide_eq_true_eq] at hcheck
  obtain ⟨⟨hlink, hlength⟩, hstep⟩ := hcheck
  obtain ⟨s₁, hs₁, hrest⟩ := (Option.any_eq_true _ _).mp hstep
  obtain ⟨s', hs', hcall⟩ := Machine.exists_of_run_any hrest
  obtain ⟨call, hget, hanswered⟩ := (Option.any_eq_true _ _).mp hcall
  obtain ⟨answer, hanswer, herror⟩ := (Option.any_eq_true _ _).mp hanswered
  refine ⟨s, s₁, s', call, answer, hrun, hs₁, hs', ?_⟩
  exact (failures_told_apart_iff ⟨_, hrun⟩ hs₁ hs' (hlength ▸ hget) hanswer herror "mode").mpr
    fun _ => hlink

def isUnavailable : ApiAnswer → Bool
  | .unavailable _ => true
  | _ => false

/-- A call on a session that is not connected. -/
theorem failures_can_be_confused :
    ¬∀ (cfg : Config) (s s₁ s' : System) (actions : List Action) (request : ApiRequest)
      (call : ApiCall) (answer : ApiAnswer) (name : String), System.Reachable cfg s →
      request.WellFormed → (System.machine cfg).step s (.call request false) = some s₁ →
      (System.machine cfg).run s₁ actions = some s' → s'.calls[s.calls.length]? = some call →
      call.answer = some answer → answer.isApiError →
      TellsApart s s' request call name answer := by
  intro hall
  have hany : ((System.machine {}).step {} (.call .turnOff false)).any fun s₁ =>
      (s₁.calls[0]?).any (·.answer.any isUnavailable) := by
    decide +kernel
  obtain ⟨s₁, hs₁, hcall⟩ := (Option.any_eq_true _ _).mp hany
  obtain ⟨call, hget, hunavailable⟩ := (Option.any_eq_true _ _).mp hcall
  obtain ⟨answer, hanswer, hkind⟩ := (Option.any_eq_true _ _).mp hunavailable
  cases answer with
  | unavailable detail =>
      have htells := hall {} {} s₁ s₁ [] .turnOff call (.unavailable detail) "mode" ⟨[], rfl⟩
        ⟨_, rfl⟩ hs₁ rfl hget hanswer rfl
      have hagrees : some "refused" = some "unavailable" := htells.agrees
      simp at hagrees
  | _ => simp [isUnavailable] at hkind

end Bedjet.Integrations
