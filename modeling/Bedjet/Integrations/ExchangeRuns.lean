import Bedjet.Integrations.Exchanges

/-!
Runs of exchanges. A request let in is answered with a status that the contract
gives a class, as long as no number in a body is missing where it is needed and
no command discards the reading that the one awaited has been told of.
-/

namespace Bedjet.Integrations

open Python Protocol Device Service Asyncio Api

namespace Exchange

variable {cfg : Config} {x x' : Exchange} {s s' : System} {handler : ExchangePc} {place : Place}

/-- A response has a status with a class. -/
def InContract (x : Exchange) : Prop :=
  ∀ status, x.handler = .responded status → status ∈ classifiedStatuses

/-- The service while the handler goes on. -/
def serving (cfg : Config) : Machine Exchange Action where
  step x a := x.serve cfg x.handler a

/-- Some steps of the service lead to where no request is without its response. -/
def Answerable (cfg : Config) (x : Exchange) : Prop :=
  ∃ actions x', (serving cfg).run x actions = some x' ∧ ∀ place, x'.handler ≠ .awaits place

/-- The command that the handler awaits. -/
def awaited (x : Exchange) : Option ℕ :=
  match x.handler with
  | .awaits place => place.awaited x.system
  | .idle | .responded _ => none

/-- The body has every number that is needed, and no command discards the
reading that the one awaited has been told of and has not run since. -/
def Acceptable (cfg : Config) (x : Exchange) : ExchangeAction → Prop
  | .service a => ∀ j ∈ x.awaited, x.system.Spares cfg j a
  | .post route body _ => route.misconverts body = false

/-! ### Responses -/

/-- The response to this answer has a class. -/
def ClassedAnswer (answer : ApiAnswer) : Prop :=
  outcomeStatus (.answered answer) ∈ classifiedStatuses

theorem classedAnswer_refused (message : String) : ClassedAnswer (.refused message) := by
  show (409 : ℕ) ∈ classifiedStatuses
  decide

theorem classedAnswer_unavailable (message : String) : ClassedAnswer (.unavailable message) := by
  show (503 : ℕ) ∈ classifiedStatuses
  decide

theorem classedAnswer_unverified (message : String) : ClassedAnswer (.unverified message) := by
  show (502 : ℕ) ∈ classifiedStatuses
  decide

theorem classedAnswer_returned (outcome : CommandOutcome) : ClassedAnswer (.returned outcome) := by
  show (200 : ℕ) ∈ classifiedStatuses
  decide

theorem classedAnswer_translate {ending : Ending} (h : Classified ending) (description : String)
    (dryRun : Bool) (before after : DeviceSnapshot) :
    ClassedAnswer (translate description dryRun before after ending) := by
  cases ending with
  | returned result => exact classedAnswer_returned _
  | raised exception =>
      cases exception with
      | refused message => exact classedAnswer_refused message
      | alreadySatisfied message => exact classedAnswer_returned _
      | unverified message cause => exact classedAnswer_unverified message
      | assertion => simp [Classified] at h
      | encode e =>
          cases e with
          | command message => exact classedAnswer_refused message
          | conversion error => simp [Classified] at h

/-- What ends a wait is a response with a class. -/
theorem classed_of_waits (h : place.Waits ClassedAnswer s) (htold : s.Told) {outcome : Outcome}
    (houtcome : place.outcome s = some outcome) : outcomeStatus outcome ∈ classifiedStatuses := by
  rcases h.ends htold houtcome with
    rfl | ⟨answer, rfl, hclassed⟩ | ⟨ending, description, dryRun, before, after, hending, rfl⟩
  · show (200 : ℕ) ∈ classifiedStatuses
    decide
  · exact hclassed
  · exact classedAnswer_translate hending description dryRun before after

/-! ### The invariant -/

/-- The handler is at a place that it leaves with a response that has a class. -/
def Waiting (s : System) : ExchangePc → Prop
  | .idle => True
  | .awaits place => place.Waits ClassedAnswer s
  | .responded status => status ∈ classifiedStatuses

structure Healthy (cfg : Config) (x : Exchange) : Prop where
  reachable : System.Reachable cfg x.system
  filled : x.system.Filled
  waiting : Waiting x.system x.handler

theorem Healthy.inContract (h : x.Healthy cfg) : x.InContract := by
  intro status hstatus
  have hwaiting := h.waiting
  rw [hstatus] at hwaiting
  exact hwaiting

@[simp] theorem system_settle : x.settle.system = x.system := by
  rw [settle]
  split
  · split <;> rfl
  · rfl
  · rfl

theorem settle_of_outcome {outcome : Outcome} (hhandler : x.handler = .awaits place)
    (houtcome : place.outcome x.system = some outcome) :
    x.settle = { x with handler := .responded (outcomeStatus outcome) } := by
  simp [settle, hhandler, houtcome]

theorem settle_of_open (hhandler : x.handler = .awaits place)
    (hopen : place.outcome x.system = none) : x.settle = x := by
  simp [settle, hhandler, hopen]

theorem Healthy.settle (h : x.Healthy cfg) : x.settle.Healthy cfg := by
  refine ⟨by simpa using h.reachable, by simpa using h.filled, ?_⟩
  have hwaiting := h.waiting
  rw [system_settle]
  cases hhandler : x.handler with
  | idle => simp [Exchange.settle, hhandler, Waiting]
  | responded status =>
      rw [hhandler] at hwaiting
      simpa [Exchange.settle, hhandler] using hwaiting
  | awaits place =>
      rw [hhandler] at hwaiting
      cases houtcome : place.outcome x.system with
      | none =>
          rw [settle_of_open hhandler houtcome, hhandler]
          exact hwaiting
      | some outcome =>
          rw [settle_of_outcome hhandler houtcome]
          exact classed_of_waits hwaiting h.reachable.told houtcome

/-- A step of the service, with the handler at a place it can go on from. -/
theorem healthy_serve (hreach : System.Reachable cfg x.system) (hfilled : x.system.Filled)
    {a : Action}
    (hwaiting : ∀ s', (System.machine cfg).step x.system a = some s' → Waiting s' handler)
    (hserve : x.serve cfg handler a = some x') : x'.Healthy cfg := by
  obtain ⟨s', hstep, rfl⟩ := Option.map_eq_some_iff.mp hserve
  apply Healthy.settle
  exact ⟨hreach.step hstep, System.filled_step hfilled hreach hstep, hwaiting s' hstep⟩

theorem Waiting.step (h : Waiting x.system x.handler) (hreach : System.Reachable cfg x.system)
    (hfilled : x.system.Filled) {a : Action} (hspares : ∀ j ∈ x.awaited, x.system.Spares cfg j a)
    (hstep : (System.machine cfg).step x.system a = some s') : Waiting s' x.handler := by
  cases hhandler : x.handler with
  | idle => trivial
  | responded status =>
      rw [hhandler] at h
      exact h
  | awaits place =>
      rw [hhandler] at h
      apply Place.Waits.step h hreach hfilled ?_ hstep
      simpa [awaited, hhandler] using hspares

theorem healthy_handle (hreach : System.Reachable cfg x.system) (hfilled : x.system.Filled)
    {route : Route} {body : Body} {span : ℚ} (hok : route.misconverts body = false)
    (hstep : x.handle cfg route body span = some x') : x'.Healthy cfg := by
  rw [Exchange.handle] at hstep
  split at hstep
  · rename_i exception hhandle
    obtain ⟨detail, rfl⟩ := Route.handle_error hok hhandle
    obtain rfl := Option.some.inj hstep
    refine ⟨hreach, hfilled, ?_⟩
    show (400 : ℕ) ∈ classifiedStatuses
    decide
  · rename_i request dryRun hhandle
    apply healthy_serve hreach hfilled ?_ hstep
    intro s' hs
    apply Place.waits_call hreach hfilled classedAnswer_unavailable ?_ hs
    intro refusal hresolve
    obtain ⟨message, rfl⟩ :=
      ApiRequest.refused_of_converts (Route.converts_of_handle hok hhandle) hresolve
    exact classedAnswer_refused message
  · rename_i seconds hhandle
    split at hstep
    · obtain rfl := Option.some.inj hstep
      exact ⟨hreach, hfilled, classedAnswer_refused _⟩
    · rename_i hseconds
      split at hstep
      · simp at hstep
      · rename_i hspan
        apply healthy_serve hreach hfilled ?_ hstep
        intro s' hs
        show Place.Waits ClassedAnswer s' (.yield x.system.lease.tasks.length)
        exact Place.waits_yield (positive_of_asked hseconds hspan) hs

theorem Healthy.step (h : x.Healthy cfg) {a : ExchangeAction} (hok : x.Acceptable cfg a)
    (hstep : (machine cfg).step x a = some x') : x'.Healthy cfg := by
  cases a with
  | service a =>
      exact healthy_serve h.reachable h.filled
        (fun _ hs => h.waiting.step h.reachable h.filled hok hs) hstep
  | post route body span =>
      simp only [machine, Exchange.step] at hstep
      split at hstep
      · exact healthy_handle h.reachable h.filled hok hstep
      · exact healthy_handle h.reachable h.filled hok hstep
      · simp at hstep

/-! ### Every request can be answered -/

/-- What is left until the request has its response. -/
def left (cfg : Config) (x : Exchange) : ℕ :=
  match x.handler with
  | .awaits place => 1 + place.left cfg x.system
  | .idle | .responded _ => 0

theorem left_settle_le : x.settle.left cfg ≤ x.left cfg := by
  rw [settle]
  split
  · split
    · exact Nat.zero_le _
    · exact le_rfl
  · exact le_rfl
  · exact le_rfl

theorem Healthy.progress (h : x.Healthy cfg) (hhandler : x.handler = .awaits place) :
    ∃ a x', (serving cfg).step x a = some x' ∧ x'.Healthy cfg ∧ x'.left cfg < x.left cfg := by
  have hwaits : place.Waits ClassedAnswer x.system := by
    have hwaiting := h.waiting
    rw [hhandler] at hwaiting
    exact hwaiting
  have hserve (a : Action) (s' : System) (hs : (System.machine cfg).step x.system a = some s')
      (hspares : ∀ j ∈ place.awaited x.system, x.system.Spares cfg j a)
      (hless : ({ x with system := s' } : Exchange).settle.left cfg < x.left cfg) :
      ∃ a x', (serving cfg).step x a = some x' ∧ x'.Healthy cfg ∧ x'.left cfg < x.left cfg := by
    have hserve : x.serve cfg x.handler a = some ({ x with system := s' } : Exchange).settle := by
      simp [serve, hs]
    refine ⟨a, _, hserve, ?_, hless⟩
    apply healthy_serve h.reachable h.filled ?_ hserve
    intro t ht
    apply h.waiting.step h.reachable h.filled ?_ ht
    simpa [awaited, hhandler] using hspares
  cases houtcome : place.outcome x.system with
  | some outcome =>
      -- it goes on with whatever happens next
      apply hserve _ _ (System.pass_step le_rfl) (fun j _ => System.spares_pass _)
      rw [settle_of_outcome (x := { x with system := { x.system with now := x.system.now } })
        hhandler houtcome]
      simp [left, hhandler]
  | none =>
      obtain ⟨a, s', hs, hspares, hless⟩ := hwaits.progress h.reachable houtcome
      apply hserve a s' hs hspares
      refine left_settle_le.trans_lt ?_
      simpa [left, hhandler] using hless

theorem Healthy.answerable (h : x.Healthy cfg) : x.Answerable cfg := by
  obtain ⟨actions, x', hrun, -, hdone⟩ :=
    Machine.exists_run_of_variant (M := serving cfg) (I := Healthy cfg)
      (P := fun x => ∀ place, x.handler ≠ .awaits place) (left cfg)
      (fun x₁ h₁ hbusy => by
        obtain ⟨place, hplace⟩ := not_forall_not.mp hbusy
        exact h₁.progress hplace) h
  exact ⟨actions, x', hrun, hdone⟩

/-! ### What leaves a request without a class -/

theorem reachable_serve (h : System.Reachable cfg x.system) {a : Action}
    (hserve : x.serve cfg handler a = some x') : System.Reachable cfg x'.system := by
  obtain ⟨s', hstep, rfl⟩ := Option.map_eq_some_iff.mp hserve
  rw [system_settle]
  exact h.step hstep

theorem reachable_step (h : System.Reachable cfg x.system) {a : ExchangeAction}
    (hstep : (machine cfg).step x a = some x') : System.Reachable cfg x'.system := by
  have hhandle {route : Route} {body : Body} {span : ℚ}
      (hs : x.handle cfg route body span = some x') : System.Reachable cfg x'.system := by
    rw [handle] at hs
    split at hs
    · obtain rfl := Option.some.inj hs
      exact h
    · exact reachable_serve h hs
    · split at hs
      · obtain rfl := Option.some.inj hs
        exact h
      · split at hs
        · simp at hs
        · exact reachable_serve h hs
  cases a with
  | service a => exact reachable_serve h hstep
  | post route body span =>
      simp only [machine, Exchange.step] at hstep
      split at hstep
      · exact hhandle hstep
      · exact hhandle hstep
      · simp at hstep

/-- The response to an exception that no part of the service gives a class. -/
theorem not_inContract_of_failed (h : x.handler = .responded 500) : ¬x.InContract := by
  intro hcontract
  exact absurd (hcontract 500 h) (by decide)

theorem failed_of_misconverts {route : Route} {body : Body} {span : ℚ}
    (h : route.misconverts body) (hstep : x.handle cfg route body span = some x') :
    x'.handler = .responded 500 := by
  rcases Route.escapes_of_misconverts h with
    ⟨e, hhandle, hstatus⟩ | ⟨request, dryRun, e, hhandle, hresolve⟩
  · rw [handle, hhandle] at hstep
    obtain rfl := Option.some.inj hstep
    simp [hstatus]
  · rw [handle, hhandle] at hstep
    obtain ⟨s', hs, rfl⟩ := Option.map_eq_some_iff.mp hstep
    cases System.begins_of_step hs with
    | @refused refusal hrefusal hcall =>
        obtain rfl := Except.error.inj (hresolve.symm.trans hrefusal)
        have houtcome : (Place.call x.system.calls.length).outcome s' =
            some (.answered (.escaped (.encode (.conversion e)))) := by
          simp [Place.outcome, hcall]
        rw [settle_of_outcome rfl houtcome]
        rfl
    | unavailable hresolved _ _ => simp [hresolve] at hresolved
    | commands hresolved _ _ _ _ => simp [hresolve] at hresolved

/-- Where a reading is discarded under the command awaited, and that command runs
next, the response is that of an unexpected failure. -/
theorem failed_of_discard {a : Action} {j : ℕ} (hreach : System.Reachable cfg x.system)
    (hj : j ∈ x.awaited) (hdiscards : ¬x.system.Spares cfg j a)
    (hstep : x.step cfg (.service a) = some x') :
    j ∈ x'.awaited ∧ ∃ x'', x'.step cfg (.service (.wake j .woken)) = some x'' ∧
      x''.handler = .responded 500 := by
  obtain ⟨s', hs, rfl⟩ := Option.map_eq_some_iff.mp hstep
  cases hhandler : x.handler with
  | idle => simp [awaited, hhandler] at hj
  | responded status => simp [awaited, hhandler] at hj
  | awaits place =>
      have hj' : j ∈ place.awaited x.system := by simpa [awaited, hhandler] using hj
      obtain ⟨hawaited, hopen, s'', hs'', houtcome⟩ :=
        Place.fails_of_discard hreach hj' hdiscards hs
      rw [settle_of_open rfl hopen]
      let x'' : Exchange := { system := s'', handler := .awaits place }
      refine ⟨by simpa [awaited] using hawaited, x''.settle, ?_, ?_⟩
      · simp [step, serve, hs'', x'']
      · rw [settle_of_outcome (x := x'') rfl houtcome]
        rfl

/-- In a run, every response has a status with a class, and every request let in
can get its response, also when the command awaited is woken next, if and only if
no number in a body is missing where it is needed, and no step discards a reading
that the command awaited has been told of and has not run since. -/
theorem every_number_is_classified_iff {actions : List ExchangeAction}
    (hrun : (machine cfg).run {} actions = some x) :
    (machine cfg).Always (fun x => x.InContract ∧ x.Answerable cfg ∧ ∀ j ∈ x.awaited, ∀ x',
        x.step cfg (.service (.wake j .woken)) = some x' → x'.InContract) {} actions ↔
      (machine cfg).Meets (Acceptable cfg) {} actions := by
  constructor
  · refine Machine.meets_of_always (I := fun x => System.Reachable cfg x.system) ?_ ?_
      ⟨[], rfl⟩ hrun
    · intro x a x' hreach hstep
      exact reachable_step hreach hstep
    · rintro x a x' hreach - hno hstep ⟨hcontract, -, hwake⟩
      cases a with
      | service a =>
          simp only [Acceptable, not_forall] at hno
          obtain ⟨j, hj, hdiscards⟩ := hno
          obtain ⟨hj', x'', hwoken, hfailed⟩ := failed_of_discard hreach hj hdiscards hstep
          exact not_inContract_of_failed hfailed (hwake j hj' x'' hwoken)
      | post route body span =>
          have hmisconverts : route.misconverts body := by simpa [Acceptable] using hno
          simp only [machine, Exchange.step] at hstep
          split at hstep
          · exact not_inContract_of_failed (failed_of_misconverts hmisconverts hstep) hcontract
          · exact not_inContract_of_failed (failed_of_misconverts hmisconverts hstep) hcontract
          · simp at hstep
  · refine Machine.always_of_meets (I := Healthy cfg) ?_ ?_ ?_
    · intro x a x' hI hok hstep
      exact hI.step hok hstep
    · intro x hI
      refine ⟨hI.inContract, hI.answerable, fun j hj x' hwake => ?_⟩
      have hspares : x.Acceptable cfg (.service (.wake j .woken)) := by
        intro i hi
        obtain rfl : j = i := Option.some.inj (hj.symm.trans hi)
        exact System.spares_wake hI.reachable.sound .woken
      have hnext := hI.step hspares hwake
      exact hnext.inContract
    · exact ⟨⟨[], rfl⟩, by simp [System.Filled], trivial⟩

/-- A fan speed of 20 on a link that is up; its write returns. -/
def fanPosted : List ExchangeAction :=
  [.service .start, .service (.link 0 .connected), .service (.link 0 .subscribed),
    .service (.notify coolPacket), .post .fan [(Str.of "percent", .int 20)] 1,
    .service (.wake 0 .writeReturned)]

theorem every_number_is_classified_iff_fanPosted :
    (machine {}).Always (fun x => x.InContract ∧ x.Answerable {} ∧ ∀ j ∈ x.awaited, ∀ x',
        x.step {} (.service (.wake j .woken)) = some x' → x'.InContract) {} fanPosted ↔
      (machine {}).Meets (Acceptable {}) {} fanPosted := by
  have hany : ((machine {}).run {} fanPosted).any fun _ => true := by decide +kernel
  obtain ⟨x, hrun, -⟩ := Machine.exists_of_run_any hany
  exact every_number_is_classified_iff hrun

/-- A number in a body can end in an unexpected failure. -/
theorem a_number_can_fail :
    ¬∀ (cfg : Config) (x : Exchange) (actions : List ExchangeAction),
      (machine cfg).run {} actions = some x → x.InContract := by
  intro hall
  have hany : ((machine {}).run {} [.post .fan [(Str.of "percent", .infinity false)] 1]).any
      fun x => match x.handler with
        | .responded status => status = 500
        | _ => false := by
    decide +kernel
  obtain ⟨x, hrun, hfailed⟩ := Machine.exists_of_run_any hany
  split at hfailed
  · rename_i status hhandler
    obtain rfl : status = 500 := by simpa using hfailed
    exact not_inContract_of_failed hhandler (hall {} x _ hrun)
  · simp at hfailed

end Exchange

end Bedjet.Integrations
