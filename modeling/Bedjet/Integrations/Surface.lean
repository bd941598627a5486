import Bedjet.Api.Origins
import Bedjet.Asyncio.Projection
import Bedjet.Integrations.Admission
import Bedjet.Integrations.HttpRoutes

/-!
The HTTP adapter as a whole: the table of its routes, a request on its way through the
guard to the handler of its route, and the service under the requests of all clients. What
reaches the device goes back to a request that the guard admitted; whoever it does not
admit changes nothing.
-/

namespace Bedjet.Integrations

open Python Protocol Device Service Asyncio Api

/-! ### Routes -/

inductive Handler
  | health | contract | state | capabilities | ws | off | mode | temperature | fan | yield | resume
  deriving DecidableEq

/-- An entry of `ROUTES`. -/
structure RouteEntry where
  operation : String
  method : String
  path : String
  handler : Handler

def apiPrefix : String := "/api/v1"

/-- `ROUTES` -/
def routes : List RouteEntry :=
  [⟨"health", "GET", "/healthz", .health⟩,
    ⟨"get_contract", "GET", apiPrefix ++ "/contract", .contract⟩,
    ⟨"get_state", "GET", apiPrefix ++ "/state", .state⟩,
    ⟨"get_capabilities", "GET", apiPrefix ++ "/capabilities", .capabilities⟩,
    ⟨"stream_state", "GET", apiPrefix ++ "/ws", .ws⟩,
    ⟨"turn_off", "POST", apiPrefix ++ "/command/off", .off⟩,
    ⟨"set_mode", "POST", apiPrefix ++ "/command/mode", .mode⟩,
    ⟨"set_temperature", "POST", apiPrefix ++ "/command/temperature", .temperature⟩,
    ⟨"set_fan", "POST", apiPrefix ++ "/command/fan", .fan⟩,
    ⟨"yield_link", "POST", apiPrefix ++ "/link/yield", .yield⟩,
    ⟨"resume_link", "POST", apiPrefix ++ "/link/resume", .resume⟩]

/-- The methods under which `web.route` registers it: a GET is registered for HEAD too. -/
def RouteEntry.accepts (entry : RouteEntry) (method : Str) : Bool :=
  Str.of entry.method = method || (entry.method = "GET" && method = Str.of "HEAD")

/-- The router of the application, which finds the handler for a method and a path. -/
abbrev Router := Str → Str → Option Handler

/-- It finds what was registered, and nothing else. -/
def Router.Registered (router : Router) : Prop :=
  ∀ method path handler, router method path = some handler →
    ∃ entry ∈ routes, entry.accepts method ∧ Str.of entry.path = path ∧ entry.handler = handler

/-! ### Handlers, up to their call of the API -/

/-- What there is of a body. -/
inductive Payload
  | absent
  /-- `request.json()` raises a `ValueError` with this text -/
  | malformed (error : String)
  | parsed (json : Json)

/-- `_body` -/
def Payload.body : Payload → Except RouteRaised Body
  | .absent => .ok []
  | .malformed error => .error (.badRequest ("malformed JSON: " ++ error))
  | .parsed (.dict members) => .ok members
  | .parsed _ => .error (.badRequest "expected a JSON object")

/-- What a handler has come to when it calls the API. -/
inductive Handled
  /-- nothing is asked of the service but what it knows -/
  | answers
  | routed (routed : Routed)
  | resumeLink
  /-- a mode whose name is no text of the API's, which refuses it -/
  | refuses (detail : Str)

variable (u : UnicodeTables)

/-- The name of a mode may hold a lone surrogate, as no name of a mode does. -/
def handleMode (body : Body) : Except RouteRaised Handled :=
  match body.get "mode" with
  | some (.str mode) => do
      let dryRun ← bool body "dry_run"
      match Str.text? mode with
      | some text => return .routed (.call (.setMode text) dryRun)
      | none => return .refuses (Str.of "unknown mode " ++ u.repr mode ++
          Str.of (". This build accepts: " ++ ", ".intercalate availableModes ++ "."))
  | _ => .error (.badRequest "mode must be a string")

def Handler.handle (payload : Payload) : Handler → Except RouteRaised Handled
  | .health | .contract | .state | .capabilities | .ws => .ok .answers
  | .off => do return .routed (← handleOff (← payload.body))
  | .mode => do handleMode u (← payload.body)
  | .temperature => do return .routed (← handleTemperature (← payload.body))
  | .fan => do return .routed (← handleFan (← payload.body))
  | .yield => do return .routed (← handleYield (← payload.body))
  | .resume => .ok .resumeLink

/-! ### Requests -/

structure Incoming extends HttpRequest where
  method : Str
  payload : Payload

namespace Incoming

variable (router : Router) (config : ServerConfig) (r : Incoming)

/-- The handler that the router finds; without one an exception stands in for it. -/
def dispatch : Except HttpException Handled :=
  match router r.method r.path with
  | none => .error .other
  | some handler =>
      match handler.handle u r.payload with
      | .ok (.refuses detail) => .error (.api (.refused detail))
      | .ok handled => .ok handled
      | .error _ => .error .other

def passage : Passage Handled :=
  guard u config r.toHttpRequest fun _ => r.dispatch u router

/-- What a request does to the service. -/
def action (span : ℚ) : Option Action :=
  match (r.passage u router config).result with
  | .ok (.response (.routed (.call request dryRun))) => some (.call request dryRun)
  | .ok (.response (.routed (.yieldLink seconds))) =>
      if seconds.isNonPositive then none else some (.yieldLink (finiteOr span seconds))
  | .ok (.response .resumeLink) => some .resume
  | _ => none

/-- The guard has reasons to let the request in. -/
def Admitted : Prop :=
  Local u config r.toHttpRequest ∧ Authorised config r.toHttpRequest

/-- The request is one for a command: it is posted, let in, says whether it is a dry run,
and its handler makes this call of it. -/
structure Commands (asked : ApiRequest) (dryRun : Bool) : Prop where
  posted : r.method = Str.of "POST"
  admitted : r.Admitted u config
  read : ∃ body, r.payload.body = .ok body ∧ bool body "dry_run" = .ok dryRun
  dispatched : r.dispatch u router = .ok (.routed (.call asked dryRun))

end Incoming

/-! ### The server -/

inductive ServerAction
  | own (action : {a : Action // a.isOwn})
  /-- a request arrives; a yield of no finite duration ends when the environment likes,
  after the span given -/
  | request (incoming : Incoming) (span : {q : ℚ // 0 < q})

namespace Server

variable (router : Router) (config : ServerConfig) (cfg : Config)

/-- What the service does of it. -/
def part : ServerAction → Option Action
  | .own a => some a
  | .request r span => r.action u router config span

/-- The service under the requests of its clients. -/
def machine : Machine System ServerAction where
  step s a :=
    match part u router config a with
    | some action => (System.machine cfg).step s action
    | none => some s

end Server

/-! ### Through the guard -/

section

variable {u : UnicodeTables} {router : Router} {config : ServerConfig} {cfg : Config}
  {r : Incoming} {handled : Handled} {span : ℚ} {a : Action}

theorem translateErrors_eq_response {ρ : Type*} {result : Except HttpException ρ} {response : ρ}
    (h : translateErrors result = .ok (.response response)) : result = .ok response := by
  unfold translateErrors at h
  split at h
  all_goals simp_all

/-- A route but `/healthz` answers whom the guard admits. -/
theorem admitted_of_response {ρ : Type*} {request : HttpRequest}
    {handler : HttpRequest → Except HttpException ρ} {response : ρ}
    (hpath : request.path ≠ Str.of "/healthz")
    (h : (guard u config request handler).result = .ok (.response response)) :
    Local u config request ∧ Authorised config request ∧ handler request = .ok response := by
  unfold guard at h
  rw [if_pos hpath] at h
  dsimp only at h
  split at h
  · simp [turnAway] at h
  rename_i hhost
  split at h
  · simp [turnAway] at h
  rename_i horigin
  have hlocal : Local u config request := ⟨by simpa using hhost, by simpa using horigin⟩
  split at h
  · rename_i htoken
    have hauthorised : Authorised config request := fun token h => by simp [htoken] at h
    exact ⟨hlocal, hauthorised, translateErrors_eq_response h⟩
  · rename_i token htoken
    split at h
    · simp at h
    · simp [turnAway] at h
    · rename_i hcompare
      obtain ⟨-, -, hsame⟩ := compareDigest_eq_ok hcompare
      have hauthorised : Authorised config request := by
        rw [authorised_iff htoken]
        simpa using hsame
      exact ⟨hlocal, hauthorised, translateErrors_eq_response h⟩

/-- `/healthz` answers everybody. -/
theorem response_of_healthz {ρ : Type*} {request : HttpRequest}
    {handler : HttpRequest → Except HttpException ρ} {response : ρ}
    (hpath : request.path = Str.of "/healthz")
    (h : (guard u config request handler).result = .ok (.response response)) :
    handler request = .ok response := by
  unfold guard at h
  rw [if_neg (not_not.mpr hpath)] at h
  exact translateErrors_eq_response h

/-! ### What a handler asks for -/

/-- What is bound goes on from a result. -/
theorem exists_of_bind_ok {ε α β : Type} {x : Except ε α} {f : α → Except ε β} {b : β}
    (h : x >>= f = .ok b) : ∃ a, x = .ok a ∧ f a = .ok b := by
  cases x with
  | error e => cases h
  | ok a => exact ⟨a, rfl, h⟩

theorem dryRun_of_handleMode {body : Body} {request : ApiRequest} {dryRun : Bool}
    (h : handleMode u body = .ok (.routed (.call request dryRun))) :
    bool body "dry_run" = .ok dryRun := by
  unfold handleMode at h
  split at h
  · obtain ⟨dry, hdry, h⟩ := exists_of_bind_ok h
    split at h
    · obtain ⟨-, rfl⟩ : _ = request ∧ dry = dryRun := by simpa [pure, Except.pure] using h
      exact hdry
    · simp [pure, Except.pure] at h
  · simp at h

theorem dryRun_of_handle {route : Route} {body : Body} {request : ApiRequest} {dryRun : Bool}
    (h : route.handle body = .ok (.call request dryRun)) : bool body "dry_run" = .ok dryRun := by
  cases route with
  | off =>
      obtain ⟨dry, hdry, h⟩ := exists_of_bind_ok h
      obtain ⟨-, rfl⟩ : _ = request ∧ dry = dryRun := by simpa [pure, Except.pure] using h
      exact hdry
  | temperature =>
      obtain ⟨celsius, -, h⟩ := exists_of_bind_ok h
      obtain ⟨fahrenheit, -, h⟩ := exists_of_bind_ok h
      obtain ⟨dry, hdry, h⟩ := exists_of_bind_ok h
      obtain ⟨-, rfl⟩ : _ = request ∧ dry = dryRun := by simpa [pure, Except.pure] using h
      exact hdry
  | fan =>
      obtain ⟨percent, -, h⟩ := exists_of_bind_ok h
      split at h
      · simp at h
      · split at h
        · simp at h
        · obtain ⟨dry, hdry, h⟩ := exists_of_bind_ok h
          obtain ⟨-, rfl⟩ : _ = request ∧ dry = dryRun := by simpa [pure, Except.pure] using h
          exact hdry
  | yield =>
      obtain ⟨seconds, -, h⟩ := exists_of_bind_ok h
      split at h <;> simp [pure, Except.pure] at h

/-- A handler that calls for a command has read whether for real. -/
theorem Handler.dryRun_of_handle {handler : Handler} {payload : Payload} {request : ApiRequest}
    {dryRun : Bool} (h : handler.handle u payload = .ok (.routed (.call request dryRun))) :
    ∃ body, payload.body = .ok body ∧ bool body "dry_run" = .ok dryRun := by
  have hroute (route : Route) {body : Body}
      (h : (do return Handled.routed (← route.handle body) : Except RouteRaised Handled) =
        .ok (.routed (.call request dryRun))) : bool body "dry_run" = .ok dryRun := by
    obtain ⟨routed, hrouted, h⟩ := exists_of_bind_ok h
    obtain rfl : routed = .call request dryRun := by simpa [pure, Except.pure] using h
    exact Integrations.dryRun_of_handle hrouted
  cases handler with
  | health | contract | state | capabilities | ws | resume => simp [handle] at h
  | mode =>
      obtain ⟨body, hbody, h⟩ := exists_of_bind_ok h
      exact ⟨body, hbody, dryRun_of_handleMode h⟩
  | off =>
      obtain ⟨body, hbody, h⟩ := exists_of_bind_ok h
      exact ⟨body, hbody, hroute .off h⟩
  | temperature =>
      obtain ⟨body, hbody, h⟩ := exists_of_bind_ok h
      exact ⟨body, hbody, hroute .temperature h⟩
  | fan =>
      obtain ⟨body, hbody, h⟩ := exists_of_bind_ok h
      exact ⟨body, hbody, hroute .fan h⟩
  | yield =>
      obtain ⟨body, hbody, h⟩ := exists_of_bind_ok h
      exact ⟨body, hbody, hroute .yield h⟩

/-- A route that is no POST only tells what is known. -/
theorem posted_or_answers : ∀ entry ∈ routes, entry.method = "POST" ∨
    ∀ payload, entry.handler.handle u payload = .ok .answers := by
  simp [routes, Handler.handle]

theorem healthz_answers : ∀ entry ∈ routes, Str.of entry.path = Str.of "/healthz" →
    entry.handler = .health := by
  decide +kernel

namespace Incoming

theorem handle_of_dispatch (h : r.dispatch u router = .ok handled) :
    ∃ handler, router r.method r.path = some handler ∧
      handler.handle u r.payload = .ok handled := by
  rw [dispatch] at h
  split at h
  · simp at h
  · rename_i handler hrouter
    refine ⟨handler, hrouter, ?_⟩
    split at h <;> simp_all

/-- What has an effect on the service was posted, and let in by the guard. -/
theorem admitted_of_response (hrouter : router.Registered)
    (h : (r.passage u router config).result = .ok (.response handled))
    (hanswers : handled ≠ .answers) :
    r.Admitted u config ∧ r.method = Str.of "POST" ∧ r.dispatch u router = .ok handled := by
  have hpath : r.path ≠ Str.of "/healthz" := by
    intro hpath
    obtain ⟨handler, hfound, hhandle⟩ := handle_of_dispatch (response_of_healthz hpath h)
    obtain ⟨entry, hentry, -, hentry', rfl⟩ := hrouter _ _ _ hfound
    rw [healthz_answers entry hentry (hentry'.trans hpath)] at hhandle
    exact hanswers (Except.ok.inj hhandle).symm
  obtain ⟨hlocal, hauthorised, hdispatch⟩ := Integrations.admitted_of_response hpath h
  refine ⟨⟨hlocal, hauthorised⟩, ?_, hdispatch⟩
  obtain ⟨handler, hfound, hhandle⟩ := handle_of_dispatch hdispatch
  obtain ⟨entry, hentry, hmethod, -, rfl⟩ := hrouter _ _ _ hfound
  rcases posted_or_answers (u := u) entry hentry with hpost | hanswer
  · simpa [RouteEntry.accepts, hpost, eq_comm] using hmethod
  · exact absurd (Except.ok.inj (hhandle.symm.trans (hanswer r.payload))) hanswers

/-- What a request does, it does by the result of its handler. -/
theorem response_of_action (h : r.action u router config span = some a) :
    ∃ handled, (r.passage u router config).result = .ok (.response handled) ∧
      handled ≠ .answers ∧ ∀ request dryRun, a = .call request dryRun →
        handled = .routed (.call request dryRun) := by
  rw [action] at h
  split at h
  · rename_i hresult
    obtain rfl := Option.some.inj h
    refine ⟨_, hresult, by simp, ?_⟩
    rintro _ _ ⟨rfl, rfl⟩
    rfl
  · rename_i hresult
    split at h
    · cases h
    · obtain rfl := Option.some.inj h
      exact ⟨_, hresult, by simp, by simp⟩
  · rename_i hresult
    obtain rfl := Option.some.inj h
    exact ⟨_, hresult, by simp, by simp⟩
  · cases h

/-- A request that is not admitted does nothing. -/
theorem action_of_not_admitted (hrouter : router.Registered) (hnot : ¬r.Admitted u config) :
    r.action u router config span = none := by
  rw [Option.eq_none_iff_forall_ne_some]
  intro a h
  obtain ⟨handled, hresult, hanswers, -⟩ := response_of_action h
  exact hnot (admitted_of_response hrouter hresult hanswers).1

end Incoming

/-! ### Runs -/

namespace Server

variable {s s' : System} {actions : List ServerAction}

/-- A run of the server is one of the service. -/
theorem projects : (machine u router config cfg).Projects (System.machine cfg) (fun _ => True) id
    (part u router config) where
  acts := by
    intro s a s' b _ hstep hpart
    simpa [machine, hpart] using hstep
  rests := by
    intro s a s' _ hstep hpart
    simpa [machine, hpart, eq_comm] using hstep

theorem commands_of_action (hrouter : router.Registered) {asked : ApiRequest} {dryRun : Bool}
    (h : r.action u router config span = some (.call asked dryRun)) :
    r.Commands u router config asked dryRun := by
  obtain ⟨handled, hresult, hanswers, hcall⟩ := Incoming.response_of_action h
  obtain rfl := hcall asked dryRun rfl
  obtain ⟨hadmitted, hposted, hdispatch⟩ :=
    Incoming.admitted_of_response hrouter hresult hanswers
  obtain ⟨handler, -, hhandle⟩ := Incoming.handle_of_dispatch hdispatch
  exact ⟨hposted, hadmitted, Handler.dryRun_of_handle hhandle, hdispatch⟩

theorem action_ne_command {request : Request} {dryRun : Bool} :
    r.action u router config span ≠ some (.command request dryRun) := by
  rw [Incoming.action]
  split
  case h_2 => split <;> simp
  all_goals simp

/-- The request asks for a command: it is admitted, and its call comes to this. -/
def Asks (u : UnicodeTables) (router : Router) (config : ServerConfig) (a : ServerAction)
    (request : Request) (dryRun : Bool) : Prop :=
  ∃ r span asked description, a = .request r span ∧ r.Commands u router config asked dryRun ∧
    asked.resolve = .ok ⟨request, description⟩

/-- Every command of a run was asked for by a request of its own, which was posted and which
the guard admitted, in the order of the requests; and each of them that was no dry run
writes once at most, what it orders, and nothing else is written. -/
theorem commands_come_from_admitted_requests (hrouter : router.Registered)
    (hrun : (machine u router config cfg).run {} actions = some s) :
    Accounts (Asks u router config) actions s := by
  have hservice := projects.run (fun _ _ _ _ _ => trivial) trivial hrun
  refine (System.accounts_of_run hservice).of_part ?_
  rintro (⟨own, hown⟩ | ⟨r, span⟩) - a request dryRun hpart hasks
  · -- what the service does of itself asks for nothing
    obtain rfl : own = a := Option.some.inj hpart
    cases hasks <;> simp [Action.isOwn] at hown
  · cases hasks with
    | command => exact absurd hpart action_ne_command
    | @call asked description hresolve =>
        exact ⟨r, span, asked, description, rfl, commands_of_action hrouter hpart, hresolve⟩

/-- A request that the guard does not admit. -/
def Stranger (u : UnicodeTables) (config : ServerConfig) : ServerAction → Prop
  | .own _ => False
  | .request r _ => ¬r.Admitted u config

/-- What is not admitted might as well not have been sent: with any of these requests left
out, a run comes to the same. -/
theorem strangers_change_nothing (hrouter : router.Registered) {keep : ServerAction → Bool}
    (hkeep : ∀ a ∈ actions, keep a = false → Stranger u config a) :
    (machine u router config cfg).run s (actions.filter keep) =
      (machine u router config cfg).run s actions := by
  apply Machine.run_filter_of_idle
  intro a ha hleft s
  cases a with
  | own action => exact (hkeep _ ha hleft).elim
  | request r span =>
      have hnone : r.action u router config span = none :=
        Incoming.action_of_not_admitted hrouter (hkeep _ ha hleft)
      simp [machine, part, hnone]

/-! ### Switching off over HTTP -/

/-- The router that looks into the table. -/
def tableRouter : Router := fun method path =>
  (routes.find? fun entry => entry.accepts method && Str.of entry.path = path).map
    RouteEntry.handler

theorem registered_tableRouter : tableRouter.Registered := by
  intro method path handler h
  obtain ⟨entry, hentry, rfl⟩ := Option.map_eq_some_iff.mp h
  have hmatches := List.find?_some hentry
  rw [Bool.and_eq_true, decide_eq_true_iff] at hmatches
  exact ⟨entry, List.mem_of_find?_eq_some hentry, hmatches.1, hmatches.2, rfl⟩

/-- A POST that would switch the unit off. -/
def postOff (authorization : String) : Incoming where
  path := Str.of "/api/v1/command/off"
  headers := [(Str.of "Host", Str.of "localhost:8787"),
    (Str.of "Authorization", Str.of authorization)]
  method := Str.of "POST"
  payload := .absent

/-- A unit that cools is told twice to switch off, once without the token. -/
def postedOff : List ServerAction :=
  [.own ⟨.start, rfl⟩, .own ⟨.link 0 .connected, rfl⟩, .own ⟨.link 0 .subscribed, rfl⟩,
    .own ⟨.notify coolPacket, rfl⟩, .request (postOff "Bearer guessed") ⟨1, one_pos⟩,
    .request (postOff "Bearer a-token-long-enough") ⟨1, one_pos⟩]

theorem commands_come_from_admitted_requests_postedOff :
    ∃ s, (machine asciiTables tableRouter tokenConfig {}).run {} postedOff = some s ∧
      writesOf 0 s.trace = [Encode.turnOff] ∧
      Accounts (Asks asciiTables tableRouter tokenConfig) postedOff s := by
  have hany : ((machine asciiTables tableRouter tokenConfig {}).run {} postedOff).any fun s =>
      decide (writesOf 0 s.trace = [Encode.turnOff]) := by
    decide +kernel
  obtain ⟨s, hrun, hwrites⟩ := Machine.exists_of_run_any hany
  exact ⟨s, hrun, of_decide_eq_true hwrites,
    commands_come_from_admitted_requests registered_tableRouter hrun⟩

/-- Whether a request does not carry the token. -/
def lacksToken : ServerAction → Bool
  | .own _ => false
  | .request r _ =>
      r.header "Authorization" ≠ some (Str.of "Bearer " ++ Str.of "a-token-long-enough")

theorem strangers_change_nothing_postedOff :
    (machine asciiTables tableRouter tokenConfig {}).run {}
        (postedOff.filter fun a => !lacksToken a) =
      (machine asciiTables tableRouter tokenConfig {}).run {} postedOff := by
  apply strangers_change_nothing registered_tableRouter
  intro a _ hlacks
  cases a with
  | own action => simp [lacksToken] at hlacks
  | request r span =>
      intro hadmitted
      have htoken := hadmitted.2 _ rfl
      simp [lacksToken, htoken] at hlacks

end Server

end

end Bedjet.Integrations
