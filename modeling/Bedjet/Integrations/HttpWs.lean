import Bedjet.Python.IpAddress

/-!
The HTTP adapter: how the listener is exposed, and the guard in front of every
route but `/healthz`. A route handler is a function of the request, to its
response or the exception it raises; what the routes do is the API's.
-/

namespace Bedjet.Integrations

open Python

/-! ### How the listener is exposed -/

/-- The arguments of `ServerConfig`. -/
structure ServerArgs where
  host : Str := Str.of "127.0.0.1"
  port : ℤ := 8787
  token : Option Str := none
  allowedHosts : List Str := []

def loopbackHostnames : List Str :=
  ["localhost", "127.0.0.1", "::1", "[::1]"].map Str.of

namespace ServerArgs

variable (c : ServerArgs)

/-- `_is_loopback` -/
def isLoopback : Bool :=
  match IpAddress.parse c.host with
  | some address => address.isLoopback
  | none => loopbackHostnames.contains c.host

/-- `__post_init__`, with the message of a `ConfigurationRefused` -/
def postInit : Except Str Unit :=
  match c.token with
  | none =>
      if c.isLoopback then .ok ()
      else .error (Str.of "refusing to bind " ++ c.host ++ Str.of
        (" without a token.\n" ++
        "On any interface but loopback this would let anything that can reach the " ++
        "port switch on a heater. Either bind 127.0.0.1, or set a token " ++
        "(BEDJET_TOKEN, or --token).\n" ++
        "Generate one with: python3 -c 'import secrets; print(secrets.token_urlsafe(32))'"))
  | some token =>
      if token.length < 16 then
        .error (Str.of ("the token is too short to be worth having. Use at least 16 characters — " ++
          "python3 -c 'import secrets; print(secrets.token_urlsafe(32))'"))
      else .ok ()

def permittedHosts : List Str :=
  loopbackHostnames ++ c.allowedHosts ++ [c.host]

end ServerArgs

/-- A configuration that was not refused. -/
structure ServerConfig extends ServerArgs where
  accepted : toServerArgs.postInit = .ok ()

/-! ### The `Host` header -/

/-- `hostname_of` -/
def hostnameOf (header : Str) : Str :=
  let value := Str.strip header
  if (Str.of "[").isPrefixOf value then
    match value.findIdx? (· = Str.point ']') with
    | some stop => (value.take stop).drop 1
    | none => value.dropWhile (· = Str.point '[')
  else if value.count (Str.point ':') = 1 then value.takeWhile (· ≠ Str.point ':')
  else value

section

variable (u : UnicodeTables)

/-- `host_is_permitted` -/
def hostIsPermitted (header : Str) (config : ServerConfig) : Bool :=
  let hostname := hostnameOf header
  if hostname = [] then true
  else if (IpAddress.parse hostname).isSome then true
  else (config.permittedHosts.map fun entry => u.lower (hostnameOf entry)).contains
    (u.lower hostname)

/-! ### The guard -/

/-- The names of the headers are ASCII, and compared without regard to case. -/
structure HttpRequest where
  path : Str
  headers : List (Str × Str)

/-- `request.headers.get(name)` -/
def HttpRequest.header (request : HttpRequest) (name : String) : Option Str :=
  (request.headers.find? fun h => Str.lowerAscii h.1 = Str.lowerAscii (Str.of name)).map (·.2)

/-- The exceptions of the API, with their texts. -/
inductive ApiError
  | unavailable (detail : Str)
  | refused (detail : Str)
  | unverified (detail : Str)
  /-- an `ApiError` that is none of the three -/
  | other (detail : Str)

inductive HttpException
  | api (error : ApiError)
  | typeError
  /-- anything else a route handler raises -/
  | other

/-- What goes back: the response of a route handler, or an error of the
adapter's own. -/
inductive HttpAnswer (ρ : Type*)
  | response (response : ρ)
  | error (kind : String) (detail : Str) (status : ℕ)

/-- `FAILURE_MODE_STATUS` -/
def failureModeStatus : String → ℕ
  | "refused" => 409
  | "unavailable" => 503
  | "unverified" => 502
  | _ => 500

/-- What became of a request: whether its route handler was invoked, and what
the guard answers or raises. -/
structure Passage (ρ : Type*) where
  invoked : Bool
  result : Except HttpException (HttpAnswer ρ)

variable {ρ : Type*}

/-- The `try` around the route handler. -/
def translateErrors : Except HttpException ρ → Except HttpException (HttpAnswer ρ)
  | .ok response => .ok (.response response)
  | .error (.api (.unavailable detail)) =>
      .ok (.error "unavailable" detail (failureModeStatus "unavailable"))
  | .error (.api (.unverified detail)) =>
      .ok (.error "unverified" detail (failureModeStatus "unverified"))
  | .error (.api (.refused detail)) => .ok (.error "refused" detail (failureModeStatus "refused"))
  | .error (.api (.other detail)) => .ok (.error "error" detail 500)
  | .error exception => .error exception

def letIn (request : HttpRequest) (handler : HttpRequest → Except HttpException ρ) : Passage ρ where
  invoked := true
  result := translateErrors (handler request)

/-- The guard answers itself. -/
def turnAway (kind : String) (detail : Str) (status : ℕ) : Passage ρ where
  invoked := false
  result := .ok (.error kind detail status)

/-- `secrets.compare_digest` of two texts -/
def compareDigest (a b : Str) : Except HttpException Bool :=
  if Str.isAscii a && Str.isAscii b then .ok (a = b) else .error .typeError

/-- The token supplied in an `Authorization` header. -/
def bearerToken (supplied : Str) : Str :=
  let bearer := Str.of "Bearer "
  if bearer.isPrefixOf supplied then supplied.drop bearer.length else []

/-- `guard` -/
def guard (config : ServerConfig) (request : HttpRequest)
    (handler : HttpRequest → Except HttpException ρ) : Passage ρ :=
  if request.path ≠ Str.of "/healthz" then
    let host := (request.header "Host").getD []
    if !hostIsPermitted u host config then
      turnAway "forbidden" (Str.of "unrecognised Host header " ++ u.repr host ++ Str.of
        ". If this service should answer to that name, add it to allowed_hosts.") 403
    else if (request.header "Origin").isSome then
      turnAway "forbidden" (Str.of ("requests carrying an Origin header are refused: this is a " ++
        "local machine API, not a web origin. Use a client that is not a browser.")) 403
    else
      match config.token with
      | none => letIn request handler
      | some token =>
          match compareDigest (bearerToken ((request.header "Authorization").getD [])) token with
          | .error exception => { invoked := false, result := .error exception }
          | .ok false =>
              turnAway "unauthorized" (Str.of ("supply the token as `Authorization: Bearer " ++
                "<token>`. It is not accepted as a query parameter — URLs end up in logs.")) 401
          | .ok true => letIn request handler
  else letIn request handler

end

end Bedjet.Integrations
