import Bedjet.Cli.Borrowing
import Bedjet.Integrations.Discovery

/-!
The commands that hold the link instead of borrowing it: `serve` runs the HTTP adapter,
and `mqtt` the bridge. Each prints how the device is handed back, waits until it is
stopped, and releases what it holds.
-/

namespace Bedjet.Cli

open Asyncio Python Device Device.Registry Service Integrations

section

variable (file : RegistryFile) (target : String) (environ : String → Option String)

/-- `given or os.environ.get(key)` -/
def orEnviron (given : Option String) (key : String) : Option String :=
  match given with
  | none | some "" => environ key
  | some value => some value

/-- What `async with _stop_signals()` surrounds: the daemon waits, and whatever ends that,
it releases what it holds. -/
def waitAndRelease (daemon : Daemon) : Command Unit :=
  (untilInterrupted (Command.ask (.untilStopped daemon))).tryFinally
    (Command.ask (.release daemon))

/-! ### serve -/

structure ServeArgs where
  address : String
  host : String := "127.0.0.1"
  port : ℤ := 8787
  token : Option String := none
  allowHost : List String := []
  timeout : ℚ := 20
  force : Bool := false
  settle : ℚ := 10
  poll : Option PollSeconds := none

/-- The arguments of `ServerConfig`. -/
def ServeArgs.server (args : ServeArgs) : ServerArgs where
  host := Str.of args.host
  port := args.port
  token := (orEnviron environ args.token "BEDJET_TOKEN").map Str.of
  allowedHosts := args.allowHost.map Str.of

/-- The texts of a `ConfigurationRefused`. -/
def refusedConfiguration (args : ServeArgs) : String :=
  match orEnviron environ args.token "BEDJET_TOKEN" with
  | none =>
      s!"refusing to bind {args.host} without a token.\n" ++
      "On any interface but loopback this would let anything that can reach the " ++
      "port switch on a heater. Either bind 127.0.0.1, or set a token " ++
      "(BEDJET_TOKEN, or --token).\n" ++
      "Generate one with: python3 -c 'import secrets; print(secrets.token_urlsafe(32))'"
  | some _ =>
      "the token is too short to be worth having. Use at least 16 characters — " ++
      "python3 -c 'import secrets; print(secrets.token_urlsafe(32))'"

def servingTexts (args : ServeArgs) : List String :=
  let auth :=
    match orEnviron environ args.token "BEDJET_TOKEN" with
    | none | some "" => "none (loopback only)"
    | some _ => "Authorization: Bearer <token>"
  [ s!"\nServing http://{args.host}:{args.port}/api/v1",
    s!"  auth:  {auth}",
    "  state: GET /api/v1/state · live: GET /api/v1/ws",
    "\n⚠️  This process holds the BedJet's only BLE slot. The vendor app cannot " ++
    "connect while\n    it runs. To hand the device back for five minutes:\n" ++
    s!"      curl -X POST http://{args.host}:{args.port}/api/v1/link/yield " ++
    "-d '\x7b\"seconds\": 300\x7d'\n",
    "Ctrl-C or SIGTERM to stop.\n"]

/-- `cmd_serve`, from the session on. -/
def serveWith (args : ServeArgs) (config : ServerConfig) : Command ℕ := do
  Command.ask (.startSession args.address args.timeout args.settle (args.poll.map (·.val)))
  Command.ask (.serveApi config)
  Command.printAll ((servingTexts environ args).map .ok)
  waitAndRelease .serve
  return 0

/-- The imports of an adapter, with what is said where it is not installed. -/
def importExtra (daemon : Daemon) (refusal : String → String) : Command Bool :=
  Coroutine.tryExcept
    (do
      Command.ask (.importExtra daemon)
      return true)
    fun
      | .importError message => some do
          Command.print (refusal message)
          return false
      | _ => none

def cmdServe (args : ServeArgs) : Command ℕ := do
  checkOwnership file target args.address args.force
  let imported ← importExtra .serve fun message =>
    s!"⛔ the HTTP adapter needs its extra: `uv sync --extra http` ({message})"
  if !imported then return 1
  else if haccepted : (args.server environ).postInit = .ok () then
    serveWith environ args { toServerArgs := args.server environ, accepted := haccepted }
  else
    Command.print s!"\n⛔ {refusedConfiguration environ args}"
    return 1

/-! ### mqtt -/

structure MqttArgs where
  address : String
  broker : String := "127.0.0.1"
  brokerPort : ℤ := 1883
  username : Option String := none
  baseTopic : String := "bedjet"
  deviceId : String := "bedjet"
  noDiscovery : Bool := false
  timeout : ℚ := 20
  force : Bool := false
  settle : ℚ := 10
  poll : Option PollSeconds := none

def MqttArgs.config (args : MqttArgs) : BrokerConfig where
  hostname := args.broker
  port := args.brokerPort
  username := orEnviron environ args.username "BEDJET_MQTT_USERNAME"
  password := environ "BEDJET_MQTT_PASSWORD"
  baseTopic := args.baseTopic
  deviceId := args.deviceId
  discovery := !args.noDiscovery

def bridgingTexts (config : BrokerConfig) : List String :=
  let discovery := if config.discovery then "on" else "off"
  let yielding := config.commandTopic "link_yield"
  [ s!"\nBridging to mqtt://{config.hostname}:{config.port}",
    s!"  state:    {config.stateTopic}",
    s!"  commands: {config.commandWildcard}",
    s!"  results:  {config.resultTopic}",
    s!"  discovery: {discovery}",
    "\n⚠️  This process holds the BedJet's only BLE slot. To hand the device back for " ++
    s!"five minutes:\n      mosquitto_pub -t {yielding} -m 300\n",
    "Ctrl-C or SIGTERM to stop.\n"]

def cmdMqtt (args : MqttArgs) : Command ℕ := do
  checkOwnership file target args.address args.force
  let imported ← importExtra .mqtt fun message =>
    s!"⛔ the MQTT adapter needs its extra: `uv sync --extra mqtt` ({message})"
  if !imported then return 1
  else
    Command.ask (.startSession args.address args.timeout args.settle (args.poll.map (·.val)))
    Command.printAll ((bridgingTexts (args.config environ)).map .ok)
    waitAndRelease .mqtt
    return 0

end

end Bedjet.Cli
