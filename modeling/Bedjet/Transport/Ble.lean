import Bedjet.Asyncio.Recording
import Bedjet.Asyncio.Lock
import Bedjet.Asyncio.Pool
import Bedjet.Python.Dict
import Bedjet.Python.Text

/-!
`BleakTransport`: the one place that talks to bleak. Its calls are coroutines over
one client and one lock for the reads and writes; each call is given by the place
where it is suspended and what it does up to the next suspension. What bleak
answers, and when it drops a link, is up to the environment.
-/

namespace Bedjet.Transport

open Asyncio Python

/-! ### What bleak raises, and what leaves this module -/

/-- The subclasses of `BleakError` that `connect` tells apart. -/
inductive BleakClass | notFound | outOfConnectionSlots | aborted | other
  deriving DecidableEq

structure BleakError where
  cls : BleakClass
  /-- `type(exc).__name__` -/
  typeName : String
  /-- `str(exc)` -/
  text : String
  deriving DecidableEq

/-- What a call into bleak may raise. -/
inductive Thrown
  | bleakError (e : BleakError)
  /-- an exception that does not derive from `BleakError` -/
  | other (typeName text : String)
  | cancelledError
  deriving DecidableEq

/-- What a call of the transport may raise. -/
inductive Raised
  | transportError (text : String)
  | thrown (e : Thrown)
  deriving DecidableEq

/-- `_bleak_errors_as_transport` -/
def bleakErrorsAsTransport (operation : String) : Thrown → Raised
  | .bleakError e => .transportError s!"{operation}: {e.typeName}: {e.text}"
  | e => .thrown e

/-- What `_resolve` says of a device that did not appear. -/
def notAdvertising (address : String) (timeout : ℚ) : String :=
  s!"{address} did not appear in a {fixed 0 timeout}s scan, so no connection was " ++
  "attempted.\n" ++
  "The device is not advertising. Common causes, cheapest first:\n" ++
  "  · another client holds the link (the vendor app on a phone) — many BLE " ++
  "peripherals stop advertising while connected\n" ++
  "  · the unit lost power, or has gone into a deep idle\n" ++
  "  · it is out of range, or the radio path changed\n" ++
  "  · on macOS this address is a host-local CoreBluetooth UUID; if the " ++
  "device rotated its BLE address, macOS may now know it under a different " ++
  "one (see RL-009) — re-run `bedjet discover`"

/-- The `except` clauses of `connect`. -/
def connectError (maxAttempts : ℕ) (address : String) : Thrown → Raised
  | .bleakError e =>
      match e.cls with
      | .notFound =>
          .transportError
            (s!"{address} was found by the scan but had disappeared by the time we " ++
              s!"connected, after {maxAttempts} attempt(s): {e.text}. The link is " ++
              "marginal — run `bedjet discover --repeat 5` and judge the RSSI spread " ++
              "(RL-010).")
      | .outOfConnectionSlots =>
          .transportError
            (s!"the Bluetooth adapter is out of connection slots: {e.text}. Something else " ++
              "on this host is holding BLE connections open.")
      | .aborted | .other =>
          .transportError
            (s!"could not connect to {address} after {maxAttempts} attempt(s): " ++
              s!"{e.text}. The device was found but refused the link. The BedJet allows only " ++
              "one BLE client at a time — check that the vendor app is not connected.")
  | e => .thrown e

/-! ### The client -/

structure GattCharacteristic where
  uuid : String
  properties : List String

structure GattService where
  uuid : String
  characteristics : List GattCharacteristic

/-- What `BleDevice` tells: `device.name` may be missing or empty. -/
structure BleDevice where
  address : String
  name : Option String

/-- `device.name or address` -/
def BleDevice.label (d : BleDevice) (address : String) : String :=
  match d.name with
  | some name => if name = "" then address else name
  | none => address

/-- A client, as the transport sees it. Its services are found when it connects;
asking for them may raise. -/
structure BleakClient where
  services : Except Thrown (List GattService)
  isConnected : Bool := true

/-- `_write_needs_response`, on the services of the client -/
def writeNeedsResponse (services : List GattService) (characteristic : String) : Bool :=
  match (services.flatMap (·.characteristics)).find? fun char =>
      lower char.uuid = lower characteristic with
  | some char => !((char.properties.map lower).contains "write-without-response")
  | none => true

abbrev Layout := Dict String (List (String × List String))

/-- What `services` returns: a service that comes again takes the place of the first. -/
def layoutOf (services : List GattService) : Layout :=
  services.foldl (fun layout service =>
    layout.set service.uuid
      (service.characteristics.map fun char => (char.uuid, char.properties))) []

/-- A read or a write, done under `_gatt`. -/
inductive Exchange
  | read (characteristic : String)
  | write (characteristic : String) (data : Bytes) (response : Bool)
  deriving DecidableEq

/-- An operation on a client. -/
inductive Operation
  | exchange (exchange : Exchange)
  | startNotify (characteristic : String) (callback : ℕ) (discriminator : Option ℕ)
  | stopNotify (characteristic : String)
  | disconnect
  deriving DecidableEq

/-- How the errors of an operation are labelled. -/
def Operation.label : Operation → String
  | .exchange (.read characteristic) => s!"reading {characteristic}"
  | .exchange (.write characteristic _ _) => s!"writing {characteristic}"
  | .startNotify characteristic _ _ => s!"subscribing to {characteristic}"
  | .stopNotify characteristic => s!"unsubscribing from {characteristic}"
  | .disconnect => "disconnecting"

/-! ### The calls -/

/-- A call of the transport. Callbacks and discriminators are named by numbers. -/
inductive Request
  | connect (address : String) (timeout : ℚ)
  | disconnect
  | read (characteristic : String)
  | write (characteristic : String) (data : Bytes) (response : Option Bool)
  | subscribe (characteristic : String) (callback : ℕ) (discriminator : Option ℕ)
  | unsubscribe (characteristic : String)
  | services
  deriving DecidableEq

inductive Answer
  | nothing
  | data (data : Bytes)
  | layout (layout : Layout)

def Operation.answer (data : Bytes) : Operation → Answer
  | .exchange (.read _) => .data data
  | _ => .nothing

/-- Where a call stands. -/
inductive Pc
  /-- in `BleakScanner.find_device_by_address` -/
  | resolving (address : String) (timeout : ℚ)
  /-- in `establish_connection`, which is given a name for its messages -/
  | establishing (address name : String)
  /-- waiting for `_gatt` -/
  | waiting (exchange : Exchange)
  /-- in an operation of the client with this number -/
  | calling (client : ℕ) (operation : Operation)
  | returned (answer : Answer)
  | raised (e : Raised)

def Pc.finished : Pc → Bool
  | .returned _ | .raised _ => true
  | _ => false

/-- Why a suspended call runs again. -/
inductive Outcome
  /-- what the scan found -/
  | found (device : Option BleDevice)
  | established (client : BleakClient)
  /-- the lock is handed over -/
  | granted
  /-- the operation returned; only a read looks at the data -/
  | done (data : Bytes)
  | threw (e : Thrown)

structure BleakTransport where
  /-- every client a connection was established with; the code keeps only the last -/
  clients : List BleakClient := []
  /-- `_client`, by its number -/
  client : Option ℕ := none
  gatt : Lock := {}
  /-- how many calls were made; the code has no such counter -/
  calls : ℕ := 0

namespace BleakTransport

variable (c : BleakTransport)

/-- Whether the link of a client is up. -/
def up (k : ℕ) : Bool :=
  (c.clients[k]?).any (·.isConnected)

def isConnected : Bool :=
  c.client.any c.up

/-- `_require`: none stands for its error. -/
def require : Option ℕ :=
  c.client.filter c.up

def notConnected : Pc :=
  .raised (.transportError "not connected")

/-- What `services` of a client comes to. -/
def servicesOf (k : ℕ) : Except Thrown (List GattService) :=
  ((c.clients[k]?).map (·.services)).getD (.ok [])

/-- A read or write that has the lock. -/
def inside (exchange : Exchange) : BleakTransport × Pc :=
  match c.require with
  | some k => (c, .calling k (.exchange exchange))
  | none => ({ c with gatt := c.gatt.release }, notConnected)

/-- A read or write comes to the lock. -/
def enter (t : ℕ) (exchange : Exchange) : BleakTransport × Pc :=
  if c.gatt.isFree then { c with gatt := c.gatt.take t }.inside exchange
  else ({ c with gatt := c.gatt.enqueue t }, .waiting exchange)

/-- An operation is done on the client there is, outside the lock. -/
def onClient (operation : Operation) : BleakTransport × Pc :=
  match c.require with
  | some k => (c, .calling k operation)
  | none => (c, notConnected)

/-- The call `t` is made, and runs up to its first suspension. -/
def begin (t : ℕ) : Request → BleakTransport × Pc
  | .connect address timeout => (c, .resolving address timeout)
  | .disconnect =>
      match c.client with
      -- cleared before the await, so that a disconnect that raises leaves no link behind
      | some k => ({ c with client := none }, .calling k .disconnect)
      | none => (c, .returned .nothing)
  | .read characteristic => c.enter t (.read characteristic)
  | .write characteristic data (some response) => c.enter t (.write characteristic data response)
  | .write characteristic data none =>
      match c.require.map c.servicesOf with
      | some (.ok services) =>
          c.enter t (.write characteristic data (writeNeedsResponse services characteristic))
      | some (.error e) =>
          (c, .raised (bleakErrorsAsTransport s!"inspecting {characteristic}" e))
      | none => (c, notConnected)
  | .subscribe characteristic callback discriminator =>
      c.onClient (.startNotify characteristic callback discriminator)
  | .unsubscribe characteristic => c.onClient (.stopNotify characteristic)
  | .services =>
      match c.require.map c.servicesOf with
      | some (.ok services) => (c, .returned (.layout (layoutOf services)))
      | some (.error e) => (c, .raised (bleakErrorsAsTransport "enumerating services" e))
      | none => (c, notConnected)

/-- The end of an operation: a read or write gives the lock back. -/
def leave : Operation → BleakTransport
  | .exchange _ => { c with gatt := c.gatt.release }
  | _ => c

/-- The call `t` runs up to its next suspension. -/
def resume (maxAttempts t : ℕ) : Pc → Outcome → Option (BleakTransport × Pc)
  | .resolving address _, .found (some device) =>
      some (c, .establishing address (device.label address))
  | .resolving address timeout, .found none =>
      some (c, .raised (.transportError (notAdvertising address timeout)))
  | .resolving address _, .threw e =>
      some (c, .raised (bleakErrorsAsTransport s!"scanning for {address}" e))
  | .establishing _ _, .established client =>
      some ({ c with clients := c.clients ++ [client], client := some c.clients.length },
        .returned .nothing)
  | .establishing address _, .threw e => some (c, .raised (connectError maxAttempts address e))
  | .waiting exchange, .granted =>
      if c.gatt.grants t then some ({ c with gatt := c.gatt.grant t }.inside exchange) else none
  -- nothing but a cancellation ends the wait for a lock
  | .waiting _, .threw .cancelledError =>
      some ({ c with gatt := c.gatt.leave t }, .raised (.thrown .cancelledError))
  | .calling _ operation, .done data => some (c.leave operation, .returned (operation.answer data))
  | .calling _ operation, .threw e =>
      some (c.leave operation, .raised (bleakErrorsAsTransport operation.label e))
  | _, _ => none

/-- The link of the client `k` drops. -/
def drop (k : ℕ) : BleakTransport :=
  { c with clients := c.clients.modify k fun client => { client with isConnected := false } }

end BleakTransport

/-! ### The machine -/

structure Call where
  request : Request
  pc : Pc

abbrev Ble := Pool BleakTransport Call

inductive Action
  | call (request : Request)
  | resume (t : ℕ) (outcome : Outcome)
  /-- the link of a client drops -/
  | drop (k : ℕ)

namespace Ble

def initial : Ble where
  core := {}
  parties _ := none

/-- The state after a call is made. -/
def arrive (a : Ble) (request : Request) : Ble :=
  let (core, pc) := a.core.begin a.core.calls request
  a.put a.core.calls { core with calls := core.calls + 1 } { request, pc }

def step (maxAttempts : ℕ) (a : Ble) : Action → Option Ble
  | .call request => some (a.arrive request)
  | .resume t outcome => do
      let call ← a.parties t
      let (core, pc) ← a.core.resume maxAttempts t call.pc outcome
      some (a.put t core { call with pc })
  | .drop k => if k < a.core.clients.length then some { a with core := a.core.drop k } else none

def machine (maxAttempts : ℕ) : Machine Ble Action where
  step := step maxAttempts

end Ble

/-! ### The record of a run -/

inductive Event
  /-- a call is made, while there is this client to use -/
  | called (t : ℕ) (request : Request) (client : Option ℕ)
  /-- the call begins an operation of a client -/
  | sent (t k : ℕ) (operation : Operation)
  /-- a `connect` completes with the client `k`, whose link is up or has dropped already -/
  | connected (t k : ℕ) (up : Bool)
  /-- bleak raised in the call -/
  | threw (t : ℕ) (e : Thrown)
  | dropped (k : ℕ)
  deriving DecidableEq

namespace Ble

/-- The operation the call is in. -/
def sentBy (a : Ble) (t : ℕ) : List Event :=
  match a.parties t with
  | some { pc := .calling k operation, .. } => [.sent t k operation]
  | _ => []

/-- What bleak raises when a call looks at the services of the client. -/
def inspecting (c : BleakTransport) : Request → Option Thrown
  | .write _ _ none | .services =>
      match c.require.map c.servicesOf with
      | some (.error e) => some e
      | _ => none
  | _ => none

/-- What a step from `a` to `a'` adds to the record: a call that has moved and is in
an operation has just begun it. -/
def note (a : Ble) (action : Action) (a' : Ble) : List Event :=
  match action with
  | .call request =>
      a'.sentBy a.core.calls ++ ((inspecting a.core request).toList.map (.threw a.core.calls) ++
        [.called a.core.calls request a.core.require])
  | .resume t (.established client) => [.connected t a.core.clients.length client.isConnected]
  | .resume t (.threw e) => [.threw t e]
  | .resume t _ => a'.sentBy t
  | .drop k => [.dropped k]

/-- The machine that keeps the record. -/
def recorded (maxAttempts : ℕ) : Machine (Ble × List Event) Action :=
  (machine maxAttempts).recording note

end Ble

end Bedjet.Transport
