import SmartIdVault.Lib.Bytes
import SmartIdVault.Lib.Machine
import SmartIdVault.Lib.Tasks

/-! `WebUsbTransport` of `lib/usb/WebUsbTransport.ts`, with the helpers of `webusbCore.ts`.  Every
call of `connect` and `disconnect` and every read loop is at one of its awaits, and an event lets
one of them go on.  One flag, `readLoopActive`, stands for all read loops; a loop that wakes up
looks at it and at the device that is current then. -/

namespace SmartIdVault.Usb

def androidVendorIds : List Nat :=
  [0x18D1, 0x04E8, 0x22B8, 0x0FCE, 0x2B4C, 0x0bb4, 0x12d1, 0x1004]

/-- A device that `getDevices` lists, by its handle. -/
structure UsbDevice where
  handle : Nat
  vendorId : Nat
  deriving DecidableEq, Repr

inductive Direction
  | in_
  | out
  deriving DecidableEq, Repr

structure UsbEndpoint where
  direction : Direction
  endpointNumber : Nat
  deriving DecidableEq, Repr

structure UsbEndpointPair where
  in_ : UsbEndpoint
  out : UsbEndpoint
  deriving DecidableEq, Repr

/-- The endpoints of each alternate of each interface of a configuration. -/
abbrev Configuration := List (List (List UsbEndpoint))

def findEndpointPair (configuration : Option Configuration) : Option UsbEndpointPair := do
  let endpoints := (configuration.getD []).flatten.flatten
  let in_ ← endpoints.find? (·.direction = .in_)
  let out ← endpoints.find? (·.direction = .out)
  return { in_, out }

/-- Where a call of `connect` stands: at `getDevices`, at `openUsbDevice`, or at the `close` of a
device without endpoints. -/
inductive Connecting
  | gettingDevices
  | opening (android : Nat)
  | closing
  | resolved
  | rejected
  deriving DecidableEq, Repr

/-- A call of `disconnect`, at the `close` of the device or at its end. -/
inductive Disconnecting
  | closing
  | resolved
  deriving DecidableEq, Repr

/-- A read loop: at its condition, at a `transferIn`, or at its end.  Of a transfer it is recorded
for which device it is, and in which connection it was started. -/
inductive ReadLoop
  | looping
  | transferring (device connection : Nat)
  | ended
  deriving DecidableEq, Repr

def ReadLoop.isLive (l : ReadLoop) : Bool := l ≠ .ended

/-- A call of a message callback, with the device that the bytes have come from. -/
structure Delivery where
  callback : Nat
  device : Nat
  bytes : Bytes
  deriving DecidableEq, Repr

/-- The transport; callbacks are known by numbers.  `connections` counts the connections that have
been made, and `delivered` and `notified` are the calls of message and disconnect callbacks. -/
structure WebUsbTransport where
  device : Option Nat := none
  endpoints : Option UsbEndpointPair := none
  connected : Bool := false
  readLoopActive : Bool := false
  messageCallbacks : List Nat := []
  disconnectCallbacks : List Nat := []
  connects : List Connecting := []
  disconnects : List Disconnecting := []
  loops : List ReadLoop := []
  connections : Nat := 0
  delivered : List Delivery := []
  notified : List Nat := []
  deriving DecidableEq

/-- The calls, and how what they await settles: `getDevices` and `openUsbDevice` of call `i` of
`connect`, with the configuration of the device and whether it is open; the failure of either; the
`close` of a device; the transfer of loop `l`, with its data; and the loop at its condition. -/
inductive Event
  | onMessage (callback : Nat)
  | removeMessageListener (callback : Nat)
  | onDisconnect (callback : Nat)
  | removeDisconnectListener (callback : Nat)
  | connect
  | gotDevices (i : Nat) (devices : List UsbDevice)
  | opened (i : Nat) (configuration : Option Configuration) (isOpened : Bool)
  | connectFailed (i : Nat)
  | unusableClosed (i : Nat)
  | disconnect
  | closed (i : Nat)
  | transferred (l : Nat) (data : Bytes)
  | transferFailed (l : Nat)
  | looped (l : Nat) (isOpened : Bool)
  deriving DecidableEq, Repr

namespace WebUsbTransport

def putConnect (s : WebUsbTransport) (i : Nat) (c : Connecting) : WebUsbTransport :=
  { s with connects := s.connects.set i c }

def putLoop (s : WebUsbTransport) (l : Nat) (loop : ReadLoop) : WebUsbTransport :=
  { s with loops := s.loops.set l loop }

/-- What a loop does at its condition: a transfer from the device that is current. -/
def turn (s : WebUsbTransport) (isOpened : Bool) : ReadLoop :=
  match s.device, s.endpoints with
  | some device, some _ =>
    if s.readLoopActive && isOpened then .transferring device s.connections else .ended
  | _, _ => .ended

/-- `startReadLoop`; the loop runs up to its first await. -/
def startReadLoop (s : WebUsbTransport) (isOpened : Bool) : WebUsbTransport :=
  if s.readLoopActive || s.device.isNone || s.endpoints.isNone then s
  else
    let s := { s with readLoopActive := true }
    { s with loops := s.loops ++ [s.turn isOpened] }

def connect (s : WebUsbTransport) : WebUsbTransport :=
  if s.connected && s.device.isSome then { s with connects := s.connects ++ [.resolved] }
  else { s with connects := s.connects ++ [.gettingDevices] }

def gotDevices (s : WebUsbTransport) (i : Nat) (devices : List UsbDevice) : WebUsbTransport :=
  match devices.find? (·.vendorId ∈ androidVendorIds) with
  | none => s.putConnect i .rejected
  | some android => s.putConnect i (.opening android.handle)

/-- The end of `connect`, from the device that has been opened. -/
def opened (s : WebUsbTransport) (i android : Nat) (configuration : Option Configuration)
    (isOpened : Bool) : WebUsbTransport :=
  match findEndpointPair configuration with
  | none => s.putConnect i .closing
  | some endpoints =>
    startReadLoop
      { s.putConnect i .resolved with
        device := some android
        endpoints := some endpoints
        connected := true
        connections := s.connections + 1 }
      isOpened

/-- The `finally` of `disconnect`. -/
def release (s : WebUsbTransport) : WebUsbTransport :=
  { s with device := none, endpoints := none, connected := false }

def disconnect (s : WebUsbTransport) : WebUsbTransport :=
  match s.device with
  | some _ => { s with readLoopActive := false, disconnects := s.disconnects ++ [.closing] }
  | none => release { s with readLoopActive := false, disconnects := s.disconnects ++ [.resolved] }

def handleDisconnect (s : WebUsbTransport) : WebUsbTransport :=
  { s.release with
    readLoopActive := false
    notified := s.notified ++ s.disconnectCallbacks }

/-- The transfer of a loop resolves. -/
def transferred (s : WebUsbTransport) (l device : Nat) (data : Bytes) : WebUsbTransport :=
  let s := s.putLoop l .looping
  if data = [] then s
  else { s with delivered :=
    s.delivered ++ s.messageCallbacks.map fun callback => { callback, device, bytes := data } }

/-- The transfer of a loop rejects. -/
def transferFailed (s : WebUsbTransport) (l : Nat) : WebUsbTransport :=
  let s := s.putLoop l .ended
  if s.readLoopActive then s.handleDisconnect else s

def step (s : WebUsbTransport) : Event → Option WebUsbTransport
  | .onMessage callback => some { s with messageCallbacks := s.messageCallbacks ++ [callback] }
  | .removeMessageListener callback =>
    some { s with messageCallbacks := s.messageCallbacks.erase callback }
  | .onDisconnect callback =>
    some { s with disconnectCallbacks := s.disconnectCallbacks ++ [callback] }
  | .removeDisconnectListener callback =>
    some { s with disconnectCallbacks := s.disconnectCallbacks.erase callback }
  | .connect => some s.connect
  | .gotDevices i devices =>
    match s.connects[i]? with
    | some .gettingDevices => some (s.gotDevices i devices)
    | _ => none
  | .opened i configuration isOpened =>
    match s.connects[i]? with
    | some (.opening android) => some (s.opened i android configuration isOpened)
    | _ => none
  | .connectFailed i =>
    match s.connects[i]? with
    | some .gettingDevices | some (.opening _) => some (s.putConnect i .rejected)
    | _ => none
  | .unusableClosed i =>
    match s.connects[i]? with
    | some .closing => some (s.putConnect i .rejected)
    | _ => none
  | .disconnect => some s.disconnect
  | .closed i =>
    match s.disconnects[i]? with
    | some .closing => some (release { s with disconnects := s.disconnects.set i .resolved })
    | _ => none
  | .transferred l data =>
    match s.loops[l]? with
    | some (.transferring device _) => some (s.transferred l device data)
    | _ => none
  | .transferFailed l =>
    match s.loops[l]? with
    | some (.transferring _ _) => some (s.transferFailed l)
    | _ => none
  | .looped l isOpened =>
    match s.loops[l]? with
    | some .looping => some (s.putLoop l (s.turn isOpened))
    | _ => none

abbrev Run (s : WebUsbTransport) (es : List Event) (t : WebUsbTransport) : Prop :=
  Machine.Run step s es t

end WebUsbTransport

end SmartIdVault.Usb
