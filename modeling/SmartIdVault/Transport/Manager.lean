import SmartIdVault.Lib.Machine
import SmartIdVault.Lib.Tasks
import SmartIdVault.Transport.Inbound

/-! `TransportManager.ts` with its two transports, as its calls interleave: a call is at one of its
awaits, and goes on when what it awaits has settled, up to its next await.  What the platform is
asked for settles in any way and in any order.  A promise that the program settles itself goes on
before anything else arrives from outside, but not before the program has made other calls. -/

namespace SmartIdVault.Transport

inductive TransportType where
  | usb | webrtc
  deriving DecidableEq, Repr

def maxAttempts : Nat := 3

/-- Where a call awaits: `checkAvailability`, which answers at once when a device is there; the end
of `UsbTransport.connect`, at a device that is there, for one to open, or for the offscreen document
to have one; in `disconnect`, the device to close or the answer to the `webrtc-disconnect` of a
transport; an attempt to connect WebRTC, or the delay after it; or nothing, at the end of a
`doSwitch` that returns without an await. -/
inductive Await where
  | checking (known : Bool)
  | usbReady
  | usbOpening
  | usbRelaying
  | closing
  | messaging (transport : TransportType)
  | webrtcConnecting (attempt : Nat)
  | webrtcSleeping (attempt : Nat)
  | returning
  | ended
  deriving DecidableEq, Repr

/-- The program has settled the promise itself. -/
def Await.immediate : Await → Bool
  | .checking known => known
  | .usbReady | .returning => true
  | _ => false

inductive Owner where
  | init | selectTransport
  deriving DecidableEq, Repr

/-- A call under way: `discoverTransport` for its caller; `doSwitch`, with the type of `current`,
the targets that the callers of `switchTransport` have asked for, the first of them its own, and
whether one of them is the handler of a WebRTC disconnect, which clears the active transport if the
switch fails; a tick of the USB poll; or `destroy`. -/
inductive Task where
  | discover (owner : Owner)
  | doSwitch (target : TransportType) (current : Option TransportType)
      (callers : List TransportType) (clears : Bool)
  | poll (wasAvailable : Bool)
  | destroy
  deriving DecidableEq, Repr

structure Op where
  task : Task
  at_ : Await
  deriving DecidableEq, Repr

/-- Another caller waits for the switch. -/
def Op.join (op : Op) (target : TransportType) (clears : Bool) : Op :=
  match op.task with
  | .doSwitch own current callers clears' =>
    { op with task := .doSwitch own current (callers ++ [target]) (clears' || clears) }
  | _ => op

/-- A call of `switchTransport` that has resolved, with the type of the active transport then. -/
structure Resolved where
  target : TransportType
  result : Bool
  active : Option TransportType
  deriving DecidableEq, Repr

/-- The fields of `TransportManager`, the field `readLoopActive` of its USB transport, and its
calls, which `selectPromise` and `switchPromise` name.  `intervals` counts the running poll timers,
of which `usbPollTimer` has the last; no code looks at `resolved`. -/
structure Manager where
  usb : UsbTransport Nat := {}
  readLoopActive : Bool := false
  webrtc : WebRtcTransport Nat := {}
  activeTransport : Option TransportType := none
  usbAvailable : Bool := false
  connecting : Bool := false
  selectPromise : Option Nat := none
  switchPromise : Option Nat := none
  usbPollTimer : Bool := false
  intervals : Nat := 0
  messageCallback : Option Nat := none
  ops : List Op := []
  resolved : List Resolved := []

/-- What an await settles with. -/
inductive Outcome where
  | available (b : Bool)
  | proceeds
  | opened (endpoint : Bool)
  | notOpened
  | relayed (success : Bool)
  | closed
  | disconnected (ok : Bool)
  | state (answer : Settled) (retryable : Bool)
  | slept
  deriving DecidableEq

/-- A method is called; a poll timer ticks; what call `i` awaits settles; a USB transfer fails; the
offscreen document reports that the peer connection is gone. -/
inductive ManagerEvent where
  | init
  | selectTransport
  | switchTransport (target : TransportType)
  | destroy
  | onMessage (callback : Nat)
  | pollTick
  | settle (i : Nat) (outcome : Outcome)
  | usbReadError
  | webrtcDisconnected
  deriving DecidableEq

namespace Manager

def put (m : Manager) (i : Nat) (op : Op) (at_ : Await) : Manager :=
  { m with ops := m.ops.set i { op with at_ } }

def start (m : Manager) (task : Task) (at_ : Await) : Manager :=
  { m with ops := m.ops ++ [⟨task, at_⟩] }

/-- `isAvailable()` of a transport. -/
def isAvailable (m : Manager) : TransportType → Bool
  | .usb => m.usb.connected
  | .webrtc => m.webrtc.connected

/-! ### The transports -/

/-- `connect()` of the USB transport up to its first await, for call `i`. -/
def connectUsb (m : Manager) (i : Nat) (op : Op) : Manager :=
  if m.usb.device then { m with usb := m.usb.connect false false }.put i op .usbReady
  else m.put i op .usbOpening

/-- A device has been opened, and `startReadLoop` finds an endpoint or not. -/
def openUsb (m : Manager) (endpoint : Bool) : Manager :=
  { m with
    usb := m.usb.connect true false
    readLoopActive := m.readLoopActive || endpoint }

def cleanupUsb (m : Manager) : Manager :=
  { m with usb := m.usb.cleanup, readLoopActive := false }

def cleanup (m : Manager) : TransportType → Manager
  | .usb => m.cleanupUsb
  | .webrtc => { m with webrtc := m.webrtc.cleanup }

/-- Where `disconnect()` of a transport awaits. -/
def disconnecting (m : Manager) : TransportType → Await
  | .usb => if m.usb.device then .closing else .messaging .usb
  | .webrtc => .messaging .webrtc

/-- What `disconnect()` does before that. -/
def disconnect (m : Manager) : TransportType → Manager
  | .usb => { m with readLoopActive := false }
  | .webrtc => m

/-- The callback, if there is one, for a transport that has become active. -/
def attach (m : Manager) (transport : TransportType) : Manager :=
  match m.messageCallback, transport with
  | none, _ => m
  | some callback, .usb => { m with usb := m.usb.onMessage callback }
  | some callback, .webrtc => { m with webrtc := m.webrtc.onMessage callback }

/-! ### Switching -/

/-- `switchTransport`, up to the first await of its `doSwitch`, or joining the one under way. -/
def switchTransport (m : Manager) (target : TransportType) (clears : Bool) : Manager :=
  match m.switchPromise with
  | some i => { m with ops := m.ops.modify i (·.join target clears) }
  | none =>
    let i := m.ops.length
    let task : Task := .doSwitch target m.activeTransport [target] clears
    let m := { m with switchPromise := some i }
    match target with
    | .usb =>
      if m.usbAvailable then (m.start task .usbOpening).connectUsb i ⟨task, .usbOpening⟩
      else m.start task .returning
    | .webrtc =>
      if m.activeTransport = some .usb then
        (m.disconnect .usb).start task (m.disconnecting .usb)
      else m.start task (.webrtcConnecting 1)

/-- A `doSwitch` resolves, and with it all calls that wait for it. -/
def resolve (m : Manager) (i : Nat) (op : Op) (result : Bool) : Manager :=
  match op.task with
  | .doSwitch _ _ callers clears =>
    { m.put i op .ended with
      switchPromise := none
      resolved := m.resolved ++ callers.map fun target => ⟨target, result, m.activeTransport⟩
      activeTransport := if !result && clears then none else m.activeTransport }
  | _ => m

/-- A `doSwitch` rejects. -/
def reject (m : Manager) (i : Nat) (op : Op) : Manager :=
  { m.put i op .ended with switchPromise := none }

/-! ### The awaits -/

/-- `discoverTransport` ends; `initialize` starts to poll. -/
def discovered (m : Manager) (i : Nat) (op : Op) (owner : Owner) : Manager :=
  match owner with
  | .init =>
    { m.put i op .ended with
      connecting := false
      usbPollTimer := true
      intervals := m.intervals + 1 }
  | .selectTransport => { m.put i op .ended with selectPromise := none }

/-- The USB transport becomes active at the end of a `doSwitch`. -/
def usbSwitched (m : Manager) (i : Nat) (op : Op) : Manager :=
  ({ m with activeTransport := some .usb }.attach .usb).resolve i op true

/-- After `connect()` of the USB transport. -/
def usbConnected (m : Manager) (i : Nat) (op : Op) : Manager :=
  match op.task with
  | .discover owner => { m with activeTransport := some .usb }.discovered i op owner
  | .doSwitch _ current _ _ =>
    if current = some .webrtc then (m.disconnect .webrtc).put i op (m.disconnecting .webrtc)
    else m.usbSwitched i op
  | _ => m

/-- `connect()` of the USB transport has thrown. -/
def usbFailed (m : Manager) (i : Nat) (op : Op) : Manager :=
  match op.task with
  | .discover _ => m.put i op (.webrtcConnecting 1)
  | .doSwitch .. => m.resolve i op false
  | _ => m

/-- After `connectWebRtcWithRetry`. -/
def retried (m : Manager) (i : Nat) (op : Op) (success : Bool) : Manager :=
  match op.task with
  | .discover owner => m.discovered i op owner
  | .doSwitch .. => m.resolve i op success
  | _ => m

/-- The end of `connectWebRtcWithRetry`, which has connected or not. -/
def webrtcDone (m : Manager) (i : Nat) (op : Op) (success : Bool) : Manager :=
  if success then ({ m with activeTransport := some .webrtc }.attach .webrtc).retried i op true
  else { m with activeTransport := none }.retried i op false

/-- An attempt of `connectWebRtcWithRetry` has its answer; an error that may be retried is one of
`sendMessage`. -/
def webrtcAnswered (m : Manager) (i : Nat) (op : Op) (attempt : Nat) (answer : Settled)
    (retryable : Bool) : Manager :=
  let connected := m.webrtc.connect answer
  let m := { m with webrtc := connected.2 }
  match connected.1, answer with
  | .ok (), _ => m.webrtcDone i op true
  | .error _, .error _ =>
    if attempt < maxAttempts && retryable then m.put i op (.webrtcSleeping attempt)
    else m.webrtcDone i op false
  | .error _, .ok _ => m.webrtcDone i op false

/-- After `disconnect()` of a transport. -/
def disconnected (m : Manager) (i : Nat) (op : Op) : Manager :=
  match op.task with
  | .doSwitch .usb .. => m.usbSwitched i op
  | .doSwitch .webrtc .. => m.put i op (.webrtcConnecting 1)
  | _ => m.put i op .ended

/-- `disconnect()` of a transport has thrown; a switch to USB catches that. -/
def disconnectFailed (m : Manager) (i : Nat) (op : Op) : Manager :=
  match op.task with
  | .doSwitch .usb .. => m.resolve i op false
  | .doSwitch .webrtc .. => m.reject i op
  | _ => m.put i op .ended

/-- After `checkUsbAvailability`. -/
def checked (m : Manager) (i : Nat) (op : Op) (b : Bool) : Manager :=
  let m := { m with usbAvailable := b }
  match op.task with
  | .discover _ => if b then m.connectUsb i op else m.put i op (.webrtcConnecting 1)
  | .poll wasAvailable =>
    let m := m.put i op .ended
    if b && !wasAvailable && m.activeTransport ≠ some .usb then m.switchTransport .usb false
    else if !b && wasAvailable && m.activeTransport = some .usb then
      m.switchTransport .webrtc false
    else m
  | _ => m

/-- What call `i` awaits settles. -/
def settle (m : Manager) (i : Nat) (op : Op) (outcome : Outcome) : Option Manager :=
  match op.at_, outcome with
  | .checking known, .available b => if known && !b then none else some (m.checked i op b)
  | .usbReady, .proceeds => some (m.usbConnected i op)
  | .usbOpening, .opened endpoint => some ((m.openUsb endpoint).usbConnected i op)
  | .usbOpening, .notOpened => some (m.put i op .usbRelaying)
  | .usbRelaying, .relayed true =>
    some ({ m with usb := m.usb.connect false true }.usbConnected i op)
  | .usbRelaying, .relayed false => some (m.usbFailed i op)
  | .closing, .closed => some (m.cleanupUsb.disconnected i op)
  | .messaging transport, .disconnected true =>
    some ((m.cleanup transport).disconnected i op)
  | .messaging transport, .disconnected false =>
    some ((m.cleanup transport).disconnectFailed i op)
  | .webrtcConnecting attempt, .state answer retryable =>
    some (m.webrtcAnswered i op attempt answer retryable)
  | .webrtcSleeping attempt, .slept => some (m.put i op (.webrtcConnecting (attempt + 1)))
  | .returning, .proceeds => some (m.resolve i op false)
  | _, _ => none

/-! ### Calls and events -/

/-- `discoverTransport` up to its first await. -/
def discover (m : Manager) (owner : Owner) : Manager :=
  m.start (.discover owner) (.checking m.usb.device)

/-- `initialize()`. -/
def initManager (m : Manager) : Manager :=
  if m.connecting then m else { m with connecting := true }.discover .init

def selectTransport (m : Manager) : Manager :=
  if m.activeTransport.isSome || m.selectPromise.isSome then m
  else { m with selectPromise := some m.ops.length }.discover .selectTransport

def clearPollTimer (m : Manager) : Manager :=
  if m.usbPollTimer then { m with usbPollTimer := false, intervals := m.intervals - 1 } else m

def destroy (m : Manager) : Manager :=
  let m := m.clearPollTimer
  match m.activeTransport with
  | none => m.start .destroy .ended
  | some transport => (m.disconnect transport).start .destroy (m.disconnecting transport)

def onMessage (m : Manager) (callback : Nat) : Manager :=
  let m := { m with messageCallback := some callback }
  match m.activeTransport with
  | none => m
  | some transport => m.attach transport

/-- The handler of a USB disconnect, after the cleanup. -/
def usbReadError (m : Manager) : Manager :=
  let m := m.cleanupUsb
  if m.activeTransport = some .usb then m.switchTransport .webrtc false else m

/-- The handler of a WebRTC disconnect, after the cleanup. -/
def webrtcDisconnected (m : Manager) : Manager :=
  let m := m.cleanup .webrtc
  if m.activeTransport = some .webrtc then m.switchTransport .usb true else m

/-- No call has yet to go on by itself. -/
def rests (m : Manager) : Bool := m.ops.all fun op => !op.at_.immediate

def step (m : Manager) : ManagerEvent → Option Manager
  | .init => some m.initManager
  | .selectTransport => some m.selectTransport
  | .switchTransport target => some (m.switchTransport target false)
  | .destroy => some m.destroy
  | .onMessage callback => some (m.onMessage callback)
  | .pollTick =>
    if m.rests && 0 < m.intervals then
      some (m.start (.poll m.usbAvailable) (.checking m.usb.device))
    else none
  | .settle i outcome =>
    m.ops[i]?.bind fun op =>
      if op.at_.immediate || m.rests then m.settle i op outcome else none
  | .usbReadError => if m.rests && m.readLoopActive then some m.usbReadError else none
  | .webrtcDisconnected =>
    if m.rests && m.webrtc.listenerAttached then some m.webrtcDisconnected else none

/-- No operation is in flight. -/
def Idle (m : Manager) : Prop := ∀ op ∈ m.ops, op.at_ = .ended

instance (m : Manager) : Decidable m.Idle := inferInstanceAs (Decidable (∀ op ∈ m.ops, _))

end Manager

end SmartIdVault.Transport
