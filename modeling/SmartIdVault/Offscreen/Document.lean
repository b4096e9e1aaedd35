import SmartIdVault.Lib.Handles
import SmartIdVault.Lib.Machine
import SmartIdVault.Lib.Tasks
import SmartIdVault.Lib.Utf

/-! The offscreen document that holds the WebRTC connection: its variables, the peer connections,
sockets and timers that it has made, and the calls that wait.  Each await is a step of its own, and
what goes on after one reads the variables as they are by then.  Peer connections, sockets and
timers keep their places in their lists, so that a variable that is assigned anew leaves the old one
behind, at work. -/

namespace SmartIdVault.Offscreen

inductive SignalingState where
  | stable
  | haveLocalOffer
  | haveRemoteOffer
  | closed
  deriving DecidableEq

inductive ConnectionState where
  | new
  | connecting
  | connected
  | disconnected
  | failed
  | closed
  deriving DecidableEq

inductive IceConnectionState where
  | new
  | checking
  | connected
  | completed
  | failed
  | disconnected
  | closed
  deriving DecidableEq

/-- `made`: an offer created on it has become its local description. -/
structure PeerConnection where
  relayOnly : Bool
  signalingState : SignalingState := .stable
  connectionState : ConnectionState := .new
  iceConnectionState : IceConnectionState := .new
  made : Bool := false
  deriving DecidableEq

/-- A socket, with the code that its handlers have been made for, until `disconnect` is called on
it. -/
structure Socket where
  code : Option Utf16
  live : Bool := true
  deriving DecidableEq

inductive TimerKind where
  | reconnect
  | connection
  | credsRefresh
  deriving DecidableEq

/-- The delay in milliseconds is without the jitter that `scheduleReconnect` adds. -/
structure Timer where
  kind : TimerKind
  delay : Int
  armed : Bool := true
  deriving DecidableEq

structure TurnCredentials where
  ttl : Int
  deriving DecidableEq

/-- What the signaling server sends. -/
inductive Signal where
  | roomJoined (peerCount : Nat)
  | sdpOffer
  | sdpAnswer
  | iceCandidate
  deriving DecidableEq

/-- A message on its way to a socket; one that is relayed to several has the same number in all. -/
structure Packet where
  socket : Nat
  number : Nat
  signal : Signal
  deriving DecidableEq

/-- What a socket sends; an offer is known by the peer connection it was created on. -/
inductive Emission where
  | registerRoom (sasCode : Option Utf16) (nonce extensionStaticKey : List UInt8) (roomId : Utf16)
  | joinRoom (code : Option Utf16)
  | sdpOffer (code : Option Utf16) (offer : Nat)
  | sdpAnswer (code : Option Utf16)
  deriving DecidableEq

inductive Notification where
  | connectionState (state : Option ConnectionState)
      (previous : Option (Option ConnectionState))
  | connectionTimeout
  | sdpForQr (sasCode : Option Utf16)
  deriving DecidableEq

/-- The making of an offer: created on peer connection `on`, and then set as the local description
of the one that the variable holds by then. -/
inductive Making where
  | creating (on : Nat)
  | settingLocal (on target : Nat)
  deriving DecidableEq

/-- A call that waits: `fetchTurnCredentials`, in either start of a pairing, in the callback of the
reconnect timer and in that of the refresh timer; the promises of `createOffer` and
`generateQrSdp`, and the latter's two seconds; those of the handlers of `sdp-offer`, `sdp-answer`
and `ice-candidate`. -/
inductive Task where
  | startPairing (offerless : Bool)
  | reconnect
  | refreshCreds
  | createOffer (making : Making)
  | generateQrSdp (making : Making)
  | gathering
  | settingRemote (on : Nat)
  | creatingAnswer (on : Nat)
  | settingAnswer (on : Nat)
  | takingAnswer (on : Nat)
  | addingCandidate (on : Nat)
  | ended
  deriving DecidableEq

/-- The variables come first; `lastConnectionState` is `none` before there is one, and has `none`
for 'unknown'.  `applied` has the numbers of the messages that have been applied to
the peer connection; `disconnected` says that `disconnect` has run and no pairing has been started
since, and `lateTimeouts` has the timers that have reported a timeout in that time. -/
structure Document where
  pc : Option Nat := none
  socket : Option Nat := none
  sasCode : Option Utf16 := none
  nonce : Option (List UInt8) := none
  extensionStaticKey : Option (List UInt8) := none
  turnCredentials : Option TurnCredentials := none
  pendingSdpOffer : Option Nat := none
  offerAlreadyCreated : Bool := false
  reconnectAttempt : Nat := 0
  reconnectTimer : Option Nat := none
  connectionTimeout : Option Nat := none
  credsRefreshTimer : Option Nat := none
  lastConnectionState : Option (Option ConnectionState) := none
  peerConnections : List PeerConnection := []
  sockets : List Socket := []
  timers : List Timer := []
  tasks : List Task := []
  packets : List Packet := []
  nextNumber : Nat := 0
  emitted : List Emission := []
  notified : List Notification := []
  applied : List Nat := []
  disconnected : Bool := false
  lateTimeouts : List Nat := []
  deriving DecidableEq

/-- The messages of the background; a fetch that ends, with its credentials if there are any; a
timer; the states of a peer connection; a socket that connects; a message that the server sends, to
some of the sockets, and its arrival; and the end of what a call awaits of the browser. -/
inductive Event where
  | startPairing (offerless : Bool) (sasCode : Utf16)
      (nonce extensionStaticKey : Option (List UInt8))
  | disconnect
  | fetched (i : Nat) (creds : Option TurnCredentials)
  | fire (n : Nat)
  | connectionState (k : Nat) (state : ConnectionState)
  | iceConnectionState (k : Nat) (state : IceConnectionState)
  | connect (j : Nat)
  | relay (signal : Signal) (targets : List Nat)
  | inbound (n : Nat)
  | settled (i : Nat) (ok : Bool)
  deriving DecidableEq

namespace Document

def isOpen (s : Document) (k : Nat) : Bool :=
  Handles.isAlive (·.signalingState ≠ .closed) s.peerConnections k

def isLive (s : Document) (j : Nat) : Bool := Handles.isAlive (·.live) s.sockets j

def isArmed (s : Document) (n : Nat) : Bool := Handles.isAlive (·.armed) s.timers n

/-- A code that is there and not empty. -/
def hasCode (s : Document) : Bool := s.sasCode.any (· ≠ [])

def modifyPc (s : Document) (k : Nat) (f : PeerConnection → PeerConnection) : Document :=
  { s with peerConnections := s.peerConnections.modify k f }

def setSignalingState (s : Document) (k : Nat) (state : SignalingState) : Document :=
  s.modifyPc k fun p => { p with signalingState := state }

def setConnectionState (s : Document) (k : Nat) (state : ConnectionState) : Document :=
  s.modifyPc k fun p => { p with connectionState := state }

def setIceConnectionState (s : Document) (k : Nat) (state : IceConnectionState) : Document :=
  s.modifyPc k fun p => { p with iceConnectionState := state }

def start (s : Document) (task : Task) : Document := { s with tasks := s.tasks ++ [task] }

def put (s : Document) (i : Nat) (task : Task) : Document := { s with tasks := s.tasks.set i task }

def notify (s : Document) (n : Notification) : Document := { s with notified := s.notified ++ [n] }

/-- `socket?.emit`, on the socket that the variable holds. -/
def emit (s : Document) (e : Emission) : Document :=
  if s.socket.isSome then { s with emitted := s.emitted ++ [e] } else s

/-- `setTimeout`; the timer's place is its handle. -/
def arm (s : Document) (kind : TimerKind) (delay : Int) : Document :=
  { s with timers := s.timers ++ [{ kind, delay }] }

def clearTimeout (s : Document) (handle : Option Nat) : Document :=
  match handle with
  | none => s
  | some n => { s with timers := s.timers.modify n fun timer => { timer with armed := false } }

def scheduleCredsRefresh (s : Document) (ttlSeconds : Int) : Document :=
  { s.arm .credsRefresh (max ((ttlSeconds - 30) * 1000) 5000) with
    credsRefreshTimer := some s.timers.length }

def setupPeerConnection (s : Document) (relayOnly : Bool) : Document :=
  let s := { s with
    peerConnections := s.peerConnections ++ [{ relayOnly }]
    pc := some s.peerConnections.length }
  if relayOnly then s
  else { s.arm .connection 15000 with connectionTimeout := some s.timers.length }

def closePeerConnection (s : Document) : Document :=
  match s.pc with
  | none => s
  | some k => { s.modifyPc k fun p =>
      { p with signalingState := .closed, connectionState := .closed } with pc := none }

/-- `createOffer` up to its first await. -/
def createOffer (s : Document) : Document :=
  match s.pc with
  | none => s
  | some k =>
    if s.hasCode then { s.start (.createOffer (.creating k)) with offerAlreadyCreated := true }
    else s

def attemptRelayFallback (s : Document) : Document :=
  if s.pc.isNone ∨ 0 < s.reconnectAttempt then s
  else (s.closePeerConnection.setupPeerConnection true).createOffer

def scheduleReconnect (s : Document) : Document :=
  if s.reconnectTimer.isSome then s
  else { s.arm .reconnect (min (1000 * 2 ^ s.reconnectAttempt) 30000) with
    reconnectAttempt := s.reconnectAttempt + 1
    reconnectTimer := some s.timers.length }

/-- The new socket takes the place of the one in the variable.  The variables of the room are
assigned what they are. -/
def connectSignaling (s : Document) : Document :=
  { s with
    sockets := s.sockets ++ [{ code := s.sasCode }]
    socket := some s.sockets.length }

/-- `socket.disconnect`. -/
def disconnectSocket (s : Document) : Document :=
  match s.socket with
  | none => s
  | some j => { s with
      sockets := s.sockets.modify j fun socket => { socket with live := false }
      socket := none }

def clearTimers (s : Document) : Document :=
  ((s.clearTimeout s.reconnectTimer).clearTimeout s.connectionTimeout).clearTimeout
    s.credsRefreshTimer

def disconnect (s : Document) : Document :=
  { s.clearTimers.closePeerConnection.disconnectSocket with
    reconnectTimer := none
    connectionTimeout := none
    credsRefreshTimer := none
    sasCode := none
    nonce := none
    extensionStaticKey := none
    turnCredentials := none
    pendingSdpOffer := none
    offerAlreadyCreated := false
    reconnectAttempt := 0
    disconnected := true }

/-- `webrtc-start-pairing` and `webrtc-start-pairing-offerless` up to their fetch. -/
def startPairing (s : Document) (offerless : Bool) (sasCode : Utf16)
    (nonce extensionStaticKey : Option (List UInt8)) : Document :=
  { s.start (.startPairing offerless) with
    sasCode := some sasCode
    nonce
    extensionStaticKey
    disconnected := false }

def takeCredentials (s : Document) (creds : Option TurnCredentials) : Document :=
  match creds with
  | none => { s with turnCredentials := none }
  | some c => { s with turnCredentials := some c }.scheduleCredsRefresh c.ttl

/-- The offerless start goes on with `generateQrSdp`, and connects only after it. -/
def startFetched (s : Document) (i : Nat) (offerless : Bool) (creds : Option TurnCredentials) :
    Document :=
  let s := (s.takeCredentials creds).setupPeerConnection false
  match offerless, s.pc with
  | true, some k => s.put i (.generateQrSdp (.creating k))
  | _, _ => (s.put i .ended).connectSignaling

def fetched (s : Document) (i : Nat) (creds : Option TurnCredentials) : Task → Option Document
  | .startPairing offerless => some (s.startFetched i offerless creds)
  | .reconnect =>
    let s := { s with turnCredentials := creds.or s.turnCredentials }
    some (((s.put i .ended).closePeerConnection.setupPeerConnection false).connectSignaling)
  | .refreshCreds =>
    some (if creds.isSome then (s.put i .ended).takeCredentials creds else s.put i .ended)
  | _ => none

/-- The end of `generateQrSdp`, with an offer or without. -/
def finishQr (s : Document) (i : Nat) : Document :=
  ((s.put i .ended).notify (.sdpForQr s.sasCode)).connectSignaling

/-- The offer is the local description of the peer connection that it was created on; the browser
refuses it on another one. -/
def makeOffer (s : Document) (k : Nat) : Document :=
  { s.modifyPc k fun p => { p with signalingState := .haveLocalOffer, made := true } with
    pendingSdpOffer := some k }

/-- The offer of `generateQrSdp`, which sets the flag afterwards. -/
def makeQrOffer (s : Document) (k : Nat) : Document :=
  { s.makeOffer k with offerAlreadyCreated := true }

/-- What call `i` awaits of the browser has ended.  A promise of a peer connection is not fulfilled
once that is closed. -/
def settle (s : Document) (i : Nat) : Task → Bool → Option Document
  | .createOffer (.creating k), true =>
    if s.isOpen k then
      some (match s.pc with
        | none => s.put i .ended
        | some target => s.put i (.createOffer (.settingLocal k target)))
    else none
  | .createOffer (.settingLocal k target), true =>
    if k = target ∧ s.isOpen k then
      some (((s.put i .ended).makeOffer k).emit (.sdpOffer s.sasCode k))
    else none
  | .createOffer _, false => some (s.put i .ended)
  | .generateQrSdp (.creating k), true =>
    if s.isOpen k then
      some (match s.pc with
        | none => s.finishQr i
        | some target => s.put i (.generateQrSdp (.settingLocal k target)))
    else none
  | .generateQrSdp (.settingLocal k target), true =>
    if k = target ∧ s.isOpen k then
      -- `pc.onicecandidate` throws where there is no peer connection
      some (if s.pc.isSome then (s.makeQrOffer k).put i .gathering
        else (s.makeQrOffer k).finishQr i)
    else none
  | .generateQrSdp _, false => some (s.finishQr i)
  | .gathering, true => some (s.finishQr i)
  | .settingRemote k, true =>
    if s.isOpen k then
      let s := s.setSignalingState k .haveRemoteOffer
      some (s.put i (match s.pc with
        | none => .ended
        | some target => .creatingAnswer target))
    else none
  | .creatingAnswer k, true =>
    if s.isOpen k then
      some (s.put i (match s.pc with
        | none => .ended
        | some target => .settingAnswer target))
    else none
  | .settingAnswer k, true =>
    if s.isOpen k then
      let s := s.setSignalingState k .stable
      some ((s.put i .ended).emit (.sdpAnswer s.sasCode))
    else none
  | .takingAnswer k, true =>
    if s.isOpen k then some ((s.put i .ended).setSignalingState k .stable) else none
  | .addingCandidate k, true => if s.isOpen k then some (s.put i .ended) else none
  | .settingRemote _, false | .creatingAnswer _, false | .settingAnswer _, false
  | .takingAnswer _, false | .addingCandidate _, false => some (s.put i .ended)
  | _, _ => none

/-- The connection state of the peer connection in the variable. -/
def currentState (s : Document) : Option ConnectionState :=
  s.pc.bind fun k => s.peerConnections[k]?.map (·.connectionState)

/-- The callback of a timer. -/
def fire (s : Document) (n : Nat) : TimerKind → Document
  | .reconnect => { s.start .reconnect with reconnectTimer := none }
  | .connection =>
    if s.currentState = some .connected then s
    else { s.notify .connectionTimeout with
      lateTimeouts := if s.disconnected then n :: s.lateTimeouts else s.lateTimeouts }
  | .credsRefresh => s.start .refreshCreds

def recordConnectionState (s : Document) : Document :=
  { s.notify (.connectionState s.currentState s.lastConnectionState) with
    lastConnectionState := some s.currentState }

def endConnectionTimeout (s : Document) (state : Option ConnectionState) : Document :=
  if s.connectionTimeout.isSome ∧ (state = some .connected ∨ state = some .failed) then
    { s.clearTimeout s.connectionTimeout with connectionTimeout := none }
  else s

/-- `onconnectionstatechange` of a peer connection that is not the relay's. -/
def connectionStateChanged (s : Document) : Document :=
  let state := s.currentState
  let s := s.recordConnectionState.endConnectionTimeout state
  let s : Document := if state = some .connected then { s with reconnectAttempt := 0 } else s
  if state = some .failed ∨ state = some .disconnected then s.scheduleReconnect else s

/-- The ICE connection state of the peer connection in the variable has failed, before any
reconnect. -/
def fallsBack (s : Document) : Bool :=
  (s.pc.bind fun k => s.peerConnections[k]?.map (·.iceConnectionState)) = some .failed ∧
    s.reconnectAttempt = 0

/-- `oniceconnectionstatechange` of a peer connection that is not the relay's. -/
def iceConnectionStateChanged (s : Document) : Document :=
  if s.fallsBack then s.attemptRelayFallback else s

/-- The handler of 'connect' of socket `j`, which sends on the socket in the variable. -/
def connected (s : Document) (socket : Socket) : Document :=
  let s := match s.nonce, s.extensionStaticKey with
    | some nonce, some extensionStaticKey =>
      s.emit (.registerRoom socket.code nonce extensionStaticKey
        (Utf16.ofString "smartid2::" ++ socket.code.getD (Utf16.ofString "null")))
    | _, _ => s
  s.emit (.joinRoom socket.code)

def applyTo (s : Document) (number : Nat) (task : Task) : Document :=
  { s.start task with applied := s.applied ++ [number] }

def signalingState (s : Document) : Option SignalingState :=
  s.pc.bind fun k => s.peerConnections[k]?.map (·.signalingState)

/-- The handlers of what the server sends, up to their first await. -/
def handle (s : Document) (number : Nat) : Signal → Document
  | .roomJoined peerCount =>
    if 2 ≤ peerCount ∧ s.signalingState = some .stable ∧ s.offerAlreadyCreated = false then
      { s.createOffer with applied := s.applied ++ [number] }
    else s
  | .sdpOffer =>
    match s.pc with
    | none => s
    | some k => s.applyTo number (.settingRemote k)
  | .sdpAnswer =>
    match s.pc with
    | none => s
    | some k =>
      if s.signalingState = some .haveLocalOffer then s.applyTo number (.takingAnswer k) else s
  | .iceCandidate =>
    match s.pc with
    | none => s
    | some k => s.applyTo number (.addingCandidate k)

def step (s : Document) : Event → Option Document
  | .startPairing offerless sasCode nonce extensionStaticKey =>
    some (s.startPairing offerless sasCode nonce extensionStaticKey)
  | .disconnect => some s.disconnect
  | .fetched i creds => s.tasks[i]?.bind fun task => s.fetched i creds task
  | .fire n =>
    s.timers[n]?.bind fun timer =>
      if timer.armed then some ((s.clearTimeout (some n)).fire n timer.kind) else none
  | .connectionState k state =>
    s.peerConnections[k]?.bind fun p =>
      if p.signalingState = .closed then none
      else
        let s := s.setConnectionState k state
        some (if p.relayOnly then s else s.connectionStateChanged)
  | .iceConnectionState k state =>
    s.peerConnections[k]?.bind fun p =>
      if p.signalingState = .closed then none
      else
        let s := s.setIceConnectionState k state
        some (if p.relayOnly then s else s.iceConnectionStateChanged)
  | .connect j =>
    s.sockets[j]?.bind fun socket => if socket.live then some (s.connected socket) else none
  | .relay signal targets =>
    if targets.Nodup ∧ ∀ j ∈ targets, s.isLive j then
      some { s with
        packets := s.packets ++ targets.map fun j => { socket := j, number := s.nextNumber, signal }
        nextNumber := s.nextNumber + 1 }
    else none
  | .inbound n =>
    s.packets[n]?.bind fun packet =>
      if s.isLive packet.socket then
        some ({ s with packets := s.packets.eraseIdx n }.handle packet.number packet.signal)
      else none
  | .settled i ok => s.tasks[i]?.bind fun task => s.settle i task ok

end Document

end SmartIdVault.Offscreen
