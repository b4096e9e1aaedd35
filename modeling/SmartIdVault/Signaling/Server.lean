import Mathlib.Logic.Function.Basic
import SmartIdVault.Lib.Machine
import SmartIdVault.Signaling.Values

/-! The signaling server, `signaling-server/server.js`, as a machine.  A handler runs to its end
before the next one starts, so each is one step.  What socket.io keeps is part of the state: the
sockets, numbered in the order in which they connect, and the sockets that have joined a room.
`socket.disconnect(true)` takes the socket out of its rooms and runs the `disconnect` handler at
once.  The room that socket.io makes for each socket under its own id plays no part, since relays go
to rooms under the server's own prefix. -/

namespace SmartIdVault.Signaling

abbrev SocketId := Nat

structure Handshake where
  deviceId : JsVal := .undefined
  commitment : JsVal := .undefined
  deriving DecidableEq, Repr

structure Socket where
  handshake : Handshake
  connected : Bool := true
  deriving DecidableEq, Repr

/-- `timeout` says that the cleanup of the room is scheduled. -/
structure Room where
  peers : List SocketId := []
  timeout : Bool := false
  deriving DecidableEq, Repr

namespace Room

/-- The `disconnect` handler on one room; an empty room is scheduled for cleanup. -/
def leave (x : SocketId) (room : Room) : Room :=
  if x ∈ room.peers then
    let peers := room.peers.filter (· ≠ x)
    ⟨peers, if peers = [] then true else room.timeout⟩
  else room

/-- `getRoom`, `clearTimeout_`, `room.peers.add`. -/
def add (x : SocketId) (room : Option Room) : Room :=
  let peers := (room.getD {}).peers
  ⟨if x ∈ peers then peers else peers ++ [x], false⟩

end Room

structure TurnCredentials where
  username : Utf16
  password : Utf16
  ttl : Nat
  urls : List Utf16
  stunUrls : List Utf16
  deriving DecidableEq, Repr

structure RegisterRoom where
  sasCode : JsVal
  nonce : JsVal
  extensionStaticKey : JsVal
  roomId : JsVal
  deriving DecidableEq, Repr

def RegisterRoom.metadata (data : RegisterRoom) : Metadata :=
  ⟨data.sasCode, data.nonce, data.extensionStaticKey⟩

inductive RelayKind
  | sdpOffer | sdpAnswer | iceCandidate
  deriving DecidableEq, Repr

/-- The messages of a client.  `register-room` without an argument throws in the handler. -/
inductive ClientMessage
  | registerRoom (data : Option RegisterRoom)
  | joinRoom (sasCode : JsVal)
  | relay (kind : RelayKind) (sasCode payload : JsVal)
  deriving DecidableEq, Repr

inductive ServerMessage
  | error (message : String)
  | errorCode (error : String)
  | roomJoined (peerCount : Nat) (turnCredentials : Option TurnCredentials)
  | relay (kind : RelayKind) (payload : JsVal)
  deriving DecidableEq, Repr

/-- What a history tells: a socket joined a room, through `register-room` or through a `join-room`
whose commitment verified, or a message went from a socket through a room to others. -/
inductive Entry
  | joined (socket : SocketId) (room : Key)
  | relayed (socket : SocketId) (room : Key) (receivers : List SocketId)
  deriving DecidableEq, Repr

/-- The registration that created the metadata of a room. -/
structure Founding where
  socket : SocketId
  metadata : Metadata
  deriving DecidableEq, Repr

/-- The state.  No handler reads `founding`, `history` and `sent`. -/
structure Server where
  sockets : List Socket := []
  members : Key → List SocketId := fun _ => []
  rooms : Key → Option Room := fun _ => none
  roomMetadata : Key → Option Metadata := fun _ => none
  pendingCredentials : Key → Option TurnCredentials := fun _ => none
  revokedDevices : Key → Option Nat := fun _ => none
  crashed : Bool := false
  founding : Key → Option Founding := fun _ => none
  history : List Entry := []
  sent : List (SocketId × ServerMessage) := []

structure Config where
  sha256 : Bytes → Bytes
  hmacSha1 : Utf16 → Utf16 → Bytes := fun _ _ => []
  turnSecret : Option Utf16 := none
  turnServers : List Utf16 := [utf16 "turn:localhost:3478"]

/-- `TURN_SECRET`, which counts as not set when it is empty. -/
def Config.secret (cfg : Config) : Option Utf16 := cfg.turnSecret.filter (· ≠ [])

def turnCredentialTtl : Nat := 300
def revocationTtlMs : Nat := 24 * 60 * 60 * 1000

namespace Server

def isConnected (s : Server) (x : SocketId) : Bool :=
  match s.sockets[x]? with
  | none => false
  | some socket => socket.connected

def handshake (s : Server) (x : SocketId) : Handshake :=
  match s.sockets[x]? with
  | none => {}
  | some socket => socket.handshake

def emit (s : Server) (x : SocketId) (msg : ServerMessage) : Server :=
  { s with sent := s.sent ++ [(x, msg)] }

/-- A socket disconnects: it leaves its rooms, and the `disconnect` handler runs. -/
def disconnect (s : Server) (x : SocketId) : Server :=
  { s with
    sockets := s.sockets.modify x fun socket => { socket with connected := false }
    members := fun r => (s.members r).filter (· ≠ x)
    rooms := fun r => (s.rooms r).map (Room.leave x) }

/-- The end of `register-room` and of `join-room`: the socket joins the room, and hears how many
peers it has.  `joins` is what `socket.join` makes of the room's name. -/
def enter (s : Server) (x : SocketId) (roomId : Key) (joins : List Key) : Server :=
  let room := Room.add x (s.rooms roomId)
  { s with
    rooms := Function.update s.rooms roomId (some room)
    members := fun r => if r ∈ joins ∧ x ∉ s.members r then s.members r ++ [x] else s.members r
    history := s.history ++ joins.map (Entry.joined x) }.emit x
      (.roomJoined room.peers.length (s.pendingCredentials roomId))

/-- A room without metadata gets its first from the registration at hand. -/
def found (s : Server) (x : SocketId) (roomId : Key) (metadata : Metadata) : Server :=
  if (s.roomMetadata roomId).isSome then s
  else { s with founding := Function.update s.founding roomId (some ⟨x, metadata⟩) }

def registerRoom (s : Server) (x : SocketId) (data : RegisterRoom) : Server :=
  let refuse (message : String) := s.emit x (.error message)
  match checkSas data.sasCode with
  | .throws => { s with crashed := true }
  | .invalid => refuse "Invalid register-room data"
  | .valid _ =>
    if !data.roomId.truthy then refuse "Invalid register-room data"
    else if data.nonce.arrayBytes.map List.length ≠ some 32 then
      refuse "Invalid nonce: must be 32-byte array"
    else if ∀ key ∈ data.extensionStaticKey.arrayBytes, key.length < 32 then
      refuse "Invalid extensionStaticKey: must be at least 32-byte array"
    else
      let roomId := data.roomId.key
      let s := s.found x roomId data.metadata
      { s with
        roomMetadata := Function.update s.roomMetadata roomId (some data.metadata) }.enter x
          roomId data.roomId.joinKeys

/-- The revocation map after a look at `deviceId`, and the answer. -/
def isDeviceRevoked (s : Server) (deviceId : Key) (now : Nat) : Server × Bool :=
  match s.revokedDevices deviceId with
  | none => (s, false)
  | some expiry =>
    if expiry = 0 then (s, false)
    else if now > expiry then
      ({ s with revokedDevices := Function.update s.revokedDevices deviceId none }, false)
    else (s, true)

def addSocket (s : Server) (handshake : Handshake) : Server :=
  { s with sockets := s.sockets ++ [{ handshake }] }

/-- `io.on('connection')`. -/
def connection (s : Server) (handshake : Handshake) (now : Nat) : Server :=
  let x := s.sockets.length
  let s := s.addSocket handshake
  if handshake.deviceId.truthy then
    match s.isDeviceRevoked handshake.deviceId.key now with
    | (s, true) => (s.emit x (.error "Device revoked")).disconnect x
    | (s, false) => s
  else s

/-- `POST /revoke` once it is authorized. -/
def revoke (s : Server) (deviceId : Utf16) (now : Nat) : Server :=
  let s := { s with
    revokedDevices :=
      Function.update s.revokedDevices (.str deviceId) (some (now + revocationTtlMs)) }
  (List.range s.sockets.length).foldl (fun s x =>
    if s.isConnected x && (s.handshake x).deviceId = .str deviceId then
      (s.emit x (.error "Device revoked")).disconnect x
    else s) s

/-- The hourly cleanup of the revocation map. -/
def tick (s : Server) (now : Nat) : Server :=
  { s with
    revokedDevices := fun d =>
      match s.revokedDevices d with
      | none => none
      | some expiry => if now > expiry then none else some expiry }

/-- The callback of `scheduleCleanup`. -/
def cleanup (s : Server) (roomId : Key) : Server :=
  { s with
    rooms := Function.update s.rooms roomId none
    pendingCredentials := Function.update s.pendingCredentials roomId none
    roomMetadata := Function.update s.roomMetadata roomId none
    founding := Function.update s.founding roomId none }

/-- A relay handler: `socket.to(room).emit(kind, payload)`. -/
def relay (s : Server) (x : SocketId) (kind : RelayKind) (sasCode payload : JsVal) : Server :=
  match checkSas sasCode with
  | .throws => { s with crashed := true }
  | .invalid => s
  | .valid text =>
    let receivers := (s.members (roomOf text)).filter (· ≠ x)
    { s with
      sent := s.sent ++ receivers.map fun y => (y, .relay kind payload)
      history := s.history ++ [.relayed x (roomOf text) receivers] }

section Config

variable (cfg : Config)

def joinRoom (s : Server) (x : SocketId) (sasCode : JsVal) : Server :=
  match checkSas sasCode with
  | .throws => { s with crashed := true }
  | .invalid => s.emit x (.error "Invalid room code")
  | .valid text =>
    match s.roomMetadata (roomOf text) with
    | none => (s.emit x (.errorCode "room_not_ready")).disconnect x
    | some metadata =>
      let commitment := (s.handshake x).commitment
      if !commitment.truthy || !verifyCommitment cfg.sha256 metadata commitment then
        (s.emit x (.errorCode "invalid_commitment")).disconnect x
      else s.enter x (roomOf text) [roomOf text]

def generateTurnCredentials (roomId : Utf16) (now : Nat) : Option TurnCredentials :=
  cfg.secret.map fun secret =>
    let username := utf16 (toString (now / 1000 + turnCredentialTtl)) ++ utf16 ":" ++ roomId
    { username
      password := Utf16.ofChars (Base64.encode (cfg.hmacSha1 secret username))
      ttl := turnCredentialTtl
      urls := cfg.turnServers.map (utf16 "turn:" ++ ·)
      stunUrls := cfg.turnServers.map (utf16 "stun:" ++ ·) }

/-- `GET /turn-credentials` with a room id in its header. -/
def turnCredentials (s : Server) (roomId : Utf16) (now : Nat) : Server :=
  match generateTurnCredentials cfg roomId now with
  | none => s
  | some credentials =>
    { s with
      pendingCredentials :=
        Function.update s.pendingCredentials (.str roomId) (some credentials) }

inductive Event
  | connection (handshake : Handshake) (now : Nat)
  | message (socket : SocketId) (msg : ClientMessage)
  | disconnect (socket : SocketId)
  | timeout (roomId : Key)
  | turnCredentials (roomId : Utf16) (now : Nat)
  | revoke (deviceId : Utf16) (now : Nat)
  | tick (now : Nat)
  deriving DecidableEq, Repr

def receive (s : Server) (x : SocketId) : ClientMessage → Server
  | .registerRoom none => { s with crashed := true }
  | .registerRoom (some data) => s.registerRoom x data
  | .joinRoom sasCode => s.joinRoom cfg x sasCode
  | .relay kind sasCode payload => s.relay x kind sasCode payload

/-- One step of the server, or `none` where the event cannot happen. -/
def step (s : Server) (e : Event) : Option Server :=
  if s.crashed then none
  else
    match e with
    | .connection handshake now => some (s.connection handshake now)
    | .message x msg => if s.isConnected x then some (s.receive cfg x msg) else none
    | .disconnect x => if s.isConnected x then some (s.disconnect x) else none
    | .timeout roomId =>
      match s.rooms roomId with
      | some { timeout := true, .. } => some (s.cleanup roomId)
      | _ => none
    | .turnCredentials roomId now => some (s.turnCredentials cfg roomId now)
    | .revoke deviceId now => some (s.revoke deviceId now)
    | .tick now => some (s.tick now)

abbrev Run (s : Server) (es : List Event) (t : Server) : Prop := Machine.Run (step cfg) s es t

end Config

end Server

end SmartIdVault.Signaling
