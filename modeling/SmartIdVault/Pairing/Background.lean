import Mathlib.Logic.Function.Basic
import SmartIdVault.Command.Sending
import SmartIdVault.Lib.Machine

/-! The pairing of a phone as the background worker runs it: `pairingService.ts`,
`pairingCoordinator.ts`, and the handlers of `messageHandlers.ts` that send commands.  A call runs
up to its next `await` and leaves a task behind; the answer that it waits for, of the browser, the
device registry or the peer, resumes it in a later step.  The command clients make the steps of
`Command.Client`, also those that have been replaced; they share the counters in storage and send
under whatever session there is. -/

namespace SmartIdVault.Pairing

structure PairingSession where
  sasCode : Utf16
  nonce : Bytes
  localStaticKey : NoiseKeyPair
  deriving DecidableEq

/-- The payload of `webrtc-start-pairing`, which the offscreen document passes to
`connectSignaling`. -/
structure StartMessage where
  sasCode : Utf16
  nonce : Bytes
  extensionStaticKey : Bytes
  deriving DecidableEq, Repr

inductive StartReply
  | success (publicKey : Bytes)
  | failure (error : String)
  deriving DecidableEq, Repr

inductive Message
  | command (cmd : ControlCommand)
  | pairingConfirmed (caps : Option ProtocolCapabilities)
  deriving DecidableEq, Repr

/-- What a history tells: `startPairing` sent its message or replied, `startPairingFlow` installed a
session, a `confirmSasMatch` returned true for the key that was pending when it was called,
`rejectSasMatch` rejected a session, a message was encrypted. -/
inductive Entry
  | startMessage (message : StartMessage)
  | startReply (reply : StartReply)
  | installed (session : NoiseSession)
  | confirmed (remoteStaticPk : Bytes)
  | rejected (transport : Nat)
  | encrypted (session : NoiseSession) (message : Message)
  deriving DecidableEq

/-- Where an asynchronous call waits.  The tasks of `confirmSasMatch` keep the key that was pending
when it was called. -/
inductive Task
  -- `startPairing`: the offscreen document, the answer to its message
  | startOffscreen (pairing : PairingSession)
  | startSend (pairing : PairingSession)
  -- `performXXHandshake`: the flag, the peer's message, the emoji, their storage
  | flowFlag (localKey : NoiseKeyPair)
  | flowPeer (localKey : NoiseKeyPair)
  | flowSas (session : NoiseSession)
  | flowStore (session : NoiseSession)
  -- `clearPairing`: the storage, the offscreen document
  | clearStorage
  | clearOffscreen
  -- `confirmSasMatch`: its calls in their order
  | confirmDevice (remoteStaticPk : Bytes)
  | confirmRoom (remoteStaticPk : Bytes)
  | confirmCache (remoteStaticPk : Bytes) (cached : CachedPairing)
  | confirmCount (remoteStaticPk : Bytes)
  | confirmAdd (remoteStaticPk : Bytes)
  | confirmActivate (remoteStaticPk : Bytes)
  | confirmEmoji (remoteStaticPk : Bytes)
  | confirmTab (remoteStaticPk : Bytes)
  | confirmFallback (remoteStaticPk : Bytes)
  -- `rejectSasMatch`: the storage of the emoji
  | rejectEmoji
  deriving DecidableEq

/-- What the peer's handshake message leads to. -/
inductive PeerResult
  | failed
  | incomplete (remoteCaps : Option ProtocolCapabilities)
  | completed (remoteStaticPk : Bytes) (remoteCaps : Option ProtocolCapabilities)
  deriving DecidableEq, Repr

/-- The answer that a task gets: a value or true, false or undefined, a rejection, or what comes of
the peer's message. -/
inductive Answer
  | ok
  | no
  | rejects (message : String)
  | peer (result : PeerResult)
  deriving DecidableEq, Repr

/-- A command client, with the payloads of its calls. -/
structure CommandClient where
  client : Command.Client := {}
  payloads : Nat → Option Payload := fun _ => none

/-- What call `i` of a client sends; a call without a command is a heartbeat ping, with the
time of `performance.now()`. -/
def CommandClient.message (c : CommandClient) (i now : Nat) : Option ControlCommand :=
  c.client.calls[i]?.bind fun call =>
    match call.sequence, call.command with
    | some sequence, some command =>
      (c.payloads i).map fun payload => ⟨sequence, command, payload⟩
    | some sequence, none => some ⟨sequence, .ping, .ping now⟩
    | none, _ => none

/-- The module-level variables of the worker and its session storage, with the two counters of the
command clients.  `transports` counts the completed handshakes; no handler reads the history. -/
structure Background where
  activeSession : Option PairingSession := none
  cachedPairing : Option CachedPairing := none
  clientReady : Bool := false
  currentSession : Option NoiseSession := none
  commandClient : Option Nat := none
  clients : List CommandClient := []
  pendingRemoteStaticPk : Option Bytes := none
  negotiatedCaps : Option ProtocolCapabilities := none
  tasks : List Task := []
  transports : Nat := 0
  storedSequence : Nat := 0
  storedCount : Nat := 0
  limiter : String → Option Nat := fun _ => none
  history : List Entry := []

/-- The messages that make the worker send a command. -/
inductive Request
  | verifyTransaction (amount recipient : String)
  | credentialRequest (domain url usernameFieldId passwordFieldId : String)
  | detectLoginForm (domain url usernameSelector passwordSelector : String) (tabId : Option Nat)
  deriving DecidableEq, Repr

inductive Reply
  | failure (error : String)
  | rateLimited
  | notReady
  | waiting (call : Nat)
  deriving DecidableEq, Repr

inductive Event
  | startPairing (sasCode : Utf16) (nonce : Bytes) (localStaticKey : NoiseKeyPair)
  | startPairingFlow (localKey : NoiseKeyPair)
  | confirmSasMatch
  | rejectSasMatch
  | disconnectSession
  | clearPendingRemoteKey
  | resume (task : Nat) (answer : Answer)
  | request (r : Request) (now : Nat)
  | client (k : Nat) (e : Command.Event) (now : Nat)
  | capabilities (remoteCaps : ProtocolCapabilities)
  | response (sequence : Nat) (status : ResponseStatus)
  deriving DecidableEq

def credentialRateLimitMs : Nat := 30000

namespace Background

def push (s : Background) (task : Task) : Background := { s with tasks := s.tasks ++ [task] }

def log (s : Background) (entry : Entry) : Background := { s with history := s.history ++ [entry] }

/-! ### `pairingService.ts` -/

/-- `startPairing` up to the wait for the offscreen document. -/
def startPairing (s : Background) (sasCode : Utf16) (nonce : Bytes)
    (localStaticKey : NoiseKeyPair) : Background :=
  if s.activeSession.isSome then
    s.log (.startReply (.failure "Pairing session already in progress"))
  else
    let pairing := ⟨sasCode, nonce, localStaticKey⟩
    push { s with activeSession := some pairing } (.startOffscreen pairing)

/-- `completePairing` up to its write, called by a `confirmSasMatch` for `remoteStaticPk`; it throws
without an active pairing and without a pending key. -/
def completePairing (s : Background) (remoteStaticPk : Bytes) : Background :=
  match s.activeSession, s.pendingRemoteStaticPk with
  | some active, some pending =>
    s.push (.confirmCache remoteStaticPk (toCachedPairing active.localStaticKey pending))
  | _, _ => s

/-- `clearPairing` up to its first wait. -/
def clearPairing (s : Background) : Background := s.push .clearStorage

/-- `getCachedPairing`: the local key, public and secret, and the phone's key. -/
def getCachedPairing (s : Background) : Option ((Bytes × Bytes) × Bytes) :=
  s.cachedPairing.map fun cached =>
    (keyFromBytes cached.localStaticKey, cached.remoteStaticPublicKey)

/-! ### `pairingCoordinator.ts` -/

def encrypt (s : Background) (session : NoiseSession) (message : Message) : Background :=
  s.log (.encrypted session message)

/-- The sender of every command client: it encrypts under the session of the moment. -/
def sendData (s : Background) (cmd : ControlCommand) : Background :=
  match s.currentSession with
  | none => s
  | some session => s.encrypt session (.command cmd)

/-- `startPairingFlow` and `performXXHandshake` up to the write of the flag. -/
def startPairingFlow (s : Background) (localKey : NoiseKeyPair) : Background :=
  push { s with
    commandClient := some s.clients.length
    clients := s.clients ++ [({} : CommandClient)] } (.flowFlag localKey)

/-- What `performXXHandshake` negotiates from the offer in the peer's message. -/
def negotiate : Option ProtocolCapabilities → ProtocolCapabilities
  | some remoteCaps => intersectCapabilities localCapabilities remoteCaps
  | none => ⟨2, [], []⟩

/-- `performXXHandshake` from the peer's message on. -/
def receivePeer (s : Background) (localKey : NoiseKeyPair) : PeerResult → Background
  | .failed => s.clearPairing
  | .incomplete remoteCaps => clearPairing { s with negotiatedCaps := some (negotiate remoteCaps) }
  | .completed remoteStaticPk remoteCaps =>
    push { s with
      negotiatedCaps := some (negotiate remoteCaps)
      transports := s.transports + 1 }
      (.flowSas ⟨s.transports, localKey, remoteStaticPk, remoteCaps⟩)

def disconnectSession (s : Background) : Background :=
  { s with currentSession := none, negotiatedCaps := none }

/-- `confirmSasMatch` up to the lookup of the device. -/
def confirmSasMatch (s : Background) : Background :=
  match s.pendingRemoteStaticPk with
  | none => s
  | some remoteStaticPk => s.push (.confirmDevice remoteStaticPk)

def clearPendingRemoteKey (s : Background) : Background := { s with pendingRemoteStaticPk := none }

/-- `confirmSasMatch` once the device is registered: without a session it returns true. -/
def registered (s : Background) (remoteStaticPk : Bytes) : Background :=
  if s.currentSession.isSome then s.push (.confirmEmoji remoteStaticPk)
  else s.clearPendingRemoteKey.log (.confirmed remoteStaticPk)

/-- The notice of `confirmSasMatch` to the peer. -/
def notify (s : Background) : Background :=
  match s.commandClient, s.currentSession with
  | some _, some session => s.encrypt session (.pairingConfirmed s.negotiatedCaps)
  | _, _ => s

end Background

/-- The session that a task is about to install. -/
def Task.installs : Task → Option NoiseSession
  | .flowStore session => some session
  | _ => none

namespace Background

/-- `rejectSasMatch` up to its first wait.  It is the current session that is rejected, and one that
is about to take its place. -/
def rejectSasMatch (s : Background) : Background :=
  let sessions := s.currentSession.toList ++ s.tasks.filterMap Task.installs
  push { s with
    pendingRemoteStaticPk := none
    negotiatedCaps := none
    history := s.history ++ sessions.map fun session => Entry.rejected session.transport }
    .rejectEmoji

/-- A task goes on to its next wait or to its end; `none` for an answer that it cannot get. -/
def resume (s : Background) : Task → Answer → Option Background
  | .startOffscreen p, .ok =>
    some ((s.log (.startMessage ⟨p.sasCode, p.nonce, p.localStaticKey.publicKey⟩)).push
      (.startSend p))
  | .startOffscreen _, .no =>
    some (log { s with activeSession := none }
      (.startReply (.failure "Failed to create WebRTC offscreen document")))
  | .startSend p, .ok => some (s.log (.startReply (.success p.localStaticKey.publicKey)))
  | .startSend _, .rejects message =>
    some (log { s with activeSession := none } (.startReply (.failure message)))
  | .flowFlag localKey, .ok => some (push { s with clientReady := true } (.flowPeer localKey))
  | .flowPeer localKey, .peer result => some (s.receivePeer localKey result)
  | .flowSas session, .ok =>
    some (push { s with pendingRemoteStaticPk := some session.remoteStaticPublicKey }
      (.flowStore session))
  | .flowStore session, .ok =>
    some (log { s with currentSession := some session } (.installed session))
  | .flowFlag _, .rejects _ | .flowSas _, .rejects _ | .flowStore _, .rejects _ =>
    some s.clearPairing
  | .clearStorage, .ok =>
    some (push { s with cachedPairing := none, clientReady := false } .clearOffscreen)
  | .clearOffscreen, .ok => some { s with activeSession := none }
  | .confirmDevice pk, .ok => some (s.completePairing pk)
  | .confirmDevice pk, .no => some (s.push (.confirmRoom pk))
  | .confirmRoom pk, .ok => some (s.completePairing pk)
  | .confirmRoom _, .no => some s
  | .confirmCache pk cached, .ok =>
    some (push { s with cachedPairing := some cached, clientReady := true, activeSession := none }
      (.confirmCount pk))
  | .confirmCount pk, .ok => some (s.push (.confirmAdd pk))
  | .confirmAdd pk, .ok => some (s.push (.confirmActivate pk))
  | .confirmAdd _, .rejects _ => some s.clearPairing
  | .confirmActivate pk, .ok => some (s.registered pk)
  | .confirmEmoji pk, .ok => some (s.notify.push (.confirmTab pk))
  | .confirmTab pk, .ok => some (s.log (.confirmed pk))
  | .confirmTab pk, .rejects _ => some (s.push (.confirmFallback pk))
  | .confirmFallback pk, .ok => some (s.clearPendingRemoteKey.log (.confirmed pk))
  | .rejectEmoji, .ok => some s.clearPairing
  -- a rejection ends the call: `confirmSasMatch` returns false
  | .clearStorage, .rejects _ | .clearOffscreen, .rejects _ | .rejectEmoji, .rejects _
  | .confirmDevice _, .rejects _ | .confirmRoom _, .rejects _ | .confirmCache .., .rejects _
  | .confirmCount _, .rejects _ | .confirmActivate _, .rejects _ | .confirmEmoji _, .rejects _ =>
    some s
  | _, _ => none

/-! ### The handlers -/

/-- A client as it finds the counters in storage. -/
def load (s : Background) (c : CommandClient) : Command.Client :=
  { c.client with storedSequence := s.storedSequence, storedCount := s.storedCount }

/-- `sendCommand` of a client, up to its waits for storage. -/
def sendCommand (s : Background) (client : Nat) (command : CommandType) (payload : Payload) :
    Background × Reply :=
  let call := (s.clients[client]?.map (·.client.calls.length)).getD 0
  ({ s with clients := s.clients.modify client fun c => {
      client := c.client.start { command := some command, pc := .guarding }
      payloads := Function.update c.payloads call (some payload) } }, .waiting call)

/-- `allow` of `createDomainRateLimiter`. -/
def allow (windowMs : Nat) (entries : String → Option Nat) (domain : String) (now : Nat) :
    (String → Option Nat) × Bool :=
  match entries domain with
  | some (last + 1) =>
    if now - (last + 1) < windowMs then (entries, false)
    else (evict (Function.update entries domain (some now)), true)
  | _ => (evict (Function.update entries domain (some now)), true)
where
  evict (entries : String → Option Nat) : String → Option Nat := fun key =>
    (entries key).filter fun ts => ¬now - ts > windowMs * 2

def verifyTransaction (s : Background) (amount recipient : String) (now : Nat) :
    Background × Reply :=
  if amount = "" ∧ recipient = "" then (s, .failure "No transaction data to verify")
  else if !s.clientReady then
    (s, .failure "Command client not initialized. Pair with your phone first.")
  else
    match s.commandClient with
    | none => (s, .failure "Command client not ready")
    | some client =>
      s.sendCommand client .authenticateTransaction (.transaction amount recipient now)

def credentialRequest (s : Background) (domain url usernameFieldId passwordFieldId : String)
    (now : Nat) : Background × Reply :=
  if domain = "" ∨ url = "" then (s, .failure "Missing domain or URL in credential request")
  else
    let (limiter, allowed) := allow credentialRateLimitMs s.limiter domain now
    let s := { s with limiter }
    if !allowed then (s, .failure "Rate limited. Try again later.")
    else
      match s.commandClient with
      | none => (s, .failure "Command client not connected")
      | some client =>
        s.sendCommand client .credentialRequest
          (.credential domain url usernameFieldId passwordFieldId)

def detectLoginForm (s : Background) (domain url usernameSelector passwordSelector : String)
    (tabId : Option Nat) (now : Nat) : Background × Reply :=
  if domain = "" ∨ usernameSelector = "" ∨ passwordSelector = "" then
    (s, .failure "Incomplete login form detection data")
  else if tabId.getD 0 = 0 then (s, .failure "No sender tab")
  else
    let (limiter, allowed) := allow credentialRateLimitMs s.limiter domain now
    let s := { s with limiter }
    if !allowed then (s, .rateLimited)
    else
      match s.commandClient with
      | none => (s, .notReady)
      | some client =>
        s.sendCommand client .credentialRequest
          (.credential domain url usernameSelector passwordSelector)

def handle (s : Background) (now : Nat) : Request → Background × Reply
  | .verifyTransaction amount recipient => s.verifyTransaction amount recipient now
  | .credentialRequest domain url usernameFieldId passwordFieldId =>
    s.credentialRequest domain url usernameFieldId passwordFieldId now
  | .detectLoginForm domain url usernameSelector passwordSelector tabId =>
    s.detectLoginForm domain url usernameSelector passwordSelector tabId now

/-! ### Steps -/

/-- A step of client `k`: what it sends goes out under the session of the moment. -/
def clientStep (s : Background) (k : Nat) (e : Command.Event) (now : Nat) : Option Background :=
  s.clients[k]?.bind fun c =>
    ((s.load c).step e).map fun client =>
      let c := { c with client }
      let s := { s with
        clients := s.clients.set k c
        storedSequence := client.storedSequence
        storedCount := client.storedCount }
      match (client.sends e).bind fun i => c.message i now with
      | none => s
      | some cmd => s.sendData cmd

def receiveCapabilities (s : Background) (remoteCaps : ProtocolCapabilities) : Background :=
  { s with
    negotiatedCaps := some (intersectCapabilities localCapabilities remoteCaps)
    currentSession := s.currentSession.map fun session =>
      { session with remoteCapabilities := some remoteCaps } }

/-- One step of the worker, or `none` where the event cannot happen. -/
def step (s : Background) : Event → Option Background
  | .startPairing sasCode nonce localStaticKey =>
    some (s.startPairing sasCode nonce localStaticKey)
  | .startPairingFlow localKey => some (s.startPairingFlow localKey)
  | .confirmSasMatch => some s.confirmSasMatch
  | .rejectSasMatch => some s.rejectSasMatch
  | .disconnectSession => some s.disconnectSession
  | .clearPendingRemoteKey => some s.clearPendingRemoteKey
  | .resume i answer =>
    s.tasks[i]?.bind fun task => resume { s with tasks := s.tasks.eraseIdx i } task answer
  | .request r now => some (s.handle now r).1
  | .client k e now => if e.isOwn then s.clientStep k e now else none
  | .capabilities remoteCaps => some (s.receiveCapabilities remoteCaps)
  | .response sequence status =>
    match s.currentSession, s.commandClient with
    | some _, some client =>
      some { s with clients := s.clients.modify client fun c =>
        { c with client := c.client.handleIncomingResponse sequence status } }
    | _, _ => none

abbrev Run (s : Background) (es : List Event) (t : Background) : Prop := Machine.Run step s es t

end Background

end SmartIdVault.Pairing
