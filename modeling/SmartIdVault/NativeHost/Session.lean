import SmartIdVault.Lib.Base64
import SmartIdVault.Lib.Machine
import SmartIdVault.NativeHost.Aoa
import SmartIdVault.NativeHost.Crypto

/-! The native host as a machine: the session of `main.go`, its message handlers, the hotplug
callback and the read loops of `readloop.go`.

The stdin goroutine runs one handler at a time.  A handler holds the session mutex from its first
step to its last, except that `rekey` drops it for the key exchange and `connect` for the
re-enumeration; so each stretch under the mutex is one step here, and every state of the machine is
a state in which the mutex is free.  A read loop takes the mutex twice in an iteration and does
everything else without it, so an iteration is several steps.  What the environment decides (the
enumerated devices, the outcome of a transfer, the key of an exchange) comes with the event.

Pointers are indices: `sessions` holds every crypto session that was ever established, `loops` every
read loop that was ever started, and a handle stands for an opened device together with the
`usbReadWriter` built on it. -/

namespace SmartIdVault.NativeHost

abbrev Handle := Nat
abbrev SessionId := Nat
abbrev LoopId := Nat

/-! ### Data -/

/-- The types of the messages that the host writes to the extension. -/
inductive MsgType
  | connectResult | sendResult | disconnectResult | rekeyResult
  | payloadReceived | usbConnected | usbDisconnected | error
  deriving DecidableEq, Repr

structure Message where
  type : MsgType
  data : List Char := []
  success : Option Bool := none
  error : String := ""
  deriving DecidableEq, Repr

inductive Source
  | stdin
  | hotplug
  | loop (i : LoopId)
  deriving DecidableEq, Repr

/-- A session key as `DeriveSessionKey` returns it. -/
abbrev SessionKey := { key : Bytes // key.length = sessionKeySize }

/-- How `PerformHostKeyExchange` ends; the device, X25519 and HKDF decide. -/
inductive Kex
  | failed (error : String)
  | established (key : SessionKey)
  deriving DecidableEq

/-- `crypto.Session`.  `keyBuf` is the array behind the slice `Key`, and `keyNil` says that the
slice itself has been set to nil. -/
structure CryptoSession where
  keyBuf : Bytes
  keyNil : Bool := false
  seq : SequenceTracker := {}
  deriving DecidableEq, Repr

namespace CryptoSession

def key (c : CryptoSession) : Option Bytes := if c.keyNil then none else some c.keyBuf

def mapSeq (f : SequenceTracker → SequenceTracker) (c : CryptoSession) : CryptoSession :=
  { c with seq := f c.seq }

/-- `ZeroKey` and the loop of `ZeroSessionKey`: the array is overwritten through a slice of it. -/
def zeroBuf (c : CryptoSession) : CryptoSession :=
  { c with keyBuf := List.replicate c.keyBuf.length 0 }

/-- `Session.Zero`: `ZeroSessionKey(&s.Key)` and `s.Seq.Reset()`. -/
def zero (c : CryptoSession) : CryptoSession :=
  let zeroed := if c.keyNil then c else { c.zeroBuf with keyNil := true }
  { zeroed with seq := c.seq.reset }

end CryptoSession

/-- What one iteration of `poll` copies out of the session under the mutex. -/
structure Snapshot where
  dev : Handle
  cs : Option SessionId
  sessionKey : Option Bytes
  seq : Option SequenceTracker
  deriving DecidableEq, Repr

/-- Where a read loop is. -/
inductive LoopPc
  -- at the `select` on `ctx.Done()`
  | top
  -- past the `select`, before the mutex
  | locking
  -- in `ReadBulk` on the device of the snapshot
  | reading (v : Snapshot)
  -- decrypted, before `cs.Seq.AdvanceInbound()`
  | advancing (cs : SessionId) (plaintext : Bytes)
  -- in `writer.Write`, from which the loop continues
  | writing (msg : Message)
  -- in the disconnect branch, before the mutex
  | dropping
  -- in the `writer.Write` of the disconnect branch, from which `poll` returns
  | leaving
  -- `poll` has returned
  | exited
  deriving DecidableEq, Repr

/-- A started read loop: whether `Stop` cancelled its context, and where it is. -/
structure ReadLoop where
  cancelled : Bool := false
  pc : LoopPc := .top
  deriving DecidableEq, Repr

/-- What the stdin goroutine is doing when the mutex is free. -/
inductive HandlerPc
  | idle
  -- `connect` sleeps while the device re-enumerates
  | reenumerating
  -- `rekey` is in the key exchange on `usbRW`; `got` is what its reads have received
  | exchanging (usbRW : Handle) (oldSession : SessionId) (got : Bytes)
  deriving DecidableEq, Repr

def HandlerPc.isExchanging : HandlerPc → Bool
  | .exchanging _ _ _ => true
  | _ => false

/-- One call of `gcm.Seal` by `Encrypt`, and whether the write of its packet returned no error. -/
structure Sealed where
  key : Bytes
  direction : UInt8
  seq : UInt64
  plaintext : Bytes
  written : Bool
  deriving DecidableEq, Repr

inductive Reader
  | loop (i : LoopId)
  | keyExchange
  | flush
  deriving DecidableEq, Repr

/-- A packet taken from the IN endpoint, with what held when it arrived: whether its reader had been
stopped and whether it was `session.readLoop`, and whether `rekey` was in its key exchange. -/
structure Taken where
  reader : Reader
  packet : Bytes
  stopped : Bool := false
  current : Bool := false
  exchanging : Bool := false
  deriving DecidableEq, Repr

/-- The session of `main.go`, the objects it points to, and the histories that the theorems speak
of: `established`, `sealed`, `taken` and `written` only grow, and no handler reads them. -/
structure Host where
  device : Option Handle := none
  usbRW : Option Handle := none
  connected : Bool := false
  cryptoSession : Option SessionId := none
  readLoop : Option LoopId := none
  handler : HandlerPc := .idle
  sessions : List CryptoSession := []
  loops : List ReadLoop := []
  handles : Nat := 0
  established : List Bytes := []
  sealed : List Sealed := []
  taken : List Taken := []
  written : List (Source × Message) := []
  deriving DecidableEq, Repr

namespace Host

/-! ### The session's own operations -/

def write (s : Host) (source : Source) (msg : Message) : Host :=
  { s with written := s.written ++ [(source, msg)] }

def logSealed (s : Host) (x : Sealed) : Host := { s with sealed := s.sealed ++ [x] }

def logTaken (s : Host) (x : Taken) : Host := { s with taken := s.taken ++ [x] }

def takenBy (s : Host) (i : LoopId) (l : ReadLoop) (packet : Bytes) : Taken where
  reader := .loop i
  packet := packet
  stopped := l.cancelled
  current := s.readLoop = some i
  exchanging := s.handler.isExchanging

/-- `ReadLoop.Stop`. -/
def stop (s : Host) (i : LoopId) : Host :=
  { s with loops := s.loops.modify i fun l => { l with cancelled := true } }

/-- `session.readLoop = startReadLoop(session, writer)`. -/
def startReadLoop (s : Host) : Host :=
  { s with loops := s.loops ++ [{}], readLoop := some s.loops.length }

/-- `if session.readLoop != nil { session.readLoop.Stop(); session.readLoop = nil }`. -/
def stopReadLoop (s : Host) : Host :=
  match s.readLoop with
  | none => s
  | some i => { s.stop i with readLoop := none }

def newSession (s : Host) (key : SessionKey) : Host :=
  { s with
    sessions := s.sessions ++ [{ keyBuf := key.1 }]
    established := s.established ++ [key.1] }

def modifySession (s : Host) (i : SessionId) (f : CryptoSession → CryptoSession) : Host :=
  { s with sessions := s.sessions.modify i f }

def modifySeq (s : Host) (i : SessionId) (f : SequenceTracker → SequenceTracker) : Host :=
  s.modifySession i (CryptoSession.mapSeq f)

def zeroCryptoSession (s : Host) : Host :=
  match s.cryptoSession with
  | none => s
  | some i => { s.modifySession i CryptoSession.zero with cryptoSession := none }

/-- `Session.closeLocked`. -/
def closeLocked (s : Host) : Host :=
  { s.stopReadLoop.zeroCryptoSession with device := none, usbRW := none, connected := false }

/-! ### Message handlers (`registerHandlers`) -/

def result (type : MsgType) (success : Bool) (error : String) : Message :=
  { type, success := some success, error }

/-- `connect` from `OpenAoaDevice` on. -/
def connectOpen (s : Host) (opened : Except String Unit) (kex : Kex) : Host :=
  match opened with
  | .error e => s.write .stdin (result .connectResult false s!"open accessory device: {e}")
  | .ok () =>
    let s := { s with handles := s.handles + 1 }
    match kex with
    | .failed e =>
      { s with device := none, connected := false, usbRW := none }.write .stdin
        (result .connectResult false s!"key exchange failed: {e}")
    | .established key =>
      let handle := s.handles - 1
      let s := { s with device := some handle, usbRW := some handle, connected := true }
      let s := { s.newSession key with cryptoSession := some s.sessions.length }
      (s.startReadLoop.write .stdin { type := .usbConnected }).write .stdin
        (result .connectResult true "")

/-- `connect` up to the open, or to the sleep when the device is not in accessory mode. -/
def connect (s : Host) (enumerated : Except String (List UsbDevice))
    (negotiated : Except String Unit) (opened : Except String Unit) (kex : Kex) : Host :=
  if s.connected then s.write .stdin (result .connectResult true "")
  else
    match enumerated with
    | .error e => s.write .stdin (result .connectResult false s!"device discovery failed: {e}")
    | .ok devs =>
      match findAccessoryDevice devs "" with
      | none => s.write .stdin (result .connectResult false "no accessory device found")
      | some discovered =>
        if discovered.isAccessory then s.connectOpen opened kex
        else
          match negotiated with
          | .error e =>
            s.write .stdin (result .connectResult false s!"AOA negotiation failed: {e}")
          | .ok () => { s with handler := .reenumerating }

/-- `connect` after the sleep. -/
def connectResume (s : Host) (enumerated : Except String (List UsbDevice))
    (opened : Except String Unit) (kex : Kex) : Host :=
  let s := { s with handler := .idle }
  match enumerated with
  | .error _ =>
    s.write .stdin (result .connectResult false "device did not re-enumerate as accessory")
  | .ok devs =>
    match findAccessoryDevice devs "" with
    | none =>
      s.write .stdin (result .connectResult false "device did not re-enumerate as accessory")
    | some _ => s.connectOpen opened kex

/-- Go's `base64.StdEncoding.DecodeString`, which skips line breaks. -/
def decodeString (data : List Char) : Option Bytes :=
  Base64.decode (data.filter fun c => c ≠ '\r' ∧ c ≠ '\n')

section Gcm

variable (gcm : Gcm)

/-- `send-payload` once the session, its key and the plaintext are there. -/
def sealAndWrite (s : Host) (i : SessionId) (cs : CryptoSession) (key plaintext : Bytes)
    (usb : UsbWrite) : Host :=
  let seq := cs.seq.nextOutbound.1
  let s := s.modifySeq i (·.nextOutbound.2)
  match encrypt gcm key plaintext seq with
  | .error e => s.write .stdin (result .sendResult false s!"encrypt failed: {e}")
  | .ok ciphertext =>
    match writeBulk ciphertext usb with
    | .error e =>
      let s := s.logSealed ⟨key, directionHostToDevice, seq, plaintext, false⟩
      (s.modifySeq i (·.revertOutbound seq)).write .stdin
        (result .sendResult false s!"USB write failed: {e}")
    | .ok () =>
      (s.logSealed ⟨key, directionHostToDevice, seq, plaintext, true⟩).write .stdin
        (result .sendResult true "")

def sendPayload (s : Host) (data : List Char) (usb : UsbWrite) : Host :=
  if !s.connected || s.device.isNone then
    s.write .stdin (result .sendResult false "not connected")
  else
    match s.cryptoSession.bind fun i => s.sessions[i]?.map (i, ·) with
    | none => s.write .stdin (result .sendResult false "no session key")
    | some (i, cs) =>
      match cs.key with
      | none => s.write .stdin (result .sendResult false "no session key")
      | some key =>
        match decodeString data with
        | none => s.write .stdin (result .sendResult false "invalid base64 data")
        | some plaintext => s.sealAndWrite gcm i cs key plaintext usb

/-- `rekey` up to the point where it drops the mutex for the exchange. -/
def rekeyBegin (s : Host) : Host :=
  match s.cryptoSession with
  | none => s.write .stdin (result .rekeyResult false "no active session")
  | some old =>
    match s.device, s.usbRW with
    | some _, some rw => { s.stopReadLoop with handler := .exchanging rw old [] }
    | _, _ => s.write .stdin (result .rekeyResult false "device not available")

/-- `flushUsbEndpoint`: one short read that may take a packet. -/
def flushUsbEndpoint (s : Host) (flushed : Option Bytes) : Host :=
  match flushed with
  | none => s
  | some packet => s.logTaken { reader := .flush, packet }

/-- `rekey` from the point where it takes the mutex again; `usbRW` and `old` are what it captured
before the exchange. -/
def rekeyFinish (s : Host) (usbRW : Handle) (old : SessionId) (kex : Kex)
    (flushed : Option Bytes) : Host :=
  let s := { s with handler := .idle }
  match kex with
  | .failed e =>
    let s :=
      if s.usbRW = some usbRW ∧ s.device.isSome then (s.flushUsbEndpoint flushed).startReadLoop
      else s
    s.write .stdin (result .rekeyResult false s!"rekey failed: {e}")
  | .established key =>
    let fresh := s.sessions.length
    let s := s.newSession key
    if s.usbRW ≠ some usbRW then
      (s.modifySession fresh CryptoSession.zero).startReadLoop.write .stdin
        (result .rekeyResult false "device changed during rekey")
    else
      -- `oldKey` is a slice of the old key's array, so the array is zeroed and `Key` stays non-nil
      let s := { s with cryptoSession := some fresh }
      let s := s.modifySession old fun c =>
        { (if c.keyNil then c else c.zeroBuf) with seq := c.seq.reset }
      s.startReadLoop.write .stdin (result .rekeyResult true "")

/-! ### Read loops (`ReadLoop.poll`) -/

/-- The copy of the session that an iteration works on, and where it goes from there. -/
def snapshot (s : Host) : LoopPc :=
  match s.device with
  | none => .top
  | some dev =>
    let cs := s.cryptoSession.bind fun i => s.sessions[i]?
    .reading ⟨dev, s.cryptoSession, cs.bind (·.key), cs.map (·.seq.clone)⟩

/-- What `poll` does with a received packet. -/
def afterRead (v : Snapshot) (packet : Bytes) : LoopPc :=
  if packet = [] then .top
  else
    match v.cs, v.sessionKey, v.seq with
    | some cs, some sessionKey, some seq =>
      match decrypt gcm sessionKey packet seq.expectedInbound with
      | .error (.decryptError .sequenceGap _) =>
        .writing (result .rekeyResult false "sequence gap detected, rekey required")
      | .error e => .writing { type := .error, error := s!"decrypt error: {e.text}" }
      | .ok (plaintext, _) => .advancing cs plaintext
    | _, _, _ =>
      .writing { type := .error, error := "received data but no session key established" }

def setPc (s : Host) (i : LoopId) (pc : LoopPc) : Host :=
  { s with loops := s.loops.modify i fun l => { l with pc } }

inductive LoopAction
  -- the `select` on `ctx.Done()`
  | poll
  -- the copy of the session under the mutex
  | snapshot
  -- the end of `ReadBulk`
  | read (r : UsbRead)
  -- `cs.Seq.AdvanceInbound()`
  | advance
  -- the critical section of the disconnect branch
  | drop
  -- the end of `writer.Write`, with or without an error
  | write (ok : Bool)
  deriving DecidableEq, Repr

def loopStep (s : Host) (i : LoopId) (a : LoopAction) : Option Host :=
  match s.loops[i]? with
  | none => none
  | some l =>
    match l.pc, a with
    | .top, .poll => some (s.setPc i (if l.cancelled then .exited else .locking))
    | .locking, .snapshot => some (s.setPc i s.snapshot)
    | .reading v, .read r =>
      match r with
      | .data packet =>
        some ((s.logTaken (s.takenBy i l packet)).setPc i (afterRead gcm v packet))
      | .timeout | .permanent _ => some (s.setPc i .top)
      | .disconnect => some (s.setPc i .dropping)
    | .advancing cs plaintext, .advance =>
      some ((s.modifySeq cs SequenceTracker.advanceInbound).setPc i
        (.writing { type := .payloadReceived, data := Base64.encode plaintext }))
    | .dropping, .drop => some ({ s with connected := false, device := none }.setPc i .leaving)
    | .leaving, .write ok =>
      some ((if ok then s.write (.loop i) { type := .usbDisconnected } else s).setPc i .exited)
    | .writing msg, .write ok =>
      some (if ok then (s.write (.loop i) msg).setPc i .top else s.setPc i .exited)
    | _, _ => none

/-! ### The machine -/

inductive Event
  | connect (enumerated : Except String (List UsbDevice)) (negotiated : Except String Unit)
      (opened : Except String Unit) (kex : Kex)
  | connectResume (enumerated : Except String (List UsbDevice)) (opened : Except String Unit)
      (kex : Kex)
  | sendPayload (data : List Char) (usb : UsbWrite)
  | disconnect
  | rekeyBegin
  -- a packet given to a read of the key exchange
  | kexRead (packet : Bytes)
  | rekeyFinish (kex : Kex) (flushed : Option Bytes)
  -- the hotplug callback's `session.Close()`
  | hotplugClose
  | loop (i : LoopId) (a : LoopAction)

/-- One step of the host, or `none` where the event cannot happen. -/
def step (s : Host) : Event → Option Host
  | .connect enumerated negotiated opened kex =>
    if s.handler = .idle then some (s.connect enumerated negotiated opened kex) else none
  | .connectResume enumerated opened kex =>
    if s.handler = .reenumerating then some (s.connectResume enumerated opened kex) else none
  | .sendPayload data usb =>
    if s.handler = .idle then some (s.sendPayload gcm data usb) else none
  | .disconnect =>
    if s.handler = .idle then
      some (s.closeLocked.write .stdin (result .disconnectResult true ""))
    else none
  | .rekeyBegin => if s.handler = .idle then some s.rekeyBegin else none
  | .kexRead packet =>
    match s.handler with
    | .exchanging rw old got =>
      some { s.logTaken { reader := .keyExchange, packet, exchanging := true } with
        handler := .exchanging rw old (got ++ packet) }
    | _ => none
  | .rekeyFinish kex flushed =>
    match s.handler with
    | .exchanging rw old _ => some (s.rekeyFinish rw old kex flushed)
    | _ => none
  | .hotplugClose => some (s.closeLocked.write .hotplug { type := .usbDisconnected })
  | .loop i a => s.loopStep gcm i a

abbrev Run (s : Host) (es : List Event) (t : Host) : Prop := Machine.Run (step gcm) s es t

end Gcm

end Host

end SmartIdVault.NativeHost
