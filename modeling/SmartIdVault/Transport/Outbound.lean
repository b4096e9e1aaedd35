import SmartIdVault.Transport.WebRtc

/-! Bytes on their way out.  `WebRtcTransport` runs in the background and asks two things of the
other contexts by runtime messages: the connection state, which the background alone answers, and
that bytes be sent, which the offscreen document does without an answer.  A message does not come
back to the context it is from, so that neither request of the background is ever answered. -/

namespace SmartIdVault.Transport

/-- The contexts of the extension that have listeners for runtime messages. -/
inductive Context where
  | background | offscreen | popup
  deriving DecidableEq, Repr

/-- `payload.data` of `webrtc-send`: base64 from `WebRtcTransport`, numbers from `UsbTransport`. -/
inductive SendData where
  | text (base64 : List Char)
  | numbers (data : List Nat)
  deriving DecidableEq, Repr

inductive Message where
  | getConnectionState
  | webrtcSend (data : SendData)
  deriving DecidableEq, Repr

def Message.type : Message → String
  | .getConnectionState => "get-connection-state"
  | .webrtcSend _ => "webrtc-send"

/-! ### The offscreen document -/

inductive Direction where
  | input | output
  deriving DecidableEq, Repr

structure Endpoint where
  endpointNumber : Nat
  direction : Direction
  deriving DecidableEq, Repr

/-- A USB device: its interfaces have alternates, and these endpoints. -/
structure UsbDevice where
  opened : Bool
  interfaces : List (List (List Endpoint)) := []
  deriving DecidableEq, Repr

def findUsbOutputEndpoint (device : UsbDevice) : Option Endpoint :=
  device.interfaces.flatten.flatten.find? (·.direction = .output)

/-- `readyState` of a data channel. -/
inductive ReadyState where
  | connecting | opened | closing | closed
  deriving DecidableEq, Repr

/-- The variables of the offscreen document that `webrtc-send` reads. -/
structure Offscreen where
  usbDevice : Option UsbDevice := none
  dataChannel : Option ReadyState := none
  backpressureQueue : Bool := false
  deriving DecidableEq, Repr

/-- What takes the bytes: the endpoint of a USB device, the queue or the data channel. -/
inductive Sink where
  | usb (endpointNumber : Nat)
  | backpressureQueue
  | dataChannel
  deriving DecidableEq, Repr

namespace Offscreen

def usbOpened (o : Offscreen) : Option UsbDevice := o.usbDevice.filter (·.opened)

/-- `sendViaUsb`: the transfer it makes. -/
def sendViaUsb (device : UsbDevice) (data : Bytes) : Option (Sink × Bytes) :=
  (findUsbOutputEndpoint device).map fun endpoint => (.usb endpoint.endpointNumber, data)

/-- `sendData`: what it writes to the channel. -/
def sendData (o : Offscreen) (data : Bytes) : Option (Sink × Bytes) :=
  if o.dataChannel = some .opened then some (.dataChannel, data) else none

/-- The bytes of the payload.  An empty text is falsy, and `atob` throws at a text that is not
base64. -/
def decodeData : SendData → Option Bytes
  | .text base64 => if base64 = [] then none else Base64.atob base64
  | .numbers data => some (uint8Array data)

/-- The `webrtc-send` case: what it hands on, and to whom. -/
def webrtcSend (o : Offscreen) (raw : SendData) : Option (Sink × Bytes) := do
  let data ← decodeData raw
  match o.usbOpened with
  | some device => sendViaUsb device data
  | none =>
    if o.dataChannel.isSome && o.backpressureQueue then some (.backpressureQueue, data)
    else o.sendData data

/-- What takes the bytes in this state, if anything does. -/
def sink (o : Offscreen) : Option Sink :=
  match o.usbOpened with
  | some device => (findUsbOutputEndpoint device).map (.usb ·.endpointNumber)
  | none =>
    if o.dataChannel.isSome && o.backpressureQueue then some .backpressureQueue
    else if o.dataChannel = some .opened then some .dataChannel
    else none

theorem webrtcSend_eq (o : Offscreen) (raw : SendData) :
    o.webrtcSend raw = (decodeData raw).bind fun data => o.sink.map (·, data) := by
  cases hd : decodeData raw with
  | none => simp [webrtcSend, hd]
  | some data =>
    simp only [webrtcSend, hd, sink, sendViaUsb, sendData, Option.bind_eq_bind, Option.bind_some]
    cases o.usbOpened with
    | some device => simp [Function.comp_def]
    | none =>
      simp only [apply_ite (Option.map (·, data)), Option.map_some, Option.map_none]

end Offscreen

/-! ### The contexts together -/

/-- The background's connection state, its transport, the offscreen document if there is one, and
whether the popup is open. -/
structure Extension (γ : Type) where
  connectionState : ConnectionState := .disconnected
  transport : WebRtcTransport γ := {}
  offscreen : Option Offscreen := none
  popup : Bool := false

namespace Extension

variable {γ : Type}

/-- The contexts that exist. -/
def contexts (s : Extension γ) : List Context :=
  .background :: ((if s.offscreen.isSome then [.offscreen] else []) ++
    if s.popup then [.popup] else [])

/-- The answer of a context's listeners.  `registerMessageHandlers` answers every message, and has
no handler for `webrtc-send`; the listeners of the other two answer neither message. -/
def reply (s : Extension γ) : Context → Message → Option MessageResponse
  | .background, .getConnectionState =>
    some { success := true, connectionState := some s.connectionState }
  | .background, .webrtcSend data =>
    some { success := false,
           error := some ("Unknown message type: " ++ (Message.webrtcSend data).type) }
  | .offscreen, _ | .popup, _ => none

/-- `browser.runtime.sendMessage`: the first answer of the contexts other than the sender. -/
def sendMessage (s : Extension γ) (sender : Context) (message : Message) : Settled :=
  match s.contexts.filter (· ≠ sender) with
  | [] => .error "Could not establish connection. Receiving end does not exist."
  | receivers => .ok (receivers.findSome? (s.reply · message))

/-- `WebRtcTransport.connect`, called in the context `caller`. -/
def connect (s : Extension γ) (caller : Context) : Except String Unit × WebRtcTransport γ :=
  s.transport.connect (s.sendMessage caller .getConnectionState)

/-- `WebRtcTransport.send`, called in the context `caller`: how it settles, and what the offscreen
document hands on. -/
def send (s : Extension γ) (caller : Context) (payload : Bytes) :
    Except String Unit × Option (Sink × Bytes) :=
  if s.transport.connected then
    let data := SendData.text (Base64.encode payload)
    (WebRtcTransport.sent (s.sendMessage caller (.webrtcSend data)),
      if caller = .offscreen then none else s.offscreen.bind (·.webrtcSend data))
  else (.error "WebRTC transport not connected", none)

/-- `connect` of the background resolves in the state `connected` and in no other, and `send`
resolves exactly when the offscreen document has handed on the bytes. -/
structure Agrees (s : Extension γ) (payload : Bytes) : Prop where
  connect : (s.connect .background).1 = .ok () ↔ s.connectionState = .connected
  send : (s.send .background payload).1 = .ok () ↔
    ∃ sink, (s.send .background payload).2 = some (sink, payload)

/-! ### Who answers -/

/-- The other contexts leave a message of the background without an answer. -/
theorem sendMessage_background (s : Extension γ) (message : Message) :
    s.sendMessage .background message = .ok none ∨
      ∃ err, s.sendMessage .background message = .error err := by
  unfold sendMessage
  split
  · exact .inr ⟨_, rfl⟩
  · refine .inl (congrArg Except.ok (List.findSome?_eq_none_iff.mpr fun ctx hctx => ?_))
    have hne : ctx ≠ .background := by simpa using (List.mem_filter.mp hctx).2
    cases ctx with
    | background => exact absurd rfl hne
    | offscreen | popup => rfl

/-- The background answers every message of another context. -/
theorem sendMessage_elsewhere (s : Extension γ) {caller : Context} (hc : caller ≠ .background)
    (message : Message) : s.sendMessage caller message = .ok (s.reply .background message) := by
  have first : s.contexts.filter (· ≠ caller) =
      .background :: (s.contexts.tail.filter (· ≠ caller)) := by
    simp [contexts, hc.symm]
  rw [sendMessage, first]
  cases message <;> rfl

theorem connect_background (s : Extension γ) : (s.connect .background).1 ≠ .ok () := by
  rcases s.sendMessage_background .getConnectionState with h | ⟨err, h⟩ <;>
    rw [connect, h] <;> nofun

theorem send_background (s : Extension γ) (payload : Bytes) :
    (s.send .background payload).1 ≠ .ok () := by
  unfold send
  split
  · show WebRtcTransport.sent _ ≠ _
    rcases s.sendMessage_background (.webrtcSend (.text (Base64.encode payload))) with
      h | ⟨err, h⟩ <;> rw [h] <;> nofun
  · nofun

/-- In the popup or the offscreen document, `connect` resolves exactly in the state `connected`. -/
theorem connect_elsewhere (s : Extension γ) {caller : Context} (hc : caller ≠ .background) :
    (s.connect caller).1 = .ok () ↔ s.connectionState = .connected := by
  rw [connect, sendMessage_elsewhere s hc]
  cases hs : s.connectionState <;> simp [reply, hs, WebRtcTransport.connect]

/-! ### What is handed on -/

theorem encode_eq_nil {bs : Bytes} : Base64.encode bs = [] ↔ bs = [] := by
  constructor
  · intro h
    have hd := Base64.decode_encode bs
    rw [h] at hd
    exact (Option.some.inj hd).symm
  · rintro rfl
    rfl

/-- The offscreen document reads the bytes that the transport was given, unless there are none. -/
theorem decodeData_encode (payload : Bytes) :
    Offscreen.decodeData (.text (Base64.encode payload)) =
      if payload = [] then none else some payload := by
  by_cases hp : payload = []
  · simp [Offscreen.decodeData, hp, Base64.encode]
  · simp [Offscreen.decodeData, hp, encode_eq_nil, Base64.atob_encode]

theorem handed_iff (s : Extension γ) (payload : Bytes) :
    (∃ sink, (s.send .background payload).2 = some (sink, payload)) ↔
      s.transport.connected = true ∧ payload ≠ [] ∧ s.offscreen.bind Offscreen.sink ≠ none := by
  unfold send
  cases hc : s.transport.connected with
  | false => simp
  | true =>
    cases ho : s.offscreen with
    | none => simp
    | some o =>
      by_cases hp : payload = []
      · simp [Offscreen.webrtcSend_eq, decodeData_encode, hp]
      · simp [Offscreen.webrtcSend_eq, decodeData_encode, hp, Option.ne_none_iff_exists']

/-- The two ends agree exactly in the states other than `connected` in which the transport is not
connected, or there is nothing to send, or nothing that takes it. -/
theorem outbound_agrees_iff (s : Extension γ) (payload : Bytes) :
    Agrees s payload ↔ s.connectionState ≠ .connected ∧
      (s.transport.connected = true → payload = [] ∨ s.offscreen.bind Offscreen.sink = none) := by
  constructor
  · intro h
    refine ⟨fun hs => connect_background s (h.connect.mpr hs), ?_⟩
    intro hc
    by_contra hn
    rw [not_or] at hn
    exact send_background s payload (h.send.mpr ((handed_iff s payload).mpr ⟨hc, hn⟩))
  · rintro ⟨hs, hn⟩
    refine ⟨iff_of_false (connect_background s) hs, iff_of_false (send_background s payload) ?_⟩
    rw [handed_iff]
    rintro ⟨hc, hp, ho⟩
    exact (hn hc).elim hp ho

/-- The state is `connected` and the data channel open: `connect` rejects for want of an answer, and
so does the `send` of a transport that is connected, although the channel has the bytes. -/
theorem rejects_while_connected :
    let s : Extension Unit :=
      { connectionState := .connected, transport := { connected := true },
        offscreen := some { dataChannel := some .opened } }
    (s.connect .background).1 = .error "WebRTC is not connected (state: unknown)" ∧
      s.send .background [72] = (.error "WebRTC send failed", some (.dataChannel, [72])) ∧
      ¬Agrees s [72] := by
  refine ⟨by rfl, by rfl, fun h => ?_⟩
  exact connect_background _ (h.connect.mpr rfl)

end Extension

end SmartIdVault.Transport
