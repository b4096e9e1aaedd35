import SmartIdVault.Lib.Machine
import SmartIdVault.Pairing.Frames
import SmartIdVault.Transport.WebRtc

/-! Bytes on their way in: what the offscreen document posts for a frame of the data channel or a
USB transfer, and the three consumers in the background, the WebRTC transport, the USB transport
and the pairing that waits for a handshake message.  The offscreen document posts an array of
numbers, which the second and the third read; the first takes it for base64, and `atob` throws at
it or makes other bytes of it. -/

namespace SmartIdVault.Transport

/-- What has arrived in the offscreen document. -/
inductive Arrival where
  | dataChannel (data : Bytes)
  | usb (data : Bytes)
  deriving DecidableEq, Repr

def Arrival.bytes : Arrival → Bytes
  | .dataChannel data | .usb data => data

/-- The numbers in the `webrtc-data-received` message: `dataChannel.onmessage` posts every frame,
`startUsbReadLoop` every transfer that is not empty. -/
def Arrival.post : Arrival → Option (List Nat)
  | .dataChannel data => some (arrayFrom data)
  | .usb data => if 0 < data.length then some (arrayFrom data) else none

theorem Arrival.post_eq {a : Arrival} {numbers : List Nat} (h : a.post = some numbers) :
    numbers = arrayFrom a.bytes := by
  cases a with
  | dataChannel data => exact (Option.some.inj h).symm
  | usb data =>
    simp only [Arrival.post] at h
    split at h
    · exact (Option.some.inj h).symm
    · contradiction

/-- `UsbTransport`.  `listeners` has the callbacks whose runtime listener is attached: a listener
calls the callback it was made for, and `cleanup` takes none of them away. -/
structure UsbTransport (γ : Type) where
  connected : Bool := false
  listenerAttached : Bool := false
  messageCallbacks : List γ := []
  device : Bool := false
  listeners : List γ := []

namespace UsbTransport

variable {γ : Type}

/-- `connect`: over a device of its own if one can be opened, else through the offscreen document
if that has one. -/
def connect (t : UsbTransport γ) (opened relayed : Bool) : UsbTransport γ :=
  if t.device then { t with connected := true }
  else if opened then { t with connected := true, device := true }
  else if relayed then { t with connected := true }
  else t

/-- `cleanup`, at the end of `disconnect` and after a read error. -/
def cleanup (t : UsbTransport γ) : UsbTransport γ :=
  { t with connected := false, device := false, listenerAttached := false }

def onMessage (t : UsbTransport γ) (callback : γ) : UsbTransport γ :=
  let t := { t with messageCallbacks := t.messageCallbacks ++ [callback] }
  if t.listenerAttached then t
  else { t with listenerAttached := true, listeners := t.listeners ++ [callback] }

/-- The calls that the attached listeners make at a message. -/
def receive (t : UsbTransport γ) (numbers : List Nat) : List (γ × Bytes) :=
  if t.connected then t.listeners.map (·, uint8Array numbers) else []

end UsbTransport

/-- The check of `waitForDataChannelMessage`: the protocol version and the message type. -/
def isHandshake (bytes : Bytes) : Bool :=
  bytes.length ≥ 3 && bytes[0]? = some Pairing.protocolVersion &&
    bytes[1]? = some Pairing.messageHandshake

/-- The consumers in the background; `waiting` counts the calls of `waitForDataChannelMessage` that
have not settled. -/
structure Consumers (γ : Type) where
  webrtc : WebRtcTransport γ := {}
  usb : UsbTransport γ := {}
  waiting : Nat := 0

inductive InboundEvent (γ : Type) where
  | connectWebRtc (answer : Settled)
  | disconnectWebRtc
  | onMessageWebRtc (callback : γ)
  | connectUsb (opened relayed : Bool)
  | cleanupUsb
  | onMessageUsb (callback : γ)
  | waitForDataChannelMessage
  | timeout
  | notice (n : Notice)

namespace Consumers

variable {γ : Type} (atob : List Char → Option Bytes)

/-- The arrays that the pending calls of `waitForDataChannelMessage` resolve with. -/
def resolved (s : Consumers γ) (numbers : List Nat) : List Bytes :=
  if isHandshake (uint8Array numbers) then List.replicate s.waiting (uint8Array numbers) else []

/-- A message at all three consumers.  A listener that throws leaves the others alone. -/
def deliver (s : Consumers γ) (n : Notice) : Consumers γ :=
  let webrtc := ((s.webrtc.receive atob n).map Prod.snd).getD s.webrtc
  match n with
  | .dataReceived numbers =>
    { s with webrtc, waiting := s.waiting - (s.resolved numbers).length }
  | .connectionState .. => { s with webrtc }

def step (s : Consumers γ) : InboundEvent γ → Option (Consumers γ)
  | .connectWebRtc answer => some { s with webrtc := (s.webrtc.connect answer).2 }
  | .disconnectWebRtc => some { s with webrtc := s.webrtc.cleanup }
  | .onMessageWebRtc callback => some { s with webrtc := s.webrtc.onMessage callback }
  | .connectUsb opened relayed => some { s with usb := s.usb.connect opened relayed }
  | .cleanupUsb => some { s with usb := s.usb.cleanup }
  | .onMessageUsb callback => some { s with usb := s.usb.onMessage callback }
  | .waitForDataChannelMessage => some { s with waiting := s.waiting + 1 }
  | .timeout => if s.waiting = 0 then none else some { s with waiting := s.waiting - 1 }
  | .notice n => some (s.deliver atob n)

/-- The consumers agree with the offscreen document on a message for `data`: none throws, the
connected transports hand `data` to all their callbacks in turn, and every pending
`waitForDataChannelMessage` that the message is for resolves with `data`. -/
structure Agrees (s : Consumers γ) (numbers : List Nat) (data : Bytes) : Prop where
  total : s.webrtc.receive atob (.dataReceived numbers) ≠ none
  webrtc : s.webrtc.connected = true →
    (s.webrtc.receive atob (.dataReceived numbers)).map Prod.fst =
      some (s.webrtc.messageCallbacks.map (·, data))
  usb : s.usb.connected = true → s.usb.receive numbers = s.usb.messageCallbacks.map (·, data)
  waiting : s.resolved numbers =
    if isHandshake data then List.replicate s.waiting data else []

/-- A connected WebRTC transport has its listener attached, and the callbacks with a USB listener
are among the registered ones, in the same order. -/
structure Attached (s : Consumers γ) : Prop where
  webrtc : s.webrtc.connected = true → s.webrtc.listenerAttached = true
  usb : s.usb.listeners.Sublist s.usb.messageCallbacks

variable {atob} {s t : Consumers γ}

theorem attached_init : Attached ({} : Consumers γ) := ⟨nofun, .refl []⟩

/-! ### What a step does to the transports -/

theorem connect_attached {w : WebRtcTransport γ} (answer : Settled)
    (h : w.connected = true → w.listenerAttached = true) :
    (w.connect answer).2.connected = true → (w.connect answer).2.listenerAttached = true := by
  cases answer with
  | error err => exact h
  | ok response =>
    simp only [WebRtcTransport.connect]
    split
    · exact fun _ => rfl
    · exact nofun

theorem receive_attached {w : WebRtcTransport γ} (n : Notice)
    (h : w.connected = true → w.listenerAttached = true) :
    let w' := ((w.receive atob n).map Prod.snd).getD w
    w'.connected = true → w'.listenerAttached = true := by
  intro w'
  cases n with
  | dataReceived numbers =>
    have same : w' = w := by
      simp only [w', WebRtcTransport.receive, WebRtcTransport.handleMessage]
      cases w.listenerAttached <;> cases base64ToArrayBuffer atob numbers <;> rfl
    rwa [same]
  | connectionState disconnected latencyMs =>
    simp only [w', WebRtcTransport.receive, WebRtcTransport.handleMessage]
    cases hl : w.listenerAttached with
    | false => simpa [hl] using h
    | true => cases disconnected <;> simp [hl, WebRtcTransport.cleanup]

theorem onMessage_sublist {u : UsbTransport γ} (callback : γ)
    (h : u.listeners.Sublist u.messageCallbacks) :
    (u.onMessage callback).listeners.Sublist (u.onMessage callback).messageCallbacks := by
  simp only [UsbTransport.onMessage]
  split
  · exact h.trans (List.sublist_append_left _ _)
  · exact h.append (.refl _)

theorem connect_lists (u : UsbTransport γ) (opened relayed : Bool) :
    (u.connect opened relayed).listeners = u.listeners ∧
      (u.connect opened relayed).messageCallbacks = u.messageCallbacks := by
  cases hd : u.device <;> cases opened <;> cases relayed <;> simp [UsbTransport.connect, hd]

theorem step_attached {e : InboundEvent γ} (h : Attached s) (hs : s.step atob e = some t) :
    Attached t := by
  cases e with
  | connectWebRtc answer =>
    obtain rfl := Option.some.inj hs
    exact ⟨connect_attached answer h.webrtc, h.usb⟩
  | disconnectWebRtc =>
    obtain rfl := Option.some.inj hs
    exact ⟨nofun, h.usb⟩
  | connectUsb opened relayed =>
    obtain rfl := Option.some.inj hs
    obtain ⟨hl, hc⟩ := connect_lists s.usb opened relayed
    exact ⟨h.webrtc, by rw [hl, hc]; exact h.usb⟩
  | onMessageUsb callback =>
    obtain rfl := Option.some.inj hs
    exact ⟨h.webrtc, onMessage_sublist callback h.usb⟩
  | onMessageWebRtc | cleanupUsb | waitForDataChannelMessage =>
    obtain rfl := Option.some.inj hs
    exact ⟨h.webrtc, h.usb⟩
  | timeout =>
    rw [step] at hs
    split at hs
    · contradiction
    · obtain rfl := Option.some.inj hs
      exact ⟨h.webrtc, h.usb⟩
  | notice n =>
    obtain rfl := Option.some.inj hs
    cases n <;> exact ⟨receive_attached _ h.webrtc, h.usb⟩

theorem attached_of_run {es : List (InboundEvent γ)} (run : Machine.Run (step atob) {} es s) :
    Attached s :=
  run.invariant_all attached_init fun _ _ _ => step_attached

/-! ### A message at the consumers -/

theorem receive_webrtc (w : WebRtcTransport γ) (numbers : List Nat) :
    (w.receive atob (.dataReceived numbers)).map Prod.fst =
      if w.listenerAttached = true then
        (base64ToArrayBuffer atob numbers).map fun bytes => w.messageCallbacks.map (·, bytes)
      else some [] := by
  simp only [WebRtcTransport.receive, WebRtcTransport.handleMessage]
  split
  · rw [Option.map_map]
    rfl
  · rfl

theorem receive_eq_none {w : WebRtcTransport γ} {numbers : List Nat} :
    w.receive atob (.dataReceived numbers) = none ↔
      w.listenerAttached = true ∧ base64ToArrayBuffer atob numbers = none := by
  simp only [WebRtcTransport.receive, WebRtcTransport.handleMessage]
  split <;> simp [*]

theorem receive_usb {u : UsbTransport γ} (data : Bytes)
    (h : u.listeners.Sublist u.messageCallbacks) (hc : u.connected = true) :
    u.receive (arrayFrom data) = u.messageCallbacks.map (·, data) ↔
      u.listeners.length = u.messageCallbacks.length := by
  rw [UsbTransport.receive, if_pos hc, uint8Array_arrayFrom]
  constructor
  · intro heq
    simpa using congrArg List.length heq
  · intro hlen
    rw [h.eq_of_length hlen]

/-- What waits for a handshake message resolves with its bytes, and waits on at any other. -/
theorem resolved_arrayFrom (s : Consumers γ) (data : Bytes) :
    s.resolved (arrayFrom data) =
      if isHandshake data then List.replicate s.waiting data else [] := by
  rw [resolved, uint8Array_arrayFrom]

/-- The consumers agree on bytes exactly when an attached WebRTC listener decodes the array, and
hands on what was posted if the transport is connected, and a connected USB transport has a listener
for each of its callbacks. -/
theorem Attached.agrees_at_iff (inv : Attached s) (data : Bytes) :
    Agrees atob s (arrayFrom data) data ↔
      (s.webrtc.listenerAttached = true → ∃ bytes ∈ base64ToArrayBuffer atob (arrayFrom data),
        s.webrtc.connected = true → s.webrtc.messageCallbacks = [] ∨ bytes = data) ∧
        (s.usb.connected = true → s.usb.listeners.length = s.usb.messageCallbacks.length) := by
  have hw : (s.webrtc.receive atob (.dataReceived (arrayFrom data))).map Prod.fst = _ :=
    receive_webrtc s.webrtc (arrayFrom data)
  have hcalls (bytes : Bytes) : s.webrtc.messageCallbacks.map (·, bytes) =
      s.webrtc.messageCallbacks.map (·, data) ↔ s.webrtc.messageCallbacks = [] ∨ bytes = data := by
    cases s.webrtc.messageCallbacks with
    | nil => simp
    | cons callback rest => simp +contextual
  constructor
  · intro h
    refine ⟨fun hl => ?_, fun hc => (receive_usb _ inv.usb hc).mp (h.usb hc)⟩
    rw [if_pos hl] at hw
    obtain ⟨bytes, hbytes⟩ : ∃ bytes, base64ToArrayBuffer atob (arrayFrom data) = some bytes :=
      Option.ne_none_iff_exists'.mp fun hnone => h.total (receive_eq_none.mpr ⟨hl, hnone⟩)
    refine ⟨bytes, hbytes, fun hc => (hcalls bytes).mp ?_⟩
    rw [hbytes, h.webrtc hc] at hw
    exact (Option.some.inj hw).symm
  · rintro ⟨hl, hu⟩
    refine ⟨?_, ?_, fun hc => (receive_usb _ inv.usb hc).mpr (hu hc), resolved_arrayFrom s _⟩
    · intro hnone
      obtain ⟨hatt, hthrows⟩ := receive_eq_none.mp hnone
      obtain ⟨bytes, hbytes, -⟩ := hl hatt
      cases hthrows.symm.trans hbytes
    · intro hc
      have hatt := inv.webrtc hc
      obtain ⟨bytes, hbytes, hsame⟩ := hl hatt
      rw [hw, if_pos hatt, Option.mem_def.mp hbytes, Option.map_some, (hcalls bytes).mpr (hsame hc)]

/-- In every state that is reached, with an `atob` that takes RFC 4648 only, the consumers agree with
the offscreen document on what has arrived exactly when the WebRTC transport does not listen or
nothing is in it, and a connected USB transport has a listener for each of its callbacks. -/
theorem inbound_agrees_iff {es : List (InboundEvent γ)}
    (run : Machine.Run (step Base64.decode) {} es s) {a : Arrival} {numbers : List Nat}
    (hpost : a.post = some numbers) :
    Agrees Base64.decode s numbers a.bytes ↔
      (s.webrtc.listenerAttached = true → a.bytes = []) ∧
        (s.usb.connected = true → s.usb.listeners.length = s.usb.messageCallbacks.length) := by
  obtain rfl := Arrival.post_eq hpost
  rw [(attached_of_run run).agrees_at_iff, base64ToArrayBuffer_arrayFrom]
  refine and_congr_left fun _ => forall_congr' fun _ => ?_
  by_cases hempty : a.bytes = []
  · simp [hempty]
  · simp [hempty]

/-- The forgiving `atob` of the browser does not throw at one byte of two or three digits, but no
callback gets it as it was. -/
theorem inbound_agrees_atob_iff {es : List (InboundEvent γ)}
    (run : Machine.Run (step Base64.atob) {} es s) {a : Arrival} {numbers : List Nat}
    (hpost : a.post = some numbers) :
    Agrees Base64.atob s numbers a.bytes ↔
      (s.webrtc.listenerAttached = true → a.bytes = [] ∨ (∃ b, a.bytes = [b] ∧ 10 ≤ b.toNat) ∧
        (s.webrtc.connected = true → s.webrtc.messageCallbacks = [])) ∧
        (s.usb.connected = true → s.usb.listeners.length = s.usb.messageCallbacks.length) := by
  obtain rfl := Arrival.post_eq hpost
  rw [(attached_of_run run).agrees_at_iff]
  refine and_congr_left fun _ => forall_congr' fun _ => ?_
  obtain ⟨hdecodes, hsame⟩ := base64ToArrayBuffer_atob a.bytes
  constructor
  · rintro ⟨bytes, hbytes, hconnected⟩
    rcases hdecodes.mp (Option.ne_none_iff_exists'.mpr ⟨bytes, hbytes⟩) with hempty | hone
    · exact .inl hempty
    · by_cases hempty : a.bytes = []
      · exact .inl hempty
      · refine .inr ⟨hone, fun hc => (hconnected hc).resolve_right ?_⟩
        rintro rfl
        exact hempty (hsame.mp hbytes)
  · rintro (hempty | ⟨hone, hnobody⟩)
    · exact ⟨a.bytes, hsame.mpr hempty, fun _ => .inr rfl⟩
    · obtain ⟨bytes, hbytes⟩ := Option.ne_none_iff_exists'.mp (hdecodes.mpr (.inr hone))
      exact ⟨bytes, hbytes, fun hc => .inl (hnobody hc)⟩

/-- A connected USB transport with one callback and a pending `waitForDataChannelMessage`. -/
def pairingOverUsb : List (InboundEvent Nat) :=
  [.connectUsb false true, .onMessageUsb 0, .waitForDataChannelMessage]

theorem handshake_over_usb :
    ∃ s, Machine.Run (step Base64.decode) {} pairingOverUsb s ∧ s.usb.connected = true ∧
      s.waiting = 1 ∧ Agrees Base64.decode s [1, 0, 48, 7] [1, 0, 48, 7] := by
  have run : Machine.Run (step Base64.decode) {} pairingOverUsb _ := Machine.run_of_exec rfl
  exact ⟨_, run, rfl, rfl,
    (inbound_agrees_iff run (a := .usb [1, 0, 48, 7]) rfl).mpr ⟨nofun, fun _ => rfl⟩⟩

def listenOverWebRtc : List (InboundEvent Nat) :=
  [.onMessageWebRtc 0,
   .connectWebRtc (.ok (some { success := true, connectionState := some .connected }))]

def listenTwiceOverUsb : List (InboundEvent Nat) :=
  [.connectUsb false true, .onMessageUsb 0, .onMessageUsb 1]

/-- Two bytes on the data channel make the connected WebRTC transport throw, whichever decoder
`atob` is, and two bytes reach only the first of the two callbacks of a connected USB transport. -/
theorem frame_lost :
    (∃ s, Machine.Run (step Base64.decode) {} listenOverWebRtc s ∧ s.webrtc.connected = true ∧
      (Arrival.dataChannel [104, 101]).post = some [104, 101] ∧
      ∀ atob ∈ [Base64.decode, Base64.atob],
        (s.webrtc.receive atob (.dataReceived [104, 101])).isNone = true ∧
        ¬Agrees atob s [104, 101] [104, 101]) ∧
    ∃ s, Machine.Run (step Base64.decode) {} listenTwiceOverUsb s ∧
      s.usb.messageCallbacks = [0, 1] ∧ s.usb.receive [104, 101] = [(0, [104, 101])] ∧
      ¬Agrees Base64.decode s [104, 101] [104, 101] := by
  refine ⟨⟨_, Machine.run_of_exec rfl, rfl, rfl, ?_⟩, ⟨_, Machine.run_of_exec rfl, rfl, rfl, ?_⟩⟩
  · intro atob hatob
    have hthrows : base64ToArrayBuffer atob [104, 101] = none := by
      simp only [List.mem_cons, List.not_mem_nil, or_false] at hatob
      rcases hatob with rfl | rfl <;> decide +kernel
    refine ⟨Option.isNone_iff_eq_none.mpr ?_, fun h => h.total ?_⟩
    · exact receive_eq_none.mpr ⟨rfl, hthrows⟩
    · exact receive_eq_none.mpr ⟨rfl, hthrows⟩
  · intro h
    exact absurd (h.usb rfl) (by decide)

end Consumers

end SmartIdVault.Transport
