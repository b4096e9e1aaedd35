import SmartIdVault.Lib.Base64

/-! `WebRtcTransport.ts`: the end of the WebRTC transport in the context that uses it.  The peer
connection itself lives in the offscreen document, and the two ends exchange runtime messages:
bytes go out in base64 and come in as arrays of numbers. -/

namespace SmartIdVault.Transport

/-- `ConnectionState` of `offscreenWebrtc.ts`. -/
inductive ConnectionState where
  | disconnected | connecting | connected | reconnecting
  deriving DecidableEq, Repr

def ConnectionState.text : ConnectionState → String
  | .disconnected => "disconnected"
  | .connecting => "connecting"
  | .connected => "connected"
  | .reconnecting => "reconnecting"

/-- The answer to a runtime message, with what `data` has of a connection state. -/
structure MessageResponse where
  success : Bool
  connectionState : Option ConnectionState := none
  error : Option String := none
  deriving DecidableEq, Repr

/-- What `sendMessage` settles with: it rejects, or resolves to an answer or to `undefined`. -/
abbrev Settled := Except String (Option MessageResponse)

/-- `Array.from(bytes)`. -/
def arrayFrom (data : Bytes) : List Nat := data.map UInt8.toNat

/-- `new Uint8Array(numbers)`. -/
def uint8Array (numbers : List Nat) : Bytes := numbers.map UInt8.ofNat

theorem uint8Array_arrayFrom (data : Bytes) : uint8Array (arrayFrom data) = data := by
  simp [uint8Array, arrayFrom, Function.comp_def]

/-- The string form of an array: its numbers in decimal with commas between them. -/
def arrayText : List Nat → List Char
  | [] => []
  | [n] => Nat.toDigits 10 n
  | m :: n :: rest => Nat.toDigits 10 m ++ ',' :: arrayText (n :: rest)

/-- `base64ToArrayBuffer` at an array, whose string form goes to `atob`. -/
def base64ToArrayBuffer (atob : List Char → Option Bytes) (numbers : List Nat) : Option Bytes :=
  atob (arrayText numbers)

theorem comma_mem_arrayText (b c : UInt8) (rest : Bytes) :
    ',' ∈ arrayText (arrayFrom (b :: c :: rest)) := by
  simp [arrayFrom, arrayText]

theorem base64ToArrayBuffer_singleton :
    ∀ n < 256, base64ToArrayBuffer Base64.decode [n] = none := by
  decide +kernel

/-- No array of bytes but the empty one has a base64 text as its string form: one number is too
short for it, and two have a comma between them. -/
theorem base64ToArrayBuffer_arrayFrom (data : Bytes) :
    base64ToArrayBuffer Base64.decode (arrayFrom data) = if data = [] then some [] else none := by
  match data with
  | [] => rfl
  | [b] => exact base64ToArrayBuffer_singleton b.toNat b.toNat_lt
  | b :: c :: rest => exact Base64.decode_eq_none (by decide) (by decide) (comma_mem_arrayText ..)

/-- The forgiving decoder takes one number of two or three digits, and makes other bytes of it. -/
theorem base64ToArrayBuffer_forgiving :
    ∀ n < 256, (base64ToArrayBuffer Base64.atob [n] ≠ none ↔ 10 ≤ n) ∧
      base64ToArrayBuffer Base64.atob [n] ≠ some [UInt8.ofNat n] := by
  decide +kernel

theorem base64ToArrayBuffer_atob (data : Bytes) :
    (base64ToArrayBuffer Base64.atob (arrayFrom data) ≠ none ↔
      data = [] ∨ ∃ b, data = [b] ∧ 10 ≤ b.toNat) ∧
    (base64ToArrayBuffer Base64.atob (arrayFrom data) = some data ↔ data = []) := by
  match data with
  | [] => exact ⟨iff_of_true (by decide) (.inl rfl), iff_of_true rfl rfl⟩
  | [b] =>
    obtain ⟨hdigits, hother⟩ := base64ToArrayBuffer_forgiving b.toNat b.toNat_lt
    rw [UInt8.ofNat_toNat] at hother
    exact ⟨hdigits.trans (by simp), iff_of_false hother (List.cons_ne_nil b [])⟩
  | b :: c :: rest =>
    have hnone : base64ToArrayBuffer Base64.atob (arrayFrom (b :: c :: rest)) = none :=
      Base64.atob_eq_none (by decide) (by decide) (by decide) (comma_mem_arrayText ..)
    simp [hnone]

/-- What the transport's listener reads: bytes that have arrived, or a change of the connection. -/
inductive Notice where
  | dataReceived (numbers : List Nat)
  | connectionState (disconnected : Bool) (latencyMs : Option Nat)

structure WebRtcTransport (γ : Type) where
  connected : Bool := false
  listenerAttached : Bool := false
  messageCallbacks : List γ := []
  latencyMs : Nat := 0

namespace WebRtcTransport

variable {γ : Type}

/-- `connect`, with the answer to `get-connection-state`. -/
def connect (t : WebRtcTransport γ) : Settled → Except String Unit × WebRtcTransport γ
  | .error err => (.error err, t)
  | .ok response =>
    let state := response.bind MessageResponse.connectionState
    if state = some .connected then
      (.ok (), { t with connected := true, listenerAttached := true })
    else
      (.error ("WebRTC is not connected (state: " ++
        (state.map ConnectionState.text).getD "unknown" ++ ")"), { t with connected := false })

/-- The end of `send`, with the answer to `webrtc-send`. -/
def sent : Settled → Except String Unit
  | .error err => .error err
  | .ok none => .error "WebRTC send failed"
  | .ok (some response) =>
    if response.success then .ok () else .error (response.error.getD "WebRTC send failed")

def onMessage (t : WebRtcTransport γ) (callback : γ) : WebRtcTransport γ :=
  { t with messageCallbacks := t.messageCallbacks ++ [callback] }

def cleanup (t : WebRtcTransport γ) : WebRtcTransport γ :=
  { t with connected := false, listenerAttached := false }

/-- `handleMessage`: the calls it makes and the transport after it, or `none` when it throws. -/
def handleMessage (atob : List Char → Option Bytes) (t : WebRtcTransport γ) :
    Notice → Option (List (γ × Bytes) × WebRtcTransport γ)
  | .dataReceived numbers =>
    (base64ToArrayBuffer atob numbers).map fun bytes => (t.messageCallbacks.map (·, bytes), t)
  | .connectionState disconnected latencyMs =>
    let t := if disconnected then t.cleanup else t
    some ([], { t with latencyMs := latencyMs.getD t.latencyMs })

/-- The transport at a message: it sees it while its listener is attached. -/
def receive (atob : List Char → Option Bytes) (t : WebRtcTransport γ) (notice : Notice) :
    Option (List (γ × Bytes) × WebRtcTransport γ) :=
  if t.listenerAttached then t.handleMessage atob notice else some ([], t)

end WebRtcTransport

end SmartIdVault.Transport
