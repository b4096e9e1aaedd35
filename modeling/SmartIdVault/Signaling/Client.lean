import SmartIdVault.Lib.Sha256
import SmartIdVault.Signaling.Steps

/-! The extension's side of a pairing, `connectSignaling` of `entrypoints/offscreen-webrtc/main.ts`,
against the server.  The extension registers its room and then asks to join it, from a socket whose
handshake has no commitment.  The server answers the second message by disconnecting the socket, so
the extension has left its room before the phone can make use of it. -/

namespace SmartIdVault.Signaling

/-- The handshake of `io(SIGNALING_SERVER_URL, …)`, which has no query. -/
def clientHandshake : Handshake := {}

/-- `connectSignaling`: what the `connect` handler emits. -/
def connectSignaling (code : Utf16) (roomNonce extStaticKey : Option Bytes) :
    List ClientMessage :=
  let registration :=
    match roomNonce, extStaticKey with
    | some nonce, some extensionStaticKey =>
      [.registerRoom (some {
        sasCode := .str code
        nonce := .ofBytes 0 nonce
        extensionStaticKey := .ofBytes 1 extensionStaticKey
        roomId := .str (utf16 "smartid2::" ++ code) })]
    | _, _ => []
  registration ++ [.joinRoom (.str code)]

/-- What an honest pairing starts from: a SAS code of six digits, a nonce and a static key. -/
structure Pairing where
  sas : Utf16
  nonce : Bytes
  key : Bytes
  sas_numeric : isSasNumeric sas = true
  nonce_length : nonce.length = 32
  key_length : 32 ≤ key.length

namespace Pairing

variable (p : Pairing)

def registration : RegisterRoom where
  sasCode := .str p.sas
  nonce := .ofBytes 0 p.nonce
  extensionStaticKey := .ofBytes 1 p.key
  roomId := .str (utf16 "smartid2::" ++ p.sas)

/-- The phone presents the commitment to the extension's key, nonce and SAS code. -/
def phoneHandshake (sha256 : Bytes → Bytes) : Handshake :=
  { commitment := .str (computeCommitment sha256 p.key p.nonce p.sas) }

theorem connectSignaling_eq : connectSignaling p.sas (some p.nonce) (some p.key) =
    [.registerRoom (some p.registration), .joinRoom (.str p.sas)] := rfl

theorem checkSas_sas : checkSas (.str p.sas) = .valid p.sas := by
  have hne : p.sas ≠ [] := by
    intro h
    have := p.sas_numeric
    simp [isSasNumeric, h] at this
  have hvalid : isValidSasCode p.sas = true := by simp [isValidSasCode, p.sas_numeric]
  have htruthy : (JsVal.str p.sas).truthy = true := by
    unfold JsVal.truthy JsVal.str
    split <;> simp_all
  have htext : (JsVal.str p.sas).toStr = some p.sas := rfl
  simp [checkSas, htruthy, htext, hvalid]

end Pairing

namespace Server

def messagesOf (x : SocketId) (es : List Event) : List ClientMessage :=
  es.filterMap fun
    | .message y msg => if y = x then some msg else none
    | _ => none

section HonestRun

variable (cfg : Config) (p : Pairing)

/-- The extension connects in state `s`, its socket sends what `connectSignaling` emits, and the
phone's socket `y` sends `join-room`, each in its order and among any other events. -/
structure HonestRun (s : Server) (y : SocketId) (es : List Event) (t : Server) : Prop where
  run : Run cfg s es t
  connects : ∃ now, es.head? = some (.connection clientHandshake now)
  extension : messagesOf s.sockets.length es =
    connectSignaling p.sas (some p.nonce) (some p.key)
  phone : messagesOf y es = [.joinRoom (.str p.sas)]
  commitment : t.handshake y = p.phoneHandshake cfg.sha256

/-- Both sockets are in the room, the extension's is connected, and the phone has heard that it is
the second. -/
structure Paired (x y : SocketId) (t : Server) : Prop where
  connected : t.isConnected x = true
  extension : x ∈ t.members (roomOf p.sas)
  phone : y ∈ t.members (roomOf p.sas)
  told : ∃ turnCredentials, (y, .roomJoined 2 turnCredentials) ∈ t.sent

end HonestRun

variable {cfg : Config} {p : Pairing}

/-! ### The extension's socket -/

theorem keeps_handshake (cfg : Config) (x : SocketId) (handshake : Handshake) :
    Keeps cfg (fun _ _ => True) fun s =>
      ∃ socket, s.sockets[x]? = some socket ∧ socket.handshake = handshake where
  same hsame h := by rwa [hsame.sockets]
  connect _ h := by
    obtain ⟨socket, hx, hh⟩ := h
    have hlt := (List.getElem?_eq_some_iff.mp hx).1
    exact ⟨socket, by simp only [addSocket, List.getElem?_append_left hlt, hx], hh⟩
  disconnect y h := by
    obtain ⟨socket, hx, hh⟩ := h
    simp only [disconnect, List.getElem?_modify, hx]
    exact ⟨_, rfl, by split <;> exact hh⟩
  register {s y data} h _ _ _ := by
    obtain ⟨founding, hr⟩ := register_eq s y data
    rw [hr]
    exact h
  join h _ _ _ _ _ := h
  cleanup h _ _ := h
  relay h _ hsas _ := by simpa only [relay, hsas] using h

/-- The socket has disconnected and left its rooms. -/
structure Gone (x : SocketId) (s : Server) : Prop where
  known : x < s.sockets.length
  closed : s.isConnected x = false
  left : ∀ room, x ∉ s.members room

theorem Gone.enter {s : Server} {x y : SocketId} (h : Gone x s) (hy : s.isConnected y = true)
    (roomId : Key) (joins : List Key) : Gone x (s.enter y roomId joins) := by
  refine ⟨h.known, h.closed, ?_⟩
  intro room hx
  rcases (mem_members_enter ..).mp hx with hx | ⟨rfl, -⟩
  · exact h.left room hx
  · rw [h.closed] at hy
    contradiction

theorem keeps_gone (cfg : Config) (x : SocketId) : Keeps cfg (fun _ _ => True) (Gone x) where
  same {s t} hsame h := by
    refine ⟨hsame.sockets ▸ h.known, ?_, hsame.members ▸ h.left⟩
    unfold isConnected
    rw [hsame.sockets]
    exact h.closed
  connect handshake h := by
    refine ⟨?_, ?_, h.left⟩
    · simpa only [addSocket, List.length_append] using Nat.lt_add_right _ h.known
    · rw [isConnected_addSocket _ _ h.known]
      exact h.closed
  disconnect {s} y h := by
    refine ⟨by simpa [disconnect] using h.known, ?_, ?_⟩
    · apply Bool.eq_false_iff.mpr
      intro hc
      rw [isConnected_disconnect, h.closed] at hc
      exact absurd hc.1 (by decide)
    · intro room hx
      exact h.left room (List.mem_filter.mp hx).1
  register {s y data} h hy _ _ := by
    obtain ⟨founding, hr⟩ := register_eq s y data
    rw [hr]
    refine Gone.enter ?_ ?_ _ _
    · exact ⟨h.known, h.closed, h.left⟩
    · exact hy
  join h hy _ _ _ _ := h.enter hy _ _
  cleanup h _ _ := ⟨h.known, h.closed, h.left⟩
  relay h _ hsas _ := by
    simp only [relay, hsas]
    exact ⟨h.known, h.closed, h.left⟩

theorem gone_disconnect {s : Server} {x : SocketId} (hx : x < s.sockets.length) :
    Gone x (s.disconnect x) where
  known := by simpa [disconnect] using hx
  closed := Bool.eq_false_iff.mpr fun h => ((isConnected_disconnect s x x).mp h).2 rfl
  left room h := by simp [disconnect] at h

/-- Without a commitment a valid `join-room` ends in a disconnect, whatever the room's metadata. -/
theorem gone_joinRoom (cfg : Config) {s : Server} {x : SocketId} {sasCode : JsVal} {text : Utf16}
    (hx : x < s.sockets.length) (hh : s.handshake x = clientHandshake)
    (hsas : checkSas sasCode = .valid text) : Gone x (s.joinRoom cfg x sasCode) := by
  simp only [joinRoom, hsas]
  split
  · exact gone_disconnect hx
  · have hc : (s.handshake x).commitment.truthy = false := by rw [hh]; rfl
    simp only [hc, Bool.not_false, Bool.true_or, if_true]
    exact gone_disconnect hx

theorem mem_of_mem_messagesOf {x : SocketId} {es : List Event} {msg : ClientMessage}
    (h : msg ∈ messagesOf x es) : .message x msg ∈ es := by
  obtain ⟨e, he, hm⟩ := List.mem_filterMap.mp h
  split at hm
  · simp only [Option.ite_none_right_eq_some, Option.some.injEq] at hm
    obtain ⟨rfl, rfl⟩ := hm
    exact he
  · contradiction

/-- Wherever the phone's and anybody else's messages come in between, the extension's socket is
disconnected and in no room once its messages are delivered. -/
theorem HonestRun.gone {s t : Server} {y : SocketId} {es : List Event}
    (h : HonestRun cfg p s y es t) : Gone s.sockets.length t := by
  have hjoin : Event.message s.sockets.length (.joinRoom (.str p.sas)) ∈ es :=
    mem_of_mem_messagesOf (by simp [h.extension, p.connectSignaling_eq])
  obtain ⟨now, hfirst⟩ := h.connects
  cases h.run with
  | nil => contradiction
  | @cons _ s₁ _ e es hs hrun =>
    obtain rfl : e = .connection clientHandshake now := by simpa using hfirst
    have hconnect : ∃ socket, s₁.sockets[s.sockets.length]? = some socket ∧
        socket.handshake = clientHandshake := by
      rw [step_connection (crashed_of_step hs)] at hs
      cases hs
      exact ⟨{ handshake := clientHandshake }, List.getElem?_concat_length, rfl⟩
    obtain ⟨u, v, es₁, es₂, h₁, hstep, h₂⟩ := hrun.split (by simpa using hjoin)
    obtain ⟨socket, hx, hh⟩ :=
      h₁.invariant_all hconnect fun _ _ _ hi hs => (keeps_handshake cfg _ _).step hi trivial hs
    obtain ⟨-, -, rfl⟩ := step_message_eq_some.mp hstep
    refine h₂.invariant_all ?_ fun _ _ _ hi hs => (keeps_gone cfg _).step hi trivial hs
    refine gone_joinRoom cfg (List.getElem?_eq_some_iff.mp hx).1 ?_ p.checkSas_sas
    simp only [handshake, hx, hh]

/-! ### An honest run exists -/

theorem registerRoom_frame (s : Server) (x : SocketId) {data : RegisterRoom} {text : Utf16}
    (hsas : checkSas data.sasCode = .valid text) :
    (s.registerRoom x data).crashed = s.crashed ∧
      (s.registerRoom x data).sockets = s.sockets := by
  simp only [registerRoom, hsas, found]
  split
  · exact ⟨rfl, rfl⟩
  split
  · exact ⟨rfl, rfl⟩
  split
  · exact ⟨rfl, rfl⟩
  split
  · exact ⟨rfl, rfl⟩
  · exact ⟨rfl, rfl⟩

theorem joinRoom_frame (cfg : Config) (s : Server) {x y : SocketId} (hy : y ≠ x) {sasCode : JsVal}
    {text : Utf16} (hsas : checkSas sasCode = .valid text) :
    (s.joinRoom cfg x sasCode).crashed = s.crashed ∧
      (s.isConnected y = true → (s.joinRoom cfg x sasCode).isConnected y = true) := by
  simp only [joinRoom, hsas]
  split
  · exact ⟨rfl, fun h => (isConnected_disconnect _ x y).mpr ⟨h, hy⟩⟩
  · split
    · exact ⟨rfl, fun h => (isConnected_disconnect _ x y).mpr ⟨h, hy⟩⟩
    · exact ⟨rfl, id⟩

def honestEvents (cfg : Config) (p : Pairing) : List Event :=
  [.connection clientHandshake 0, .connection (p.phoneHandshake cfg.sha256) 0,
    .message 0 (.registerRoom (some p.registration)), .message 0 (.joinRoom (.str p.sas)),
    .message 1 (.joinRoom (.str p.sas))]

theorem exists_honestRun (cfg : Config) (p : Pairing) :
    ∃ t, HonestRun cfg p {} 1 (honestEvents cfg p) t := by
  let s₂ := (({} : Server).addSocket clientHandshake).addSocket (p.phoneHandshake cfg.sha256)
  let s₃ := s₂.registerRoom 0 p.registration
  let s₄ := s₃.joinRoom cfg 0 (.str p.sas)
  let s₅ := s₄.joinRoom cfg 1 (.str p.sas)
  obtain ⟨hc₃, hs₃⟩ : s₃.crashed = false ∧ s₃.sockets = s₂.sockets :=
    registerRoom_frame s₂ 0 p.checkSas_sas
  have hconn (x : SocketId) : s₃.isConnected x = s₂.isConnected x := by
    unfold isConnected
    rw [hs₃]
  obtain ⟨hc₄, h₄⟩ : s₄.crashed = s₃.crashed ∧ _ :=
    joinRoom_frame cfg s₃ (y := 1) (by decide) p.checkSas_sas
  have hrun : Run cfg s₂ [.message 0 (.registerRoom (some p.registration)),
      .message 0 (.joinRoom (.str p.sas)), .message 1 (.joinRoom (.str p.sas))] s₅ := by
    refine .cons (t := s₃) ?_ (.cons (t := s₄) ?_ (.single ?_))
    · exact step_message_eq_some.mpr ⟨rfl, rfl, rfl⟩
    · exact step_message_eq_some.mpr ⟨hc₃, hconn 0, rfl⟩
    · exact step_message_eq_some.mpr ⟨hc₄.trans hc₃, h₄ (hconn 1), rfl⟩
  obtain ⟨socket, hx, hh⟩ := hrun.invariant_all ⟨_, rfl, rfl⟩ fun _ _ _ hi hs =>
    (keeps_handshake cfg 1 (p.phoneHandshake cfg.sha256)).step hi trivial hs
  exact ⟨s₅, .cons rfl (.cons rfl hrun), ⟨0, rfl⟩, rfl, rfl, by simp only [handshake, hx, hh]⟩

/-- For every pairing the extension's own `join-room` throws it out: in no order of the two sockets'
messages are both paired at the end. -/
theorem honest_run_never_pairs (cfg : Config) (p : Pairing) :
    (∃ y es t, HonestRun cfg p {} y es t) ∧
      ∀ s y es t, HonestRun cfg p s y es t → ¬Paired p s.sockets.length y t := by
  refine ⟨⟨1, honestEvents cfg p, exists_honestRun cfg p⟩, ?_⟩
  intro s y es t h hpaired
  exact h.gone.left _ hpaired.extension

def samplePairing : Pairing where
  sas := utf16 "123456"
  nonce := List.replicate 32 7
  key := List.replicate 32 9
  sas_numeric := by decide +kernel
  nonce_length := by decide
  key_length := by decide

def sampleConfig : Config := { sha256 := Sha256.sha256 }

theorem sample_never_pairs :
    ∃ t, HonestRun sampleConfig samplePairing {} 1 (honestEvents sampleConfig samplePairing) t ∧
      ¬Paired samplePairing 0 1 t := by
  obtain ⟨t, ht⟩ := exists_honestRun sampleConfig samplePairing
  exact ⟨t, ht, (honest_run_never_pairs sampleConfig samplePairing).2 {} 1 _ t ht⟩

theorem sample_extension_is_dropped :
    ¬∀ t, HonestRun sampleConfig samplePairing {} 1 (honestEvents sampleConfig samplePairing) t →
      Paired samplePairing 0 1 t := by
  intro h
  obtain ⟨t, ht⟩ := exists_honestRun sampleConfig samplePairing
  have hclosed : t.isConnected 0 = false := ht.gone.closed
  rw [(h t ht).connected] at hclosed
  contradiction

/-- The phone, which asks after the extension, hears that it is alone. -/
example :
    (Machine.exec (step sampleConfig) {} (honestEvents sampleConfig samplePairing)).map
        (fun t => (t.isConnected 0, t.members (roomOf samplePairing.sas), t.sent)) =
      some (false, [1], [(0, .roomJoined 1 none), (0, .errorCode "invalid_commitment"),
        (1, .roomJoined 1 none)]) := by
  decide +kernel

end Server

end SmartIdVault.Signaling
