import SmartIdVault.Signaling.Server

/-! What the events of the signaling server come down to: seven operations on its rooms and sockets.
An invariant that the operations keep is kept by every step (`Keeps.step`). -/

namespace SmartIdVault.Signaling

def RegisterRoom.accepted (data : RegisterRoom) : Bool :=
  match checkSas data.sasCode with
  | .valid _ =>
    data.roomId.truthy && data.nonce.arrayBytes.map List.length = some 32 &&
      ¬∀ key ∈ data.extensionStaticKey.arrayBytes, key.length < 32
  | _ => false

namespace Server

/-- The two states agree on sockets, rooms, metadata and history. -/
structure Same (s t : Server) : Prop where
  sockets : t.sockets = s.sockets
  members : t.members = s.members
  rooms : t.rooms = s.rooms
  roomMetadata : t.roomMetadata = s.roomMetadata
  founding : t.founding = s.founding
  history : t.history = s.history

theorem Same.refl (s : Server) : Same s s := ⟨rfl, rfl, rfl, rfl, rfl, rfl⟩

def register (s : Server) (x : SocketId) (data : RegisterRoom) : Server :=
  let s := s.found x data.roomId.key data.metadata
  { s with
    roomMetadata := Function.update s.roomMetadata data.roomId.key (some data.metadata) }.enter x
      data.roomId.key data.roomId.joinKeys

theorem register_eq (s : Server) (x : SocketId) (data : RegisterRoom) :
    ∃ founding, s.register x data = { s with
      founding
      roomMetadata := Function.update s.roomMetadata data.roomId.key (some data.metadata) }.enter x
        data.roomId.key data.roomId.joinKeys := by
  unfold register found
  split
  · exact ⟨s.founding, rfl⟩
  · exact ⟨_, rfl⟩

/-- A `register-room` changes no room unless it passes the checks. -/
theorem registerRoom_cases (s : Server) (x : SocketId) (data : RegisterRoom) :
    data.accepted = false ∧ Same s (s.registerRoom x data) ∨
      data.accepted = true ∧ s.registerRoom x data = s.register x data := by
  unfold registerRoom RegisterRoom.accepted
  cases checkSas data.sasCode with
  | throws | invalid => exact .inl ⟨rfl, rfl, rfl, rfl, rfl, rfl, rfl⟩
  | valid text =>
    simp only
    split
    · rename_i hroom
      exact .inl ⟨by simp_all, rfl, rfl, rfl, rfl, rfl, rfl⟩
    split
    · rename_i hnonce
      exact .inl ⟨by simp [hnonce], rfl, rfl, rfl, rfl, rfl, rfl⟩
    split
    · rename_i hkey
      refine .inl ⟨?_, rfl, rfl, rfl, rfl, rfl, rfl⟩
      rw [Bool.and_eq_false_iff]
      exact .inr (decide_eq_false (not_not_intro hkey))
    · rename_i hroom hnonce hkey
      refine .inr ⟨?_, rfl⟩
      simp only [Bool.and_eq_true, decide_eq_true_eq]
      exact ⟨⟨by simpa using hroom, by simpa using hnonce⟩, hkey⟩

/-- A `register-room` that is not accepted crashes the server or sends an error. -/
theorem registerRoom_refused (s : Server) (x : SocketId) {data : RegisterRoom}
    (h : data.accepted = false) :
    checkSas data.sasCode = .throws ∧ s.registerRoom x data = { s with crashed := true } ∨
      checkSas data.sasCode ≠ .throws ∧
        ∃ message, s.registerRoom x data = s.emit x (.error message) := by
  unfold RegisterRoom.accepted at h
  unfold registerRoom
  cases hsas : checkSas data.sasCode with
  | throws => exact .inl ⟨rfl, rfl⟩
  | invalid => exact .inr ⟨fun h => (by cases h), _, rfl⟩
  | valid text =>
    rw [hsas] at h
    simp only
    refine .inr ⟨fun h => (by cases h), ?_⟩
    split
    · exact ⟨_, rfl⟩
    split
    · exact ⟨_, rfl⟩
    split
    · exact ⟨_, rfl⟩
    · rename_i hroom hnonce hkey
      simp only [Bool.not_eq_true', Bool.not_eq_false] at hroom
      simp only [ne_eq, not_not] at hnonce
      simp only [hroom, hnonce, decide_true, Bool.true_and,
        decide_not, Bool.not_eq_false', decide_eq_true_eq] at h
      exact absurd h hkey

theorem lt_of_isConnected {s : Server} {x : SocketId} (h : s.isConnected x = true) :
    x < s.sockets.length := by
  unfold isConnected at h
  split at h
  · contradiction
  · rename_i socket hs
    exact (List.getElem?_eq_some_iff.mp hs).1

theorem isConnected_addSocket (s : Server) (handshake : Handshake) {x : SocketId}
    (hx : x < s.sockets.length) : (s.addSocket handshake).isConnected x = s.isConnected x := by
  simp only [isConnected, addSocket, List.getElem?_append_left hx]

theorem isConnected_disconnect (s : Server) (x y : SocketId) :
    (s.disconnect x).isConnected y = true ↔ s.isConnected y = true ∧ y ≠ x := by
  simp only [isConnected, disconnect, List.getElem?_modify]
  cases s.sockets[y]? with
  | none => simp
  | some socket =>
    by_cases h : x = y
    · simp [h]
    · simp [h, Ne.symm h]

theorem handshake_addSocket (s : Server) (h : Handshake) {x : SocketId}
    (hx : x < s.sockets.length) : (s.addSocket h).handshake x = s.handshake x := by
  simp only [handshake, addSocket, List.getElem?_append_left hx]

theorem handshake_disconnect (s : Server) (x y : SocketId) :
    (s.disconnect x).handshake y = s.handshake y := by
  simp only [handshake, disconnect, List.getElem?_modify]
  cases s.sockets[y]? with
  | none => rfl
  | some socket => by_cases h : x = y <;> simp [h]

theorem mem_members_enter (s : Server) (x y : SocketId) (roomId room : Key) (joins : List Key) :
    y ∈ (s.enter x roomId joins).members room ↔
      y ∈ s.members room ∨ y = x ∧ room ∈ joins := by
  simp only [enter, emit]
  split
  · rename_i h
    simp [h.1]
  · rename_i h
    refine ⟨.inl, fun hy => hy.elim id ?_⟩
    rintro ⟨rfl, hr⟩
    by_contra hne
    exact h ⟨hr, hne⟩

theorem isDeviceRevoked_same (s : Server) (deviceId : Key) (now : Nat) :
    Same s (s.isDeviceRevoked deviceId now).1 := by
  unfold isDeviceRevoked
  split
  · exact .refl s
  split
  · exact .refl s
  split
  · exact ⟨rfl, rfl, rfl, rfl, rfl, rfl⟩
  · exact .refl s

/-- What holds once the revocation is in the map, and stays when a socket goes, holds in the end. -/
theorem revoke_induction {P : Server → Prop} {s : Server} {deviceId : Utf16} {now : Nat}
    (h0 : P { s with
      revokedDevices :=
        Function.update s.revokedDevices (.str deviceId) (some (now + revocationTtlMs)) })
    (hdrop : ∀ {u x}, P u → P ((u.emit x (.error "Device revoked")).disconnect x)) :
    P (s.revoke deviceId now) := by
  unfold Server.revoke
  simp only
  generalize List.range _ = xs
  -- the sockets of the device go one after the other
  have hfold : ∀ u, P u → P (xs.foldl (fun s x =>
      if s.isConnected x && (s.handshake x).deviceId = .str deviceId then
        (s.emit x (.error "Device revoked")).disconnect x
      else s) u) := by
    induction xs with
    | nil => exact fun u hu => hu
    | cons x xs ih =>
      intro u hu
      apply ih _
      simp only
      split
      · exact hdrop hu
      · exact hu
  exact hfold _ h0

variable (cfg : Config)

/-- The operations keep `I`, where a message that registers, joins or relays meets `G`. -/
structure Keeps (G : Server → Event → Prop) (I : Server → Prop) : Prop where
  same : ∀ {s t}, Same s t → I s → I t
  connect : ∀ {s} (handshake : Handshake), I s → I (s.addSocket handshake)
  disconnect : ∀ {s} (x : SocketId), I s → I (s.disconnect x)
  register : ∀ {s x data}, I s → s.isConnected x = true → data.accepted = true →
    G s (.message x (.registerRoom (some data))) → I (s.register x data)
  join : ∀ {s x sasCode text metadata}, I s → s.isConnected x = true →
    checkSas sasCode = .valid text → s.roomMetadata (roomOf text) = some metadata →
    verifyCommitment cfg.sha256 metadata (s.handshake x).commitment = true →
    G s (.message x (.joinRoom sasCode)) → I (s.enter x (roomOf text) [roomOf text])
  cleanup : ∀ {s roomId room}, I s → s.rooms roomId = some room → room.timeout = true →
    I (s.cleanup roomId)
  relay : ∀ {s x kind sasCode payload text}, I s → s.isConnected x = true →
    checkSas sasCode = .valid text → G s (.message x (.relay kind sasCode payload)) →
    I (s.relay x kind sasCode payload)

variable {cfg}

theorem step_message_eq_some {s t : Server} {x : SocketId} {msg : ClientMessage} :
    step cfg s (.message x msg) = some t ↔
      s.crashed = false ∧ s.isConnected x = true ∧ s.receive cfg x msg = t := by
  unfold step
  cases s.crashed <;> simp

theorem crashed_of_step {s t : Server} {e : Event} (h : step cfg s e = some t) :
    s.crashed = false := by
  by_contra hc
  simp [step, Bool.not_eq_false _ ▸ hc] at h

theorem step_connection {s : Server} {handshake : Handshake} {now : Nat}
    (h : s.crashed = false) :
    step cfg s (.connection handshake now) = some (s.connection handshake now) := by
  simp [step, h]

variable {G : Server → Event → Prop} {I : Server → Prop}

namespace Keeps

variable (h : Keeps cfg G I)
include h

theorem keep {s t : Server} (hi : I s) (hsame : Same s t) : I t := h.same hsame hi

theorem drop {s : Server} (hi : I s) (x : SocketId) (msg : ServerMessage) :
    I ((s.emit x msg).disconnect x) :=
  h.disconnect x (h.keep hi ⟨rfl, rfl, rfl, rfl, rfl, rfl⟩)

theorem connection {s : Server} (hi : I s) (handshake : Handshake) (now : Nat) :
    I (s.connection handshake now) := by
  have hc := h.connect handshake hi
  unfold Server.connection
  simp only
  split
  · have hr := h.same (isDeviceRevoked_same (s.addSocket handshake)
      handshake.deviceId.key now) hc
    split
    · rename_i u hu
      rw [hu] at hr
      exact h.drop hr _ _
    · rename_i u hu
      rw [hu] at hr
      exact hr
  · exact hc

theorem revoke {s : Server} (hi : I s) (deviceId : Utf16) (now : Nat) :
    I (s.revoke deviceId now) :=
  revoke_induction (h.keep hi ⟨rfl, rfl, rfl, rfl, rfl, rfl⟩) fun hu => h.drop hu _ _

theorem joinRoom {s : Server} (hi : I s) {x : SocketId} (hx : s.isConnected x = true)
    {sasCode : JsVal} (hg : G s (.message x (.joinRoom sasCode))) :
    I (s.joinRoom cfg x sasCode) := by
  unfold Server.joinRoom
  split
  · exact h.keep hi ⟨rfl, rfl, rfl, rfl, rfl, rfl⟩
  · exact h.keep hi ⟨rfl, rfl, rfl, rfl, rfl, rfl⟩
  · rename_i text htext
    split
    · exact h.drop hi _ _
    · rename_i metadata hm
      simp only
      split
      · exact h.drop hi _ _
      · rename_i hv
        simp only [Bool.or_eq_true, Bool.not_eq_true', not_or, Bool.not_eq_false] at hv
        exact h.join hi hx htext hm hv.2 hg

theorem receive {s : Server} (hi : I s) {x : SocketId} (hx : s.isConnected x = true)
    {msg : ClientMessage} (hg : G s (.message x msg)) : I (s.receive cfg x msg) := by
  cases msg with
  | registerRoom data =>
    cases data with
    | none => exact h.keep hi ⟨rfl, rfl, rfl, rfl, rfl, rfl⟩
    | some data =>
      rcases registerRoom_cases s x data with ⟨-, hsame⟩ | ⟨hok, heq⟩
      · exact h.same hsame hi
      · rw [Server.receive, heq]
        exact h.register hi hx hok hg
  | joinRoom sasCode => exact h.joinRoom hi hx hg
  | relay kind sasCode payload =>
    cases hsas : checkSas sasCode with
    | valid text => exact h.relay hi hx hsas hg
    | invalid =>
      simp only [Server.receive, Server.relay, hsas]
      exact hi
    | throws =>
      simp only [Server.receive, Server.relay, hsas]
      exact h.keep hi ⟨rfl, rfl, rfl, rfl, rfl, rfl⟩

theorem step {s t : Server} {e : Event} (hi : I s) (hg : G s e)
    (hs : Server.step cfg s e = some t) : I t := by
  unfold Server.step at hs
  split at hs
  · contradiction
  cases e with
  | connection handshake now =>
    cases hs
    exact h.connection hi handshake now
  | message x msg =>
    simp only [Option.ite_none_right_eq_some, Option.some.injEq] at hs
    exact hs.2 ▸ h.receive hi hs.1 hg
  | disconnect x =>
    simp only [Option.ite_none_right_eq_some, Option.some.injEq] at hs
    exact hs.2 ▸ h.disconnect x hi
  | timeout roomId =>
    simp only at hs
    split at hs
    · rename_i hroom
      cases hs
      exact h.cleanup hi hroom rfl
    · contradiction
  | turnCredentials roomId now =>
    cases hs
    unfold Server.turnCredentials
    split
    · exact hi
    · exact h.keep hi ⟨rfl, rfl, rfl, rfl, rfl, rfl⟩
  | revoke deviceId now =>
    cases hs
    exact h.revoke hi deviceId now
  | tick now =>
    cases hs
    exact h.keep hi ⟨rfl, rfl, rfl, rfl, rfl, rfl⟩

end Keeps

end Server

end SmartIdVault.Signaling
