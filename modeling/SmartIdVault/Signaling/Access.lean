import SmartIdVault.Signaling.Client

/-! Who can get into a room.  `join-room` checks a commitment against the metadata of the room, but
`register-room` makes its sender a peer unseen and puts its own metadata in the place of what is
there.  Peers are the socket whose registration created the metadata and sockets with a commitment
to this first metadata as long as no other socket registers the room, except with the right to be
there and, while the room is in use, to repeat its metadata. -/

namespace SmartIdVault.Signaling

def JsVal.content : JsVal → JsVal
  | .prim k => .prim k
  | .arr _ items text => .arr 0 items text
  | .obj _ text => .obj 0 text

def Metadata.content (metadata : Metadata) : Metadata where
  sasCode := metadata.sasCode.content
  nonce := metadata.nonce.content
  extensionStaticKey := metadata.extensionStaticKey.content

theorem verifyCommitment_content (sha256 : Bytes → Bytes) (metadata : Metadata)
    (commitment : JsVal) :
    verifyCommitment sha256 metadata.content commitment =
      verifyCommitment sha256 metadata commitment := by
  obtain ⟨sasCode, nonce, extensionStaticKey⟩ := metadata
  have hbytes (v : JsVal) : v.content.arrayBytes = v.arrayBytes := by cases v <;> rfl
  simp only [verifyCommitment, Metadata.content, hbytes]
  cases sasCode with
  | prim k => rfl
  | arr ref items text => simp [JsVal.content]
  | obj ref text => simp [JsVal.content]

namespace Server

section Access

variable (cfg : Config)

/-- The socket made the first registration of the room, or its commitment verifies against the
metadata of that registration. -/
def Authorised (s : Server) (f : Founding) (x : SocketId) : Prop :=
  x = f.socket ∨ verifyCommitment cfg.sha256 f.metadata (s.handshake x).commitment = true

instance (s : Server) (f : Founding) (x : SocketId) : Decidable (Authorised cfg s f x) :=
  inferInstanceAs (Decidable (_ ∨ _))

def PeersAuthorised (s : Server) : Prop :=
  ∀ roomId room, s.rooms roomId = some room → ∀ x ∈ room.peers,
    ∃ f, s.founding roomId = some f ∧ Authorised cfg s f x

/-- A registration by a socket other than the first leaves the metadata of every room with a peer
as it is. -/
def MetadataStays (s : Server) (e : Event) : Prop :=
  ∀ x data, e = .message x (.registerRoom (some data)) →
    ∀ roomId room, s.rooms roomId = some room → room.peers ≠ [] →
      (∀ f ∈ s.founding roomId, x ≠ f.socket) → ∀ t, step cfg s e = some t →
        (t.roomMetadata roomId).map Metadata.content =
          (s.roomMetadata roomId).map Metadata.content

/-- The socket is authorised by the first metadata of the room and, unless it made the first
registration or nobody is in the room, repeats the metadata. -/
def MayRegister (s : Server) (x : SocketId) (data : RegisterRoom) : Prop :=
  ∀ f ∈ s.founding data.roomId.key, Authorised cfg s f x ∧
    (x ≠ f.socket → ∀ room ∈ s.rooms data.roomId.key, room.peers ≠ [] →
      (s.roomMetadata data.roomId.key).map Metadata.content = some data.metadata.content)

/-- A commitment that verifies against the metadata in place comes from a socket that the first
metadata authorises. -/
def MayJoin (s : Server) (x : SocketId) (roomId : Key) : Prop :=
  ∀ f ∈ s.founding roomId, ∀ metadata ∈ s.roomMetadata roomId,
    verifyCommitment cfg.sha256 metadata (s.handshake x).commitment = true → Authorised cfg s f x

instance (s : Server) (x : SocketId) (data : RegisterRoom) : Decidable (MayRegister cfg s x data) :=
  inferInstanceAs (Decidable (∀ f ∈ s.founding data.roomId.key, Authorised cfg s f x ∧
    (x ≠ f.socket → ∀ room ∈ s.rooms data.roomId.key, room.peers ≠ [] →
      (s.roomMetadata data.roomId.key).map Metadata.content = some data.metadata.content)))

instance (s : Server) (x : SocketId) (roomId : Key) : Decidable (MayJoin cfg s x roomId) :=
  inferInstanceAs (Decidable (∀ f ∈ s.founding roomId, ∀ metadata ∈ s.roomMetadata roomId,
    verifyCommitment cfg.sha256 metadata (s.handshake x).commitment = true → Authorised cfg s f x))

/-- A message that passes the first checks of `register-room` or `join-room` has a right to what it
does. -/
def Rightful (s : Server) : Event → Prop
  | .message x (.registerRoom (some data)) => data.accepted = true → MayRegister cfg s x data
  | .message x (.joinRoom sasCode) =>
    match checkSas sasCode with
    | .valid text => MayJoin cfg s x (roomOf text)
    | _ => True
  | _ => True

instance : ∀ s e, Decidable (Rightful cfg s e)
  | s, .message x (.registerRoom (some data)) =>
    inferInstanceAs (Decidable (data.accepted = true → MayRegister cfg s x data))
  | s, .message x (.joinRoom sasCode) =>
    match h : checkSas sasCode with
    | .valid text => decidable_of_iff (MayJoin cfg s x (roomOf text)) (by simp only [Rightful, h])
    | .throws | .invalid => isTrue (by simp only [Rightful, h])
  | _, .message _ (.registerRoom none) | _, .message _ (.relay ..) => isTrue trivial
  | _, .connection .. | _, .disconnect _ | _, .timeout _ => isTrue trivial
  | _, .turnCredentials .. | _, .revoke .. | _, .tick _ => isTrue trivial

/-! ### The invariant -/

structure AccessInv (s : Server) : Prop where
  peers : PeersAuthorised cfg s
  known : ∀ roomId room, s.rooms roomId = some room → ∀ x ∈ room.peers, x < s.sockets.length
  founded : ∀ roomId, (s.founding roomId).isSome = (s.roomMetadata roomId).isSome

end Access

variable {cfg : Config}

theorem mem_of_mem_leave {x y : SocketId} {room : Room} (h : y ∈ (room.leave x).peers) :
    y ∈ room.peers := by
  unfold Room.leave at h
  split at h
  · exact (List.mem_filter.mp h).1
  · exact h

theorem mem_add {x y : SocketId} {room : Option Room} :
    y ∈ (Room.add x room).peers ↔ y = x ∨ ∃ r ∈ room, y ∈ r.peers := by
  cases room with
  | none => simp [Room.add]
  | some r =>
    simp only [Room.add, Option.getD_some, Option.mem_some_iff, exists_eq_left']
    split
    · rename_i hx
      exact ⟨.inr, fun h => h.elim (· ▸ hx) id⟩
    · simp [or_comm]

theorem AccessInv.enter {s : Server} (h : AccessInv cfg s) {x : SocketId} {roomId : Key}
    (hx : x < s.sockets.length) {f : Founding} (hf : s.founding roomId = some f)
    (hauth : Authorised cfg s f x) (joins : List Key) : AccessInv cfg (s.enter x roomId joins) := by
  -- a peer of a room was one before or is the socket that enters
  have hpeer : ∀ r room, (s.enter x roomId joins).rooms r = some room → ∀ y ∈ room.peers,
      y = x ∧ r = roomId ∨ ∃ room', s.rooms r = some room' ∧ y ∈ room'.peers := by
    intro r room hr y hy
    simp only [Server.enter, emit, Function.update_apply] at hr
    split at hr
    · rename_i heq
      subst heq
      cases hr
      rcases mem_add.mp hy with rfl | ⟨room', hr', hy⟩
      · exact .inl ⟨rfl, rfl⟩
      · exact .inr ⟨room', hr', hy⟩
    · exact .inr ⟨room, hr, hy⟩
  refine ⟨?_, ?_, h.founded⟩
  · intro r room hr y hy
    rcases hpeer r room hr y hy with ⟨rfl, rfl⟩ | ⟨room', hr', hy⟩
    · exact ⟨f, hf, hauth⟩
    · exact h.peers r room' hr' y hy
  · intro r room hr y hy
    rcases hpeer r room hr y hy with ⟨rfl, rfl⟩ | ⟨room', hr', hy⟩
    · exact hx
    · exact h.known r room' hr' y hy

/-- The first registration of a room founds it, while nobody is in it; another one comes from a
socket that the first authorises. -/
theorem AccessInv.register {s : Server} (h : AccessInv cfg s) {x : SocketId} {data : RegisterRoom}
    (hx : x < s.sockets.length) (hauth : ∀ f ∈ s.founding data.roomId.key, Authorised cfg s f x) :
    AccessInv cfg (s.register x data) := by
  have hfounded : (s.founding data.roomId.key).isSome = _ := h.founded _
  unfold Server.register found
  split
  · rename_i hmeta
    obtain ⟨f, hf⟩ := Option.isSome_iff_exists.mp (hfounded.trans hmeta)
    refine AccessInv.enter (f := f) ?_ ?_ ?_ ?_ _
    · refine ⟨h.peers, h.known, ?_⟩
      intro r
      rw [h.founded r]
      simp only [Function.update_apply]
      split
      · rename_i hr
        rw [hr, hmeta, Option.isSome_some]
      · rfl
    · exact hx
    · exact hf
    · exact hauth f hf
  · rename_i hmeta
    have hnone : s.founding data.roomId.key = none := by
      rwa [← Option.not_isSome_iff_eq_none, hfounded]
    refine AccessInv.enter (f := ⟨x, data.metadata⟩) ?_ ?_ ?_ ?_ _
    · refine ⟨?_, h.known, ?_⟩
      · intro r room hr y hy
        obtain ⟨f, hf, hauth⟩ := h.peers r room hr y hy
        refine ⟨f, ?_, hauth⟩
        change Function.update s.founding _ _ r = some f
        rwa [Function.update_of_ne]
        rintro rfl
        rw [hnone] at hf
        contradiction
      · intro r
        simp only [Function.update_apply]
        split
        · rfl
        · exact h.founded r
    · exact hx
    · exact Function.update_self ..
    · exact .inl rfl

theorem keeps_accessInv (cfg : Config) : Keeps cfg (Rightful cfg) (AccessInv cfg) where
  same {s t} hsame h := by
    obtain ⟨h1, h2, h3, h4, h5, h6⟩ := hsame
    have hh (x : SocketId) : t.handshake x = s.handshake x := by
      unfold handshake
      rw [h1]
    refine ⟨?_, ?_, ?_⟩
    · simpa only [PeersAuthorised, Authorised, h3, h5, hh] using h.peers
    · simpa only [h1, h3] using h.known
    · simpa only [h4, h5] using h.founded
  connect {s} handshake h := by
    refine ⟨?_, ?_, h.founded⟩
    · intro r room hr x hx
      obtain ⟨f, hf, hauth⟩ := h.peers r room hr x hx
      refine ⟨f, hf, ?_⟩
      rwa [Authorised, handshake_addSocket s handshake (h.known r room hr x hx)]
    · intro r room hr x hx
      simpa only [addSocket, List.length_append] using Nat.lt_add_right _ (h.known r room hr x hx)
  disconnect {s} y h := by
    have hpeer : ∀ r room, (s.disconnect y).rooms r = some room → ∀ x ∈ room.peers,
        ∃ room', s.rooms r = some room' ∧ x ∈ room'.peers := by
      intro r room hr x hx
      obtain ⟨room', hr', rfl⟩ := Option.map_eq_some_iff.mp hr
      exact ⟨room', hr', mem_of_mem_leave hx⟩
    refine ⟨?_, ?_, h.founded⟩
    · intro r room hr x hx
      obtain ⟨room', hr', hx⟩ := hpeer r room hr x hx
      obtain ⟨f, hf, hauth⟩ := h.peers r room' hr' x hx
      refine ⟨f, hf, ?_⟩
      rwa [Authorised, handshake_disconnect]
    · intro r room hr x hx
      obtain ⟨room', hr', hx⟩ := hpeer r room hr x hx
      simpa [disconnect] using h.known r room' hr' x hx
  register h hx hok hg := h.register (lt_of_isConnected hx) fun f hf => (hg hok f hf).1
  join {s x sasCode text metadata} h hx hsas hm hv hg := by
    have hfounded : (s.founding (roomOf text)).isSome = _ := h.founded _
    rw [hm] at hfounded
    obtain ⟨f, hf⟩ := Option.isSome_iff_exists.mp hfounded
    simp only [Rightful, hsas] at hg
    exact h.enter (lt_of_isConnected hx) hf (hg f hf metadata hm hv) _
  cleanup {s roomId _} h _ _ := by
    refine ⟨?_, ?_, ?_⟩
    · intro r room hr x hx
      simp only [cleanup, Function.update_apply] at hr ⊢
      split at hr
      · contradiction
      · rename_i hne
        rw [if_neg hne]
        exact h.peers r room hr x hx
    · intro r room hr x hx
      simp only [cleanup, Function.update_apply] at hr
      split at hr
      · contradiction
      · exact h.known r room hr x hx
    · intro r
      simp only [cleanup, Function.update_apply]
      split
      · rfl
      · exact h.founded r
  relay h _ hsas _ := by
    simp only [relay, hsas]
    exact ⟨h.peers, h.known, h.founded⟩

theorem accessInv_init : AccessInv cfg {} where
  peers := by simp [PeersAuthorised]
  known := by simp
  founded _ := rfl

theorem roomMetadata_register (s : Server) (x : SocketId) (data : RegisterRoom) :
    (s.register x data).roomMetadata =
      Function.update s.roomMetadata data.roomId.key (some data.metadata) := by
  obtain ⟨founding, heq⟩ := register_eq s x data
  rw [heq]
  rfl

theorem founding_register {s : Server} {x : SocketId} {data : RegisterRoom}
    (h : (s.roomMetadata data.roomId.key).isSome) :
    (s.register x data).founding = s.founding := by
  rw [Server.register, found, if_pos h]
  rfl

theorem metadataStays_of_rightful {s : Server} {e : Event} (h : AccessInv cfg s)
    (hg : Rightful cfg s e) : MetadataStays cfg s e := by
  rintro x data rfl r room hroom hne hother t hs
  obtain ⟨-, -, rfl⟩ := step_message_eq_some.mp hs
  obtain ⟨-, hsame⟩ | ⟨hok, heq⟩ := registerRoom_cases s x data
  · rw [receive, hsame.roomMetadata]
  rw [receive, heq, roomMetadata_register]
  by_cases hr : r = data.roomId.key
  · subst hr
    obtain ⟨y, hy⟩ := List.exists_mem_of_ne_nil _ hne
    obtain ⟨f, hf, -⟩ := h.peers _ room hroom y hy
    rw [Function.update_self]
    exact ((hg hok f hf).2 (hother f hf) room hroom hne).symm
  · rw [Function.update_of_ne hr]

theorem truthy_of_verifyCommitment {sha256 : Bytes → Bytes} {metadata : Metadata}
    {commitment : JsVal} (h : verifyCommitment sha256 metadata commitment = true) :
    commitment.truthy = true := by
  unfold verifyCommitment at h
  split at h
  · rename_i c _ _ _ _ _ _
    cases c with
    | nil => simp at h
    | cons => rfl
  · contradiction

theorem joinRoom_eq_enter {s : Server} {x : SocketId} {sasCode : JsVal} {text : Utf16}
    {metadata : Metadata} (hsas : checkSas sasCode = .valid text)
    (hm : s.roomMetadata (roomOf text) = some metadata)
    (hv : verifyCommitment cfg.sha256 metadata (s.handshake x).commitment = true) :
    s.joinRoom cfg x sasCode = s.enter x (roomOf text) [roomOf text] := by
  simp [joinRoom, hsas, hm, hv, truthy_of_verifyCommitment hv]

theorem mem_peers_enter (s : Server) (x : SocketId) (roomId : Key) (joins : List Key) :
    ∃ room, (s.enter x roomId joins).rooms roomId = some room ∧ x ∈ room.peers :=
  ⟨_, Function.update_self .., mem_add.mpr (.inl rfl)⟩

/-- A message without right lets a socket in that the first metadata does not authorise, or replaces
the metadata of a room in use. -/
theorem rightful_of_access {s t : Server} {e : Event} (h : AccessInv cfg s)
    (hs : step cfg s e = some t) (hpeers : PeersAuthorised cfg t) (hstays : MetadataStays cfg s e) :
    Rightful cfg s e := by
  unfold Rightful
  split
  · rename_i x data
    intro hok f hf
    obtain ⟨-, -, rfl⟩ := step_message_eq_some.mp hs
    have hreceive : s.receive cfg x (.registerRoom (some data)) = s.register x data := by
      obtain ⟨hno, -⟩ | ⟨-, heq⟩ := registerRoom_cases s x data
      · rw [hok] at hno
        contradiction
      · exact heq
    have hmeta : (s.roomMetadata data.roomId.key).isSome := by
      rw [← h.founded, hf, Option.isSome_some]
    rw [hreceive] at hpeers
    refine ⟨?_, fun hne room hroom hpeer => ?_⟩
    · have hin : ∃ room, (s.register x data).rooms data.roomId.key = some room ∧ x ∈ room.peers := by
        obtain ⟨founding, heq⟩ := register_eq s x data
        rw [heq]
        exact mem_peers_enter ..
      obtain ⟨room, hroom, hx⟩ := hin
      obtain ⟨f', hf', hauth⟩ := hpeers _ room hroom x hx
      rw [founding_register hmeta, hf] at hf'
      cases hf'
      have hhandshake : (s.register x data).handshake x = s.handshake x := by
        obtain ⟨founding, heq⟩ := register_eq s x data
        rw [heq]
        rfl
      rwa [Authorised, hhandshake] at hauth
    · have hkept := hstays x data rfl _ room hroom hpeer (fun f' hf' => ?_) _ hs
      · rw [hreceive, roomMetadata_register, Function.update_self] at hkept
        exact hkept.symm
      · rw [hf] at hf'
        cases hf'
        exact hne
  · rename_i x sasCode
    split
    · rename_i text hsas
      intro f hf metadata hm hv
      obtain ⟨-, -, rfl⟩ := step_message_eq_some.mp hs
      rw [receive, joinRoom_eq_enter hsas hm hv] at hpeers
      obtain ⟨room, hroom, hx⟩ := mem_peers_enter s x (roomOf text) [roomOf text]
      obtain ⟨f', hf', hauth⟩ := hpeers _ room hroom x hx
      obtain rfl : f = f' := Option.some.inj (hf.symm.trans hf')
      exact hauth
    · trivial
  · trivial

/-- Along every run, the peers of every room are authorised by the registration that created its
metadata and no other socket's registration replaces the metadata of a room with peers, exactly when
every message has a right to what it does. -/
theorem roomAccess_iff_rightful {es : List Event} {t : Server} (hrun : Run cfg {} es t) :
    Machine.Everywhere (step cfg) (PeersAuthorised cfg) {} es ∧
        Machine.Throughout (step cfg) (MetadataStays cfg) {} es ↔
      Machine.Throughout (step cfg) (Rightful cfg) {} es := by
  have hstep (s e t) (h : AccessInv cfg s) (hg : Rightful cfg s e) (hs : step cfg s e = some t) :
      AccessInv cfg t := (keeps_accessInv cfg).step h hg hs
  constructor
  · rintro ⟨hpeers, hstays⟩
    refine (hrun.throughout_iff accessInv_init hstep ?_).mp
      (hpeers.throughout.and hstays)
    intro s e t h hs
    constructor
    · rintro ⟨hpeers, hstays⟩
      exact rightful_of_access h hs (hpeers t hs) hstays
    · intro hg
      refine ⟨?_, metadataStays_of_rightful h hg⟩
      intro u hu
      exact (hstep s e u h hg hu).peers
  · intro hg
    refine ⟨(Machine.everywhere_of_throughout accessInv_init hg hstep).mono fun _ h => h.peers, ?_⟩
    exact hg.of_invariant accessInv_init hstep fun _ _ h hg => metadataStays_of_rightful h hg

def hijack : RegisterRoom :=
  { samplePairing.registration with nonce := .ofBytes 2 (List.replicate 32 66) }

/-- The phone joins, and the first socket then registers the room with another nonce. -/
def ownEvents : List Event :=
  [.connection clientHandshake 0, .connection (samplePairing.phoneHandshake Sha256.sha256) 0,
    .message 0 (.registerRoom (some samplePairing.registration)),
    .message 1 (.joinRoom (.str samplePairing.sas)), .message 0 (.registerRoom (some hijack))]

theorem own_registration_keeps_access :
    ∃ t, Run sampleConfig {} ownEvents t ∧
      Machine.Everywhere (step sampleConfig) (PeersAuthorised sampleConfig) {} ownEvents ∧
        Machine.Throughout (step sampleConfig) (MetadataStays sampleConfig) {} ownEvents := by
  have hexec : (Machine.exec (step sampleConfig) {} ownEvents).isSome = true := by
    decide +kernel
  obtain ⟨t, ht⟩ := Option.isSome_iff_exists.mp hexec
  have hrun := Machine.run_of_exec ht
  exact ⟨t, hrun, (roomAccess_iff_rightful hrun).mpr (by decide +kernel)⟩

/-- The stranger is a peer of the room, and its nonce stands in the metadata. -/
theorem hijack_replaces_metadata :
    ∃ t, Run sampleConfig {} [.connection clientHandshake 0, .connection {} 0,
        .message 0 (.registerRoom (some samplePairing.registration)),
        .message 1 (.registerRoom (some hijack))] t ∧
      t.rooms (roomOf samplePairing.sas) = some ⟨[0, 1], false⟩ ∧
      t.roomMetadata (roomOf samplePairing.sas) = some hijack.metadata ∧
      ¬PeersAuthorised sampleConfig t := by
  refine ⟨_, Machine.run_of_exec rfl, by decide +kernel, by decide +kernel, fun h => ?_⟩
  obtain ⟨f, hf, hauth⟩ :=
    h (roomOf samplePairing.sas) ⟨[0, 1], false⟩ (by decide +kernel) 1 (by decide)
  obtain rfl : f = ⟨0, samplePairing.registration.metadata⟩ :=
    Option.some.inj (hf.symm.trans (by decide +kernel))
  revert hauth
  decide +kernel

/-- A room that its only peer has left keeps its metadata for a while: whoever registers it in that
time is not the first. -/
example : ¬Machine.Throughout (step sampleConfig) (Rightful sampleConfig) {}
    [.connection clientHandshake 0, .connection {} 0,
      .message 0 (.registerRoom (some samplePairing.registration)), .disconnect 0,
      .message 1 (.registerRoom (some hijack))] := by
  decide +kernel

end Server

end SmartIdVault.Signaling
