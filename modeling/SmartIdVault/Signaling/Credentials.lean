import SmartIdVault.Signaling.Client

/-! TURN credentials and the rooms they are for.  `fetchTurnCredentials` names the room by the bare
SAS code, `connectSignaling` registers it under the server's prefix.  `GET /turn-credentials` keeps
what it issues under the name it is given, a `room-joined` looks it up under the id of the room, and
only the cleanup of a room takes it away again. -/

namespace SmartIdVault.Signaling

/-- `fetchTurnCredentials`: `fetch` throws for a header value that is not Latin-1. -/
def fetchTurnCredentials (sasCode : Option Utf16) (now : Nat) : List Server.Event :=
  let header := sasCode.getD []
  if header.all (· < 256) then [.turnCredentials header now] else []

namespace Server

section Config

variable (cfg : Config)

/-- A step of the server, where a `GET` without a room id gets status 400. -/
def respond (s : Server) (e : Event) : Option Server :=
  match e with
  | .turnCredentials [] _ => if s.crashed then none else some s
  | e => step cfg s e

/-- The room id of a `GET` that has one. -/
def Event.header : Event → Option Utf16
  | .turnCredentials [] _ => none
  | .turnCredentials header _ => some header
  | _ => none

/-- The room that a message is about. -/
def Event.room : Event → Option Key
  | .message _ (.registerRoom (some data)) => some data.roomId.key
  | .message _ (.joinRoom sasCode) =>
    match checkSas sasCode with
    | .valid text => some (roomOf text)
    | _ => none
  | _ => none

/-- The header of a `GET` names the room, by its id or by its SAS code. -/
def Names (header : Utf16) (roomId : Key) : Prop := .str header = roomId ∨ roomOf header = roomId

instance (header : Utf16) (roomId : Key) : Decidable (Names header roomId) :=
  inferInstanceAs (Decidable (_ ∨ _))

/-- Credentials that were issued, and the header that asked for them. -/
structure Issue where
  header : Utf16
  credentials : TurnCredentials
  deriving DecidableEq, Repr

/-- The credentials in a `room-joined` message, and those last issued for the room. -/
structure Delivery where
  room : Key
  turnCredentials : Option TurnCredentials
  issued : Option TurnCredentials
  deriving DecidableEq, Repr

/-- The server, what has last been issued for each room since its cleanup, and the `room-joined`
messages that it has sent. -/
structure Issuing where
  server : Server := {}
  issued : Key → Option Issue := fun _ => none
  deliveries : List Delivery := []

/-- The credentials in the `room-joined` messages between two states. -/
def roomJoined (s t : Server) : List (Option TurnCredentials) :=
  (t.sent.drop s.sent.length).filterMap fun
    | (_, .roomJoined _ turnCredentials) => some turnCredentials
    | _ => none

/-- What has last been issued for each room after an event. -/
def issuedAfter (issued : Key → Option Issue) (e : Event) : Key → Option Issue :=
  match e with
  | .turnCredentials [] _ => issued
  | .turnCredentials header now =>
    match generateTurnCredentials cfg header now with
    | none => issued
    | some credentials => fun k => if Names header k then some ⟨header, credentials⟩ else issued k
  | .timeout roomId => Function.update issued roomId none
  | _ => issued

def Issuing.step (s : Issuing) (e : Event) : Option Issuing :=
  (respond cfg s.server e).map fun server =>
    { server
      issued := issuedAfter cfg s.issued e
      deliveries := s.deliveries ++
        match e.room with
        | none => []
        | some k => (roomJoined s.server server).map fun turnCredentials =>
          ⟨k, turnCredentials, (s.issued k).map Issue.credentials⟩ }

/-- Each `room-joined` carried what had last been issued for its room, and what is kept is kept for
a room in the map: one with peers, or one whose cleanup is scheduled. -/
structure Follow (s : Issuing) : Prop where
  delivered : ∀ d ∈ s.deliveries, d.turnCredentials = d.issued
  rooms : ∀ k, s.server.pendingCredentials k ≠ none → s.server.rooms k ≠ none

/-- The room into which the event lets its socket. -/
def admits (s : Server) (e : Event) : Option Key :=
  match e with
  | .message _ (.registerRoom (some data)) =>
    if data.accepted then some data.roomId.key else none
  | .message x (.joinRoom sasCode) =>
    match checkSas sasCode with
    | .valid text =>
      match s.roomMetadata (roomOf text) with
      | none => none
      | some metadata =>
        let commitment := (s.handshake x).commitment
        if !commitment.truthy || !verifyCommitment cfg.sha256 metadata commitment then none
        else some (roomOf text)
    | _ => none
  | _ => none

/-- A `GET` that is answered names a room in the map by its id, and a socket is let into a room only
if what has last been issued for the room, if anything, was asked for by its id. -/
def ByRoomId (s : Issuing) (e : Event) : Prop :=
  (∀ header ∈ e.header, cfg.secret ≠ none → s.server.rooms (.str header) ≠ none) ∧
    ∀ k ∈ admits cfg s.server e, ∀ issue ∈ s.issued k, .str issue.header = k

instance (s : Issuing) (e : Event) : Decidable (ByRoomId cfg s e) :=
  inferInstanceAs (Decidable (_ ∧ _))

end Config

variable {cfg : Config} {s t u : Server} {e : Event} {x : SocketId}

/-! ### What the events do -/

/-- The step keeps the credentials and the rooms, and sends no `room-joined`. -/
structure Quiet (s t : Server) : Prop where
  pending : t.pendingCredentials = s.pendingCredentials
  rooms : ∀ k, s.rooms k ≠ none → t.rooms k ≠ none
  sent : ∃ msgs, t.sent = s.sent ++ msgs ∧ ∀ m ∈ msgs, ∀ n c, m.2 ≠ .roomJoined n c

/-- The step keeps the credentials and the rooms, and sends a `room-joined` for `k`. -/
structure Enters (s t : Server) (k : Key) : Prop where
  pending : t.pendingCredentials = s.pendingCredentials
  rooms : ∀ k, s.rooms k ≠ none → t.rooms k ≠ none
  sent : ∃ x n, t.sent = s.sent ++ [(x, .roomJoined n (s.pendingCredentials k))]

theorem Quiet.of_eq (hp : t.pendingCredentials = s.pendingCredentials) (hr : t.rooms = s.rooms)
    (hs : t.sent = s.sent) : Quiet s t where
  pending := hp
  rooms _ h := hr ▸ h
  sent := ⟨[], by rw [hs, List.append_nil], by simp⟩

theorem Quiet.trans (h : Quiet s t) (h' : Quiet t u) : Quiet s u where
  pending := h'.pending.trans h.pending
  rooms k hk := h'.rooms k (h.rooms k hk)
  sent := by
    obtain ⟨msgs, hsent, hmsgs⟩ := h.sent
    obtain ⟨msgs', hsent', hmsgs'⟩ := h'.sent
    refine ⟨msgs ++ msgs', by rw [hsent', hsent, List.append_assoc], fun m hm => ?_⟩
    exact (List.mem_append.mp hm).elim (hmsgs m) (hmsgs' m)

theorem quiet_emit (s : Server) (x : SocketId) {msg : ServerMessage}
    (h : ∀ n c, msg ≠ .roomJoined n c) : Quiet s (s.emit x msg) where
  pending := rfl
  rooms _ hk := hk
  sent := ⟨[(x, msg)], rfl, by simpa using h⟩

theorem quiet_error (s : Server) (x : SocketId) (message : String) :
    Quiet s (s.emit x (.error message)) :=
  quiet_emit s x fun _ _ h => (by cases h)

theorem quiet_disconnect (s : Server) (x : SocketId) : Quiet s (s.disconnect x) where
  pending := rfl
  rooms k hk := by simpa [disconnect] using hk
  sent := ⟨[], by simp [disconnect], by simp⟩

theorem quiet_drop (s : Server) (x : SocketId) {msg : ServerMessage}
    (h : ∀ n c, msg ≠ .roomJoined n c) : Quiet s ((s.emit x msg).disconnect x) :=
  (quiet_emit s x h).trans (quiet_disconnect _ x)

theorem quiet_lookup (s : Server) (k : Key) (now : Nat) :
    Quiet s (s.isDeviceRevoked k now).1 := by
  unfold isDeviceRevoked
  split
  · exact .of_eq rfl rfl rfl
  split
  · exact .of_eq rfl rfl rfl
  split
  · exact .of_eq rfl rfl rfl
  · exact .of_eq rfl rfl rfl

theorem quiet_connection (s : Server) (handshake : Handshake) (now : Nat) :
    Quiet s (s.connection handshake now) := by
  have hadd : Quiet s (s.addSocket handshake) := .of_eq rfl rfl rfl
  unfold connection
  simp only
  split
  · have hlookup := hadd.trans (quiet_lookup _ handshake.deviceId.key now)
    split
    · rename_i hrevoked
      rw [hrevoked] at hlookup
      exact hlookup.trans (quiet_drop _ _ fun _ _ h => (by cases h))
    · rename_i hfree
      rw [hfree] at hlookup
      exact hlookup
  · exact hadd

theorem quiet_revoke (s : Server) (deviceId : Utf16) (now : Nat) :
    Quiet s (s.revoke deviceId now) :=
  revoke_induction (.of_eq rfl rfl rfl)
    fun hu => hu.trans (quiet_drop _ _ fun _ _ h => (by cases h))

theorem quiet_relay (s : Server) (x : SocketId) (kind : RelayKind) (sasCode payload : JsVal) :
    Quiet s (s.relay x kind sasCode payload) := by
  unfold relay
  split
  · exact .of_eq rfl rfl rfl
  · exact .of_eq rfl rfl rfl
  · refine ⟨rfl, fun _ hk => hk, _, rfl, fun m hm n c => ?_⟩
    obtain ⟨y, -, rfl⟩ := List.mem_map.mp hm
    exact fun h => (by cases h)

theorem enters_enter (s : Server) (x : SocketId) (k : Key) (joins : List Key) :
    Enters s (s.enter x k joins) k where
  pending := rfl
  rooms k' hk' := by
    simp only [enter, emit, Function.update_apply]
    split
    · simp
    · exact hk'
  sent := ⟨x, _, rfl⟩

theorem quiet_registerRoom {data : RegisterRoom} (h : data.accepted = false) :
    Quiet s (s.registerRoom x data) := by
  rcases registerRoom_refused s x h with ⟨-, heq⟩ | ⟨-, message, heq⟩
  · rw [heq]
    exact .of_eq rfl rfl rfl
  · rw [heq]
    exact quiet_error s x message

theorem enters_registerRoom {data : RegisterRoom} (h : data.accepted = true) :
    Enters s (s.registerRoom x data) data.roomId.key := by
  rcases registerRoom_cases s x data with ⟨hno, -⟩ | ⟨-, heq⟩
  · rw [h] at hno
    cases hno
  · obtain ⟨founding, hregister⟩ := register_eq s x data
    rw [heq, hregister]
    obtain ⟨hpending, hrooms, hsent⟩ := enters_enter { s with
      founding
      roomMetadata := Function.update s.roomMetadata data.roomId.key (some data.metadata) } x
        data.roomId.key data.roomId.joinKeys
    exact ⟨hpending, hrooms, hsent⟩

/-- A step that is neither a `GET` nor a timer is quiet, or lets a socket into a room. -/
theorem step_cases (h : step cfg s e = some t)
    (hget : ∀ header now, e ≠ .turnCredentials header now) (htimeout : ∀ k, e ≠ .timeout k) :
    admits cfg s e = none ∧ Quiet s t ∨
      ∃ k, admits cfg s e = some k ∧ e.room = some k ∧ Enters s t k := by
  unfold step at h
  split at h
  · cases h
  cases e with
  | connection handshake now =>
    cases h
    exact .inl ⟨rfl, quiet_connection s handshake now⟩
  | disconnect x =>
    simp only [Option.ite_none_right_eq_some, Option.some.injEq] at h
    exact .inl ⟨rfl, h.2 ▸ quiet_disconnect s x⟩
  | timeout k => exact absurd rfl (htimeout k)
  | turnCredentials header now => exact absurd rfl (hget header now)
  | revoke deviceId now =>
    cases h
    exact .inl ⟨rfl, quiet_revoke s deviceId now⟩
  | tick now =>
    cases h
    exact .inl ⟨rfl, .of_eq rfl rfl rfl⟩
  | message x msg =>
    simp only [Option.ite_none_right_eq_some, Option.some.injEq] at h
    obtain ⟨-, rfl⟩ := h
    cases msg with
    | relay kind sasCode payload => exact .inl ⟨rfl, quiet_relay s x kind sasCode payload⟩
    | registerRoom data =>
      cases data with
      | none => exact .inl ⟨rfl, .of_eq rfl rfl rfl⟩
      | some data =>
        cases haccepted : data.accepted with
        | false => exact .inl ⟨by simp [admits, haccepted], quiet_registerRoom haccepted⟩
        | true =>
          exact .inr ⟨_, by simp [admits, haccepted], rfl, enters_registerRoom haccepted⟩
    | joinRoom sasCode =>
      simp only [admits, Event.room, receive, joinRoom]
      cases checkSas sasCode with
      | throws => exact .inl ⟨rfl, .of_eq rfl rfl rfl⟩
      | invalid => exact .inl ⟨rfl, quiet_error s x _⟩
      | valid text =>
        simp only
        cases s.roomMetadata (roomOf text) with
        | none => exact .inl ⟨rfl, quiet_drop s x fun _ _ h => (by cases h)⟩
        | some metadata =>
          simp only
          split
          · exact .inl ⟨rfl, quiet_drop s x fun _ _ h => (by cases h)⟩
          · exact .inr ⟨_, rfl, rfl, enters_enter s x _ _⟩

theorem roomJoined_of_quiet (h : Quiet s t) : roomJoined s t = [] := by
  obtain ⟨msgs, hsent, hmsgs⟩ := h.sent
  rw [roomJoined, hsent, List.drop_left]
  refine List.filterMap_eq_nil_iff.mpr fun m hm => ?_
  obtain ⟨x, msg⟩ := m
  cases msg with
  | roomJoined n c => exact absurd rfl (hmsgs _ hm n c)
  | error | errorCode | relay => rfl

theorem roomJoined_of_enters {k : Key} (h : Enters s t k) :
    roomJoined s t = [s.pendingCredentials k] := by
  obtain ⟨x, n, hsent⟩ := h.sent
  rw [roomJoined, hsent, List.drop_left]
  rfl

/-! ### Usernames -/

theorem colon_not_mem_timestamp (n : Nat) : 0x3A ∉ utf16 (toString n) := by
  intro h
  obtain ⟨c, hc, hu⟩ := List.mem_flatMap.mp h
  rw [show (toString n).toList = Nat.toDigits 10 n from String.toList_ofList] at hc
  have hdigit := Nat.isDigit_of_mem_toDigits (by decide) (by decide) hc
  have hle : c.toNat ≤ 57 := (Char.isDigit_iff_toNat.mp hdigit).2
  rw [Utf16.units, if_pos (by omega), List.mem_singleton] at hu
  have hcolon := congrArg UInt16.toNat hu
  rw [UInt16.toNat_ofNat_of_lt' (hle.trans_lt (by decide))] at hcolon
  have hcode : c.toNat = 58 := hcolon.symm
  omega

/-- Credentials for a room by its SAS code and by its id differ, whenever they are issued. -/
theorem credentials_ne {header : Utf16} {now now' : Nat} {c c' : TurnCredentials}
    (h : generateTurnCredentials cfg header now = some c)
    (h' : generateTurnCredentials cfg (roomPrefix ++ header) now' = some c') : c ≠ c' := by
  obtain ⟨secret, hsecret, rfl⟩ := Option.map_eq_some_iff.mp h
  obtain ⟨secret', hsecret', rfl⟩ := Option.map_eq_some_iff.mp h'
  intro heq
  have husername := congrArg TurnCredentials.username heq
  simp only [← List.append_assoc] at husername
  have hname := List.append_cancel_right husername
  -- the prefix ends in a colon, so the first timestamp would have to contain one
  have hending : roomPrefix = utf16 "smartid2:" ++ utf16 ":" := by decide
  rw [hending, ← List.append_assoc] at hname
  have htimestamp := List.append_cancel_right hname
  have hcolon : 0x3A ∈ utf16 (toString (now / 1000 + turnCredentialTtl)) := by
    rw [htimestamp]
    exact List.mem_append_left _ (List.mem_append_right _ (by decide))
  exact colon_not_mem_timestamp _ hcolon

/-! ### The invariant -/

/-- What is kept was issued for the name it is kept under, and is the last of it that was issued for
a room if that was asked for by the room's id. -/
structure Kept (cfg : Config) (s : Issuing) : Prop where
  follow : Follow s
  pending : ∀ k c, s.server.pendingCredentials k = some c →
    ∃ header now, k = .str header ∧ generateTurnCredentials cfg header now = some c
  issued : ∀ k issue, s.issued k = some issue →
    Names issue.header k ∧
      ∃ now, generateTurnCredentials cfg issue.header now = some issue.credentials
  last : ∀ k issue, s.issued k = some issue → .str issue.header = k →
    s.server.pendingCredentials k = some issue.credentials
  nothing : ∀ k, s.issued k = none → s.server.pendingCredentials k = none

theorem kept_empty : Kept cfg {} where
  follow := ⟨fun _ h => (by cases h), fun _ h => absurd rfl h⟩
  pending _ _ h := by cases h
  issued _ _ h := by cases h
  last _ _ h := by cases h
  nothing _ _ := rfl

variable {i j : Issuing}

theorem step_turnCredentials {s t : Server} {header : Utf16} {now : Nat}
    (h : Server.step cfg s (.turnCredentials header now) = some t) :
    t = s.turnCredentials cfg header now := by
  have hcrashed := crashed_of_step h
  rw [Server.step, hcrashed] at h
  cases h
  rfl

theorem step_timeout {s t : Server} {k : Key} (h : Server.step cfg s (.timeout k) = some t) :
    t = s.cleanup k := by
  have hcrashed := crashed_of_step h
  rw [Server.step, hcrashed] at h
  simp only [Bool.false_eq_true, if_false] at h
  split at h
  · cases h
    rfl
  · cases h

/-- The step is an answered `GET`, a timer, a socket that enters a room, or none of these. -/
theorem Issuing.step_cases (h : i.step cfg e = some j) :
    (∃ header now credentials, e = .turnCredentials header now ∧ e.header = some header ∧
      generateTurnCredentials cfg header now = some credentials ∧
      j = { i with
        server := { i.server with
          pendingCredentials :=
            Function.update i.server.pendingCredentials (.str header) (some credentials) }
        issued := fun k => if Names header k then some ⟨header, credentials⟩ else i.issued k }) ∨
    (∃ k, e = .timeout k ∧
      j = { i with
        server := i.server.cleanup k
        issued := Function.update i.issued k none }) ∨
    (∃ k server, e.header = none ∧ admits cfg i.server e = some k ∧ Enters i.server server k ∧
      j = { i with
        server
        deliveries := i.deliveries ++
          [⟨k, i.server.pendingCredentials k, (i.issued k).map Issue.credentials⟩] }) ∨
    ∃ server, (∀ header ∈ e.header, cfg.secret = none) ∧ admits cfg i.server e = none ∧
      Quiet i.server server ∧ j = { i with server } := by
  obtain ⟨server, hserver, rfl⟩ := Option.map_eq_some_iff.mp h
  unfold respond at hserver
  split at hserver
  · -- the `GET` without a room id
    simp only [Option.ite_none_left_eq_some, Option.some.injEq] at hserver
    obtain ⟨-, rfl⟩ := hserver
    refine .inr (.inr (.inr ⟨_, fun _ h => (by cases h), rfl, .of_eq rfl rfl rfl, ?_⟩))
    simp only [issuedAfter, Event.room, List.append_nil]
  rename_i hheader
  by_cases hget : ∃ header now, e = .turnCredentials header now
  · obtain ⟨header, now, rfl⟩ := hget
    have hne : header ≠ [] := fun h => hheader now (by rw [h])
    obtain ⟨u, us, rfl⟩ := List.exists_cons_of_ne_nil hne
    obtain rfl := step_turnCredentials hserver
    simp only [turnCredentials, issuedAfter, Event.room, List.append_nil]
    cases hissue : generateTurnCredentials cfg (u :: us) now with
    | none =>
      refine .inr (.inr (.inr ⟨_, fun _ _ => ?_, rfl, .of_eq rfl rfl rfl, rfl⟩))
      exact Option.map_eq_none_iff.mp hissue
    | some credentials => exact .inl ⟨_, now, credentials, rfl, rfl, hissue, rfl⟩
  by_cases htimeout : ∃ k, e = .timeout k
  · obtain ⟨k, rfl⟩ := htimeout
    obtain rfl := step_timeout hserver
    simp only [issuedAfter, Event.room, List.append_nil]
    exact .inr (.inl ⟨k, rfl, rfl⟩)
  rw [not_exists] at htimeout
  simp only [not_exists] at hget
  obtain ⟨hissued, hnone⟩ : issuedAfter cfg i.issued e = i.issued ∧ e.header = none := by
    cases e with
    | turnCredentials header now => exact absurd rfl (hget header now)
    | timeout k => exact absurd rfl (htimeout k)
    | connection | message | disconnect | revoke | tick => exact ⟨rfl, rfl⟩
  rcases Server.step_cases hserver hget htimeout with ⟨hadmits, hquiet⟩ |
    ⟨k, hadmits, hroom, henters⟩
  · refine .inr (.inr (.inr ⟨server, by simp [hnone], hadmits, hquiet, ?_⟩))
    rw [hissued, roomJoined_of_quiet hquiet]
    cases e.room <;> simp
  · refine .inr (.inr (.inl ⟨k, server, hnone, hadmits, henters, ?_⟩))
    rw [hissued, hroom, roomJoined_of_enters henters]
    rfl

theorem generate_secret {header : Utf16} {now : Nat} {c : TurnCredentials}
    (h : generateTurnCredentials cfg header now = some c) : cfg.secret ≠ none := by
  obtain ⟨secret, hsecret, -⟩ := Option.map_eq_some_iff.mp h
  rw [hsecret]
  exact fun h => (by cases h)

theorem Kept.get (h : Kept cfg i) {header : Utf16} {now : Nat} {credentials : TurnCredentials}
    (hissue : generateTurnCredentials cfg header now = some credentials)
    (hroom : i.server.rooms (.str header) ≠ none) :
    Kept cfg { i with
      server := { i.server with
        pendingCredentials :=
          Function.update i.server.pendingCredentials (.str header) (some credentials) }
      issued := fun k => if Names header k then some ⟨header, credentials⟩ else i.issued k } := by
  refine ⟨⟨h.follow.delivered, fun k hk => ?_⟩, fun k c hk => ?_, fun k issue hk => ?_,
    fun k issue hk hname => ?_, fun k hk => ?_⟩
  · by_cases heq : k = .str header
    · exact heq ▸ hroom
    · simp only [Function.update_of_ne heq] at hk
      exact h.follow.rooms k hk
  · by_cases heq : k = .str header
    · simp only [heq, Function.update_self, Option.some.injEq] at hk
      exact ⟨header, now, heq, hk ▸ hissue⟩
    · simp only [Function.update_of_ne heq] at hk
      exact h.pending k c hk
  · simp only at hk
    split at hk
    · rename_i hname
      cases hk
      exact ⟨hname, now, hissue⟩
    · exact h.issued k issue hk
  · simp only at hk ⊢
    split at hk
    · cases hk
      rw [← hname, Function.update_self]
    · rename_i hother
      have hne : k ≠ .str header := fun heq => hother (.inl heq.symm)
      rw [Function.update_of_ne hne]
      exact h.last k issue hk hname
  · simp only at hk ⊢
    split at hk
    · cases hk
    · rename_i hother
      have hne : k ≠ .str header := fun heq => hother (.inl heq.symm)
      rw [Function.update_of_ne hne]
      exact h.nothing k hk

theorem Kept.cleanup (h : Kept cfg i) (k : Key) :
    Kept cfg { i with
      server := i.server.cleanup k
      issued := Function.update i.issued k none } := by
  have hother {k' : Key} (hne : k' ≠ k) : (i.server.cleanup k).rooms k' = i.server.rooms k' ∧
      (i.server.cleanup k).pendingCredentials k' = i.server.pendingCredentials k' :=
    ⟨Function.update_of_ne hne .., Function.update_of_ne hne ..⟩
  have hself : (i.server.cleanup k).pendingCredentials k = none := Function.update_self ..
  have hissued : Function.update i.issued k none k = none := Function.update_self ..
  refine ⟨⟨h.follow.delivered, fun k' hk => ?_⟩, fun k' c hk => ?_, fun k' issue hk => ?_,
    fun k' issue hk hname => ?_, fun k' hk => ?_⟩
  all_goals
    by_cases heq : k' = k
    · subst heq
      simp only [hself, hissued, ne_eq, not_true_eq_false, reduceCtorEq] at hk ⊢
  all_goals simp only [hother heq, Function.update_of_ne heq] at hk ⊢
  · exact h.follow.rooms k' hk
  · exact h.pending k' c hk
  · exact h.issued k' issue hk
  · exact h.last k' issue hk hname
  · exact h.nothing k' hk

/-- A step that leaves the credentials alone. -/
theorem Kept.frame (h : Kept cfg i) {server : Server} {deliveries : List Delivery}
    (hpending : server.pendingCredentials = i.server.pendingCredentials)
    (hrooms : ∀ k, i.server.rooms k ≠ none → server.rooms k ≠ none)
    (hdelivered : ∀ d ∈ deliveries, d.turnCredentials = d.issued) :
    Kept cfg { i with server, deliveries } where
  follow := ⟨hdelivered, fun k hk => hrooms k (h.follow.rooms k (hpending ▸ hk))⟩
  pending k c hk := h.pending k c (hpending ▸ hk)
  issued := h.issued
  last k issue hk hname := hpending ▸ h.last k issue hk hname
  nothing k hk := hpending ▸ h.nothing k hk

theorem Kept.delivery (h : Kept cfg i) {k : Key}
    (hname : ∀ issue ∈ i.issued k, .str issue.header = k) :
    i.server.pendingCredentials k = (i.issued k).map Issue.credentials := by
  cases hissued : i.issued k with
  | none => exact h.nothing k hissued
  | some issue => exact h.last k issue hissued (hname issue hissued)

theorem Kept.step (h : Kept cfg i) (hgood : ByRoomId cfg i e) (hs : i.step cfg e = some j) :
    Kept cfg j := by
  rcases Issuing.step_cases hs with ⟨header, now, credentials, rfl, hheader, hissue, rfl⟩ |
    ⟨k, rfl, rfl⟩ | ⟨k, server, -, hadmits, henters, rfl⟩ | ⟨server, -, -, hquiet, rfl⟩
  · exact h.get hissue (hgood.1 header hheader (generate_secret hissue))
  · exact h.cleanup k
  · refine h.frame henters.pending henters.rooms fun d hd => ?_
    rcases List.mem_append.mp hd with hd | hd
    · exact h.follow.delivered d hd
    · rw [List.mem_singleton.mp hd]
      exact h.delivery (hgood.2 k hadmits)
  · exact h.frame hquiet.pending hquiet.rooms h.follow.delivered

/-- A `GET` under another name, or a room whose credentials were asked for by its SAS code, breaks
the agreement. -/
theorem Kept.breaks (h : Kept cfg i) (hbad : ¬ByRoomId cfg i e) (hs : i.step cfg e = some j) :
    ¬Follow j := by
  intro hfollow
  refine hbad ?_
  rcases Issuing.step_cases hs with ⟨header, now, credentials, rfl, hheader, hissue, rfl⟩ |
    ⟨k, rfl, rfl⟩ | ⟨k, server, hnone, hadmits, henters, rfl⟩ | ⟨server, hget, hadmits, -, -⟩
  · refine ⟨fun header' hheader' _ => ?_, fun k hk => (by cases hk)⟩
    cases hheader.symm.trans hheader'
    refine hfollow.rooms (.str header) ?_
    simp only [Function.update_self]
    exact fun h => (by cases h)
  · exact ⟨fun _ heq => (by cases heq), fun k' hk => (by cases hk)⟩
  · refine ⟨by simp [hnone], fun k' hk issue hissue => ?_⟩
    cases hadmits.symm.trans hk
    have hdelivered := hfollow.delivered _ (List.mem_append_right _ (List.mem_singleton_self _))
    rw [show i.issued k = some issue from hissue] at hdelivered
    obtain ⟨hname, now, hgenerate⟩ := h.issued k issue hissue
    by_contra hother
    -- asked for by the SAS code, they are not what is kept under the id
    obtain ⟨header', now', hk', hgenerate'⟩ := h.pending k _ hdelivered
    have hroom : roomOf issue.header = .str header' :=
      (hname.resolve_left hother).trans hk'
    cases hroom
    exact credentials_ne hgenerate hgenerate' rfl
  · refine ⟨fun header hheader hsecret => absurd (hget header hheader) hsecret, ?_⟩
    rw [hadmits]
    exact fun k hk => (by cases hk)

/-- In a run of the server with any clients, credentials follow their room everywhere exactly if the
room is always asked for by its id, and in the map when it is. -/
theorem credentials_follow_iff {es : List Event}
    (hrun : Machine.Run (Issuing.step cfg) {} es j) :
    Machine.Everywhere (Issuing.step cfg) Follow {} es ↔
      Machine.Throughout (Issuing.step cfg) (ByRoomId cfg) {} es :=
  Machine.everywhere_iff_throughout (A := fun _ _ => True) hrun
    (Machine.throughout_of_forall fun _ _ _ => trivial) kept_empty (fun _ h => h.follow)
    (fun _ _ _ h _ hgood hs => h.step hgood hs) fun _ _ _ h _ hbad hs => h.breaks hbad hs

def turnConfig : Config := { sampleConfig with turnSecret := some (utf16 "secret") }

/-- The extension's room is registered again after a `GET` with its id. -/
def refreshEvents : List Event :=
  [.connection clientHandshake 0, .message 0 (.registerRoom (some samplePairing.registration)),
    .turnCredentials (roomPrefix ++ samplePairing.sas) 0,
    .message 0 (.registerRoom (some samplePairing.registration))]

theorem refreshed_credentials_follow : ∃ t,
    Machine.Run (Issuing.step turnConfig) {} refreshEvents t ∧
      Machine.Everywhere (Issuing.step turnConfig) Follow {} refreshEvents := by
  have hexec : (Machine.exec (Issuing.step turnConfig) {} refreshEvents).isSome = true := by
    decide +kernel
  obtain ⟨t, hrun⟩ := Machine.exists_run_of_exec hexec
  exact ⟨t, hrun, (credentials_follow_iff hrun).mpr (by decide +kernel)⟩

/-- The extension fetches credentials and connects. -/
def clientEvents : List Event :=
  fetchTurnCredentials (some samplePairing.sas) 0 ++ [.connection clientHandshake 0] ++
    (connectSignaling samplePairing.sas (some samplePairing.nonce)
      (some samplePairing.key)).map (.message 0)

/-- The credentials are not in the `room-joined`, and stay under a name that no room has. -/
theorem client_credentials_are_lost : ∃ t,
    Machine.Run (Issuing.step turnConfig) {} clientEvents t ∧
      (∃ d ∈ t.deliveries, d.room = roomOf samplePairing.sas ∧ d.turnCredentials ≠ d.issued) ∧
      t.server.pendingCredentials (.str samplePairing.sas) ≠ none ∧
      t.server.rooms (.str samplePairing.sas) = none ∧ ¬Follow t := by
  have hexec : ((Machine.exec (Issuing.step turnConfig) {} clientEvents).any fun t =>
      (t.deliveries.any fun d =>
        d.room = roomOf samplePairing.sas && d.turnCredentials ≠ d.issued) &&
      (t.server.pendingCredentials (.str samplePairing.sas)).isSome &&
      (t.server.rooms (.str samplePairing.sas)).isNone) = true := by
    decide +kernel
  obtain ⟨t, hrun, ht⟩ := Machine.exists_run_with hexec
  simp only [Bool.and_eq_true, List.any_eq_true, decide_eq_true_eq, Option.isNone_iff_eq_none,
    Option.isSome_iff_ne_none] at ht
  obtain ⟨⟨hdelivery, hpending⟩, hroom⟩ := ht
  exact ⟨t, hrun, hdelivery, hpending, hroom, fun h => h.rooms _ hpending hroom⟩

end Server

end SmartIdVault.Signaling
