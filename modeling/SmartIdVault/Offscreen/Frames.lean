import SmartIdVault.Offscreen.Document

/-! What each function of the offscreen document, and so each step, does to its signaling side: most
leave it alone, `connectSignaling` assigns a new socket, and `disconnect` drops the one in the
variable. -/

namespace SmartIdVault.Offscreen

/-- What the peer connections and the timers have no part in: the code, the sockets and their
messages, and what is known of a disconnect. -/
structure Signaling where
  sasCode : Option Utf16
  socket : Option Nat
  sockets : List Socket
  packets : List Packet
  nextNumber : Nat
  applied : List Nat
  disconnected : Bool
  lateTimeouts : List Nat

namespace Signaling

/-- `connectSignaling`. -/
def newSocket (g : Signaling) : Signaling :=
  { g with
    sockets := g.sockets ++ [{ code := g.sasCode }]
    socket := some g.sockets.length }

/-- `disconnect`, as far as the sockets go. -/
def dropSocket (g : Signaling) : Signaling :=
  match g.socket with
  | none => g
  | some j => { g with
      sockets := g.sockets.modify j fun socket => { socket with live := false }
      socket := none }

end Signaling

namespace Document

def signaling (s : Document) : Signaling where
  sasCode := s.sasCode
  socket := s.socket
  sockets := s.sockets
  packets := s.packets
  nextNumber := s.nextNumber
  applied := s.applied
  disconnected := s.disconnected
  lateTimeouts := s.lateTimeouts

variable {s t : Document} {i n : Nat} {task : Task} {creds : Option TurnCredentials}

@[simp] theorem signaling_put : (s.put i task).signaling = s.signaling := rfl

@[simp] theorem signaling_start : (s.start task).signaling = s.signaling := rfl

@[simp] theorem signaling_emit (e : Emission) : (s.emit e).signaling = s.signaling := by
  unfold emit
  split <;> rfl

@[simp] theorem signaling_modifyPc (k : Nat) (f : PeerConnection → PeerConnection) :
    (s.modifyPc k f).signaling = s.signaling := rfl

@[simp] theorem signaling_setSignalingState (k : Nat) (state : SignalingState) :
    (s.setSignalingState k state).signaling = s.signaling := rfl

@[simp] theorem signaling_setConnectionState (k : Nat) (state : ConnectionState) :
    (s.setConnectionState k state).signaling = s.signaling := rfl

@[simp] theorem signaling_setIceConnectionState (k : Nat) (state : IceConnectionState) :
    (s.setIceConnectionState k state).signaling = s.signaling := rfl

@[simp] theorem signaling_makeOffer (k : Nat) : (s.makeOffer k).signaling = s.signaling := rfl

@[simp] theorem signaling_makeQrOffer (k : Nat) : (s.makeQrOffer k).signaling = s.signaling := rfl

@[simp] theorem signaling_clearTimeout (handle : Option Nat) :
    (s.clearTimeout handle).signaling = s.signaling := by
  unfold clearTimeout
  split <;> rfl

@[simp] theorem signaling_scheduleCredsRefresh (ttl : Int) :
    (s.scheduleCredsRefresh ttl).signaling = s.signaling := rfl

@[simp] theorem signaling_setupPeerConnection (relayOnly : Bool) :
    (s.setupPeerConnection relayOnly).signaling = s.signaling := by
  simp only [setupPeerConnection]
  split <;> rfl

@[simp] theorem signaling_closePeerConnection :
    s.closePeerConnection.signaling = s.signaling := by
  unfold closePeerConnection
  split <;> rfl

@[simp] theorem signaling_createOffer : s.createOffer.signaling = s.signaling := by
  unfold createOffer
  split
  · rfl
  · split <;> rfl

@[simp] theorem signaling_attemptRelayFallback :
    s.attemptRelayFallback.signaling = s.signaling := by
  unfold attemptRelayFallback
  split
  · rfl
  · simp

@[simp] theorem signaling_scheduleReconnect : s.scheduleReconnect.signaling = s.signaling := by
  unfold scheduleReconnect
  split <;> rfl

@[simp] theorem signaling_recordConnectionState :
    s.recordConnectionState.signaling = s.signaling := rfl

@[simp] theorem signaling_endConnectionTimeout (state : Option ConnectionState) :
    (s.endConnectionTimeout state).signaling = s.signaling := by
  unfold endConnectionTimeout
  split
  · exact signaling_clearTimeout s.connectionTimeout
  · rfl

theorem signaling_reconnectAttempt (attempt : Nat) :
    { s with reconnectAttempt := attempt }.signaling = s.signaling := rfl

@[simp] theorem signaling_connectionStateChanged :
    s.connectionStateChanged.signaling = s.signaling := by
  simp only [connectionStateChanged]
  split <;> split <;> simp [signaling_reconnectAttempt]

@[simp] theorem signaling_iceConnectionStateChanged :
    s.iceConnectionStateChanged.signaling = s.signaling := by
  unfold iceConnectionStateChanged
  split
  · exact signaling_attemptRelayFallback
  · rfl

/-- A timeout that is reported after a disconnect is noted. -/
theorem signaling_fire (kind : TimerKind) : ∃ late,
    (s.fire n kind).signaling = { s.signaling with lateTimeouts := late } ∧
      (s.disconnected = false → late = s.lateTimeouts) := by
  unfold fire
  split
  · exact ⟨_, rfl, fun _ => rfl⟩
  · split
    · exact ⟨_, rfl, fun _ => rfl⟩
    · exact ⟨_, rfl, fun h => by simp [h]⟩
  · exact ⟨_, rfl, fun _ => rfl⟩

@[simp] theorem signaling_connected (socket : Socket) :
    (s.connected socket).signaling = s.signaling := by
  simp only [connected, signaling_emit]
  split
  · exact signaling_emit _
  · rfl

/-- `generateQrSdp` comes to its end when what it awaits does: with its two seconds, with a failure,
or for want of a peer connection. -/
def finishesQr (s : Document) : Task → Bool → Bool
  | .generateQrSdp _, ok => !ok || s.pc.isNone
  | .gathering, ok => ok
  | _, _ => false

theorem signaling_connectSignaling :
    s.connectSignaling.signaling = s.signaling.newSocket := rfl

theorem signaling_finishQr : (s.finishQr i).signaling = s.signaling.newSocket := rfl

theorem setupPeerConnection_pc (relayOnly : Bool) :
    (s.setupPeerConnection relayOnly).pc = some s.peerConnections.length := by
  simp only [setupPeerConnection]
  split <;> rfl

@[simp] theorem signaling_takeCredentials : (s.takeCredentials creds).signaling = s.signaling := by
  unfold takeCredentials
  split <;> rfl

theorem signaling_startFetched (offerless : Bool) :
    (s.startFetched i offerless creds).signaling =
      if offerless then s.signaling else s.signaling.newSocket := by
  simp only [startFetched, setupPeerConnection_pc]
  cases offerless with
  | true => simp
  | false => simp [signaling_connectSignaling]

theorem signaling_fetched (ht : s.fetched i creds task = some t) :
    t.signaling = if task = .startPairing false ∨ task = .reconnect
      then s.signaling.newSocket else s.signaling := by
  unfold fetched at ht
  split at ht
  next offerless =>
    obtain rfl := Option.some.inj ht
    rw [signaling_startFetched]
    cases offerless <;> rfl
  next =>
    obtain rfl := Option.some.inj ht
    rw [signaling_connectSignaling, signaling_setupPeerConnection, signaling_closePeerConnection]
    rfl
  next =>
    obtain rfl := Option.some.inj ht
    split <;> simp
  next => cases ht

theorem signaling_settle {ok : Bool} (ht : s.settle i task ok = some t) :
    t.signaling = if s.finishesQr task ok then s.signaling.newSocket else s.signaling := by
  unfold settle at ht
  split at ht <;> (try split at ht) <;> cases ht
  case h_1.isTrue.refl => split <;> rfl
  case h_2.isTrue.refl => exact signaling_emit _
  case h_4.isTrue.refl =>
    cases hpc : s.pc with
    | none => simp [finishesQr, hpc, signaling_finishQr]
    | some target => simp [finishesQr, hpc]
  case h_5.isTrue.refl =>
    cases hpc : s.pc with
    | none =>
      simp only [finishesQr, hpc, Option.isSome_none, Option.isNone_none, Bool.or_true, if_true]
      rfl
    | some target => simp [finishesQr, hpc]
  case h_10.isTrue.refl => exact signaling_emit _
  all_goals rfl

/-- A message is applied to the peer connection, or it is not. -/
theorem signaling_handle (number : Nat) (signal : Signal) :
    (s.handle number signal).signaling = s.signaling ∨
      (s.handle number signal).signaling =
        { s.signaling with applied := s.applied ++ [number] } := by
  unfold handle
  split
  · split
    · refine .inr ?_
      have h := signaling_createOffer (s := s)
      simp only [signaling, Signaling.mk.injEq] at h ⊢
      obtain ⟨hcode, hsocket, hsockets, hpackets, hnext, -, hdisc, hlate⟩ := h
      exact ⟨hcode, hsocket, hsockets, hpackets, hnext, trivial, hdisc, hlate⟩
    · exact .inl rfl
  · split
    · exact .inl rfl
    · exact .inr rfl
  · split
    · exact .inl rfl
    · split
      · exact .inr rfl
      · exact .inl rfl
  · split
    · exact .inl rfl
    · exact .inr rfl

theorem signaling_disconnectSocket :
    s.disconnectSocket.signaling = s.signaling.dropSocket := by
  unfold disconnectSocket Signaling.dropSocket
  cases h : s.socket <;> simp [signaling, h]

theorem signaling_disconnect : s.disconnect.signaling =
    { s.signaling.dropSocket with sasCode := none, disconnected := true } := by
  have h : s.clearTimers.closePeerConnection.disconnectSocket.signaling =
      s.signaling.dropSocket := by
    rw [signaling_disconnectSocket]
    simp [clearTimers]
  rw [← h]
  rfl

/-- The event comes to `connectSignaling`. -/
def connects (s : Document) : Event → Bool
  | .fetched i _ => s.tasks[i]? = some (.startPairing false) ∨ s.tasks[i]? = some .reconnect
  | .settled i ok => (s.tasks[i]?).any fun task => s.finishesQr task ok
  | _ => false

/-- What an event can do to the signaling side. -/
inductive SignalingEffect (s : Document) (e : Event) : Signaling → Prop
  | idle : SignalingEffect s e s.signaling
  | started (sasCode : Utf16) :
    SignalingEffect s e { s.signaling with sasCode := some sasCode, disconnected := false }
  | disconnected (he : e = .disconnect) :
    SignalingEffect s e { s.signaling.dropSocket with sasCode := none, disconnected := true }
  | connected (hc : s.connects e = true) : SignalingEffect s e s.signaling.newSocket
  | fired (late : List Nat) (hlate : s.disconnected = false → late = s.lateTimeouts) :
    SignalingEffect s e { s.signaling with lateTimeouts := late }
  | relayed (signal : Signal) (targets : List Nat) (hnodup : targets.Nodup)
      (hlive : ∀ j ∈ targets, s.isLive j = true) :
    SignalingEffect s e { s.signaling with
      packets := s.packets ++ targets.map fun j => { socket := j, number := s.nextNumber, signal }
      nextNumber := s.nextNumber + 1 }
  | ignored (n : Nat) (packet : Packet) (hn : s.packets[n]? = some packet) :
    SignalingEffect s e { s.signaling with packets := s.packets.eraseIdx n }
  | applied (n : Nat) (packet : Packet) (hn : s.packets[n]? = some packet) :
    SignalingEffect s e { s.signaling with
      packets := s.packets.eraseIdx n
      applied := s.applied ++ [packet.number] }

theorem step_signaling {e : Event} (ht : s.step e = some t) :
    SignalingEffect s e t.signaling := by
  cases e with
  | startPairing offerless sasCode =>
    obtain rfl := Option.some.inj ht
    exact .started sasCode
  | disconnect =>
    obtain rfl := Option.some.inj ht
    rw [signaling_disconnect]
    exact .disconnected rfl
  | fetched i creds =>
    obtain ⟨task, hi, ht⟩ := Option.bind_eq_some_iff.mp ht
    rw [signaling_fetched ht]
    split
    next hc => exact .connected (by simpa [connects, hi] using hc)
    next => exact .idle
  | fire n =>
    obtain ⟨timer, -, ht⟩ := Option.bind_eq_some_iff.mp ht
    split at ht
    · obtain rfl := Option.some.inj ht
      obtain ⟨late, hfire, hlate⟩ :=
        signaling_fire (s := s.clearTimeout (some n)) (n := n) timer.kind
      have hclear := signaling_clearTimeout (s := s) (some n)
      rw [hfire, hclear]
      refine .fired late fun hd => ?_
      exact (hlate ((congrArg Signaling.disconnected hclear).trans hd)).trans
        (congrArg Signaling.lateTimeouts hclear)
    · cases ht
  | connectionState k state =>
    obtain ⟨p, -, ht⟩ := Option.bind_eq_some_iff.mp ht
    split at ht
    · cases ht
    · obtain rfl := Option.some.inj ht
      split <;> simpa using .idle
  | iceConnectionState k state =>
    obtain ⟨p, -, ht⟩ := Option.bind_eq_some_iff.mp ht
    split at ht
    · cases ht
    · obtain rfl := Option.some.inj ht
      split <;> simpa using .idle
  | connect j =>
    obtain ⟨socket, -, ht⟩ := Option.bind_eq_some_iff.mp ht
    split at ht
    · obtain rfl := Option.some.inj ht
      simpa using .idle
    · cases ht
  | relay signal targets =>
    simp only [step] at ht
    split at ht
    next htargets =>
      obtain rfl := Option.some.inj ht
      exact .relayed signal targets htargets.1 htargets.2
    next => cases ht
  | inbound n =>
    obtain ⟨packet, hn, ht⟩ := Option.bind_eq_some_iff.mp ht
    split at ht
    · obtain rfl := Option.some.inj ht
      rcases signaling_handle (s := { s with packets := s.packets.eraseIdx n }) packet.number
        packet.signal with hs | hs
      · rw [hs]
        exact .ignored n packet hn
      · rw [hs]
        exact .applied n packet hn
    · cases ht
  | settled i ok =>
    obtain ⟨task, hi, ht⟩ := Option.bind_eq_some_iff.mp ht
    rw [signaling_settle ht]
    split
    next hc => exact .connected (by simpa [connects, hi] using hc)
    next => exact .idle

theorem closePeerConnection_pc : s.closePeerConnection.pc = none := by
  unfold closePeerConnection
  split
  next hpc => exact hpc
  next => rfl

theorem disconnect_pc : s.disconnect.pc = none := by
  have hsocket (d : Document) : d.disconnectSocket.pc = d.pc := by
    unfold disconnectSocket
    split <;> rfl
  exact (hsocket _).trans closePeerConnection_pc

theorem disconnect_socket : s.disconnect.socket = none := by
  refine (congrArg Signaling.socket signaling_disconnect).trans ?_
  unfold Signaling.dropSocket
  split
  next h => exact h
  next => rfl

end Document

end SmartIdVault.Offscreen
