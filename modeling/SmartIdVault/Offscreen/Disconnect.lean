import SmartIdVault.Offscreen.Frames

/-! The end of the offscreen document's work.  `disconnect` reaches what the variables hold, and no
call that waits looks at whether it has run: a fetch that ends after it, or the end of
`generateQrSdp`, builds up again what it has taken down. -/

namespace SmartIdVault.Offscreen

/-- The call sets up a peer connection, or arms a timer, when its fetch ends. -/
def Task.rebuilds (creds : Option TurnCredentials) : Task → Bool
  | .startPairing _ | .reconnect => true
  | .refreshCreds => creds.isSome
  | _ => false

namespace Document

/-- Nothing is left: no peer connection that is not closed, no socket that is not disconnected, in
the variables or out of them, and no timer that is armed. -/
structure Clean (s : Document) : Prop where
  pc : s.pc = none
  socket : s.socket = none
  closed : ∀ k, s.isOpen k = false
  offline : ∀ j, s.isLive j = false
  unarmed : ∀ n, s.isArmed n = false

/-- After a disconnect, and until the next pairing, nothing is left and no timeout is reported. -/
structure Final (s : Document) : Prop where
  clean : s.disconnected = true → s.Clean
  silent : s.lateTimeouts = []

/-- The variables hold all that is at work. -/
structure InReach (s : Document) : Prop where
  pc : Handles.Held (·.signalingState ≠ .closed) s.peerConnections [s.pc]
  socket : Handles.Held (·.live) s.sockets [s.socket]
  timers : Handles.Held (·.armed) s.timers
    [s.reconnectTimer, s.connectionTimeout, s.credsRefreshTimer]

/-- `disconnect` finds all in reach of the variables, and none of the calls that go on after it
builds anything. -/
def StaysDown (s : Document) : Event → Prop
  | .disconnect => s.InReach
  | .fetched i creds => s.disconnected = true → ∀ task ∈ s.tasks[i]?, task.rebuilds creds = false
  | .settled i ok => s.disconnected = true → ∀ task ∈ s.tasks[i]?, s.finishesQr task ok = false
  | _ => True

instance (s : Document) : Decidable s.InReach :=
  decidable_of_iff
    (Handles.Held (·.signalingState ≠ .closed) s.peerConnections [s.pc] ∧
      Handles.Held (·.live) s.sockets [s.socket] ∧
      Handles.Held (·.armed) s.timers [s.reconnectTimer, s.connectionTimeout, s.credsRefreshTimer])
    ⟨fun h => ⟨h.1, h.2.1, h.2.2⟩, fun h => ⟨h.pc, h.socket, h.timers⟩⟩

instance (s : Document) : ∀ e, Decidable (s.StaysDown e)
  | .disconnect => inferInstanceAs (Decidable s.InReach)
  | .fetched i creds => inferInstanceAs (Decidable
    (s.disconnected = true → ∀ task ∈ s.tasks[i]?, task.rebuilds creds = false))
  | .settled i ok => inferInstanceAs (Decidable
    (s.disconnected = true → ∀ task ∈ s.tasks[i]?, s.finishesQr task ok = false))
  | .startPairing .. | .fire _ | .connectionState .. | .iceConnectionState .. | .connect _
  | .relay .. | .inbound _ => isTrue trivial

variable {s t : Document} {i n : Nat} {task : Task} {creds : Option TurnCredentials}

/-! ### The disconnect -/

theorem isArmed_clearTimeout (handle : Option Nat) :
    (s.clearTimeout handle).isArmed n = true ↔ s.isArmed n = true ∧ some n ≠ handle := by
  unfold clearTimeout
  split
  next => simp
  next m =>
    rw [isArmed, Handles.isAlive_kill fun _ => rfl, isArmed]
    simp

theorem isArmed_disconnect (n : Nat) : s.disconnect.isArmed n = true ↔ s.isArmed n = true ∧
    some n ∉ [s.reconnectTimer, s.connectionTimeout, s.credsRefreshTimer] := by
  have htimers : s.disconnect.timers = s.clearTimers.timers := by
    simp only [disconnect]
    unfold disconnectSocket closePeerConnection
    split <;> split <;> rfl
  have harmed : s.disconnect.isArmed n = s.clearTimers.isArmed n := by
    rw [isArmed, isArmed, htimers]
  rw [harmed, clearTimers, isArmed_clearTimeout, isArmed_clearTimeout, isArmed_clearTimeout]
  simp [and_assoc]

theorem isOpen_closePeerConnection (k : Nat) :
    s.closePeerConnection.isOpen k = true ↔ s.isOpen k = true ∧ some k ≠ s.pc := by
  unfold closePeerConnection
  split
  next hpc => simp [hpc]
  next j hpc =>
    rw [isOpen, modifyPc, Handles.isAlive_kill fun _ => rfl, isOpen]
    simp [hpc]

theorem isOpen_disconnect (k : Nat) :
    s.disconnect.isOpen k = true ↔ s.isOpen k = true ∧ some k ∉ [s.pc] := by
  have hlist : s.disconnect.peerConnections =
      s.clearTimers.closePeerConnection.peerConnections := by
    simp only [disconnect]
    unfold disconnectSocket
    split <;> rfl
  have hpcs : s.clearTimers.peerConnections = s.peerConnections ∧ s.clearTimers.pc = s.pc := by
    unfold clearTimers clearTimeout
    constructor
    · split <;> split <;> split <;> rfl
    · split <;> split <;> split <;> rfl
  have h := isOpen_closePeerConnection (s := s.clearTimers) k
  rw [isOpen, isOpen, ← hlist, hpcs.1, hpcs.2] at h
  rw [isOpen, isOpen, h, List.mem_singleton]

theorem isLive_disconnect (j : Nat) :
    s.disconnect.isLive j = true ↔ s.isLive j = true ∧ some j ∉ [s.socket] := by
  have hsockets : s.disconnect.sockets = s.signaling.dropSocket.sockets :=
    congrArg Signaling.sockets signaling_disconnect
  rw [isLive, hsockets, Signaling.dropSocket]
  split
  next hnone =>
    have hnone : s.socket = none := hnone
    simp [hnone, signaling, isLive]
  next k hsome =>
    have hsome : s.socket = some k := hsome
    rw [Handles.isAlive_kill fun _ => rfl, hsome]
    simp [signaling, isLive]

/-- `disconnect` leaves nothing exactly if the variables hold all there is. -/
theorem clean_disconnect_iff : s.disconnect.Clean ↔ s.InReach := by
  have hiff {p q : Nat → Prop} {b : Nat → Bool} (h : ∀ n, b n = true ↔ p n ∧ ¬q n) :
      (∀ n, b n = false) ↔ ∀ n, p n → q n := by
    refine forall_congr' fun n => ?_
    rw [← Bool.not_eq_true, h n, not_and_not_right]
  exact ⟨fun h => ⟨(hiff isOpen_disconnect).mp h.closed, (hiff isLive_disconnect).mp h.offline,
      (hiff isArmed_disconnect).mp h.unarmed⟩,
    fun h => ⟨disconnect_pc, disconnect_socket, (hiff isOpen_disconnect).mpr h.pc,
      (hiff isLive_disconnect).mpr h.socket, (hiff isArmed_disconnect).mpr h.timers⟩⟩

theorem lateTimeouts_disconnect : s.disconnect.lateTimeouts = s.lateTimeouts := by
  refine (congrArg Signaling.lateTimeouts signaling_disconnect).trans ?_
  unfold Signaling.dropSocket
  split <;> rfl

/-! ### After it -/

/-- Where no peer connection is open, what a call awaits of the browser only ends it, unless it is
`generateQrSdp`. -/
theorem settle_of_closed {ok : Bool} (hclosed : ∀ k, s.isOpen k = false)
    (hfinish : s.finishesQr task ok = false) (ht : s.settle i task ok = some t) :
    t = s.put i .ended := by
  unfold settle at ht
  split at ht
  -- the promises of a closed peer connection, the failures of `generateQrSdp`, and the others
  all_goals try simp only [hclosed, and_false, Bool.false_eq_true, if_false] at ht
  all_goals cases ht
  case h_6.refl | h_7.refl => simp [finishesQr] at hfinish
  all_goals rfl

theorem fetched_of_not_rebuilds (hrebuilds : task.rebuilds creds = false)
    (ht : s.fetched i creds task = some t) : t = s.put i .ended := by
  unfold fetched at ht
  split at ht
  next => cases hrebuilds
  next => cases hrebuilds
  next =>
    have hnone : creds.isSome = false := hrebuilds
    simpa [hnone] using ht.symm
  next => cases ht

/-- What is said of a disconnected document does not change with its tasks and messages. -/
theorem Clean.of_eq (h : s.Clean) (hpc : t.pc = s.pc) (hsocket : t.socket = s.socket)
    (hlist : t.peerConnections = s.peerConnections) (hsockets : t.sockets = s.sockets)
    (htimers : t.timers = s.timers) : t.Clean := by
  refine ⟨hpc.trans h.pc, hsocket.trans h.socket, fun k => ?_, fun j => ?_, fun n => ?_⟩
  · rw [isOpen, hlist]
    exact h.closed k
  · rw [isLive, hsockets]
    exact h.offline j
  · rw [isArmed, htimers]
    exact h.unarmed n

/-- Only a start of a pairing, the end of a fetch, of a call, and another disconnect can happen to a
disconnected document, and messages that go nowhere. -/
theorem clean_step {e : Event} (h : s.Clean) (hdisconnected : s.disconnected = true)
    (hG : s.StaysDown e) (ht : s.step e = some t) :
    (t.disconnected = true → t.Clean) ∧ t.lateTimeouts = s.lateTimeouts := by
  have hended (i : Nat) (ht : t = s.put i .ended) :
      (t.disconnected = true → t.Clean) ∧ t.lateTimeouts = s.lateTimeouts := by
    subst ht
    exact ⟨fun _ => h.of_eq rfl rfl rfl rfl rfl, rfl⟩
  have hopen {k : Nat} {p : PeerConnection} (hp : s.peerConnections[k]? = some p) :
      p.signalingState = .closed := by
    have := h.closed k
    simpa [isOpen, Handles.isAlive, hp] using this
  have hlive {j : Nat} {socket : Socket} (hj : s.sockets[j]? = some socket) :
      socket.live = false := by
    have := h.offline j
    simpa [isLive, Handles.isAlive, hj] using this
  cases e with
  | startPairing =>
    obtain rfl := Option.some.inj ht
    exact ⟨fun hfalse => (by cases hfalse), rfl⟩
  | disconnect =>
    obtain rfl := Option.some.inj ht
    exact ⟨fun _ => clean_disconnect_iff.mpr hG, lateTimeouts_disconnect⟩
  | fetched i creds =>
    obtain ⟨task, hi, ht⟩ := Option.bind_eq_some_iff.mp ht
    exact hended i (fetched_of_not_rebuilds (hG hdisconnected task hi) ht)
  | fire n =>
    obtain ⟨timer, hn, ht⟩ := Option.bind_eq_some_iff.mp ht
    have hunarmed : timer.armed = false := by
      have := h.unarmed n
      simpa [isArmed, Handles.isAlive, hn] using this
    rw [hunarmed] at ht
    cases ht
  | connectionState k state =>
    obtain ⟨p, hp, ht⟩ := Option.bind_eq_some_iff.mp ht
    rw [if_pos (hopen hp)] at ht
    cases ht
  | iceConnectionState k state =>
    obtain ⟨p, hp, ht⟩ := Option.bind_eq_some_iff.mp ht
    rw [if_pos (hopen hp)] at ht
    cases ht
  | connect j =>
    obtain ⟨socket, hj, ht⟩ := Option.bind_eq_some_iff.mp ht
    rw [hlive hj] at ht
    cases ht
  | relay signal targets =>
    simp only [step] at ht
    split at ht
    · obtain rfl := Option.some.inj ht
      exact ⟨fun _ => h.of_eq rfl rfl rfl rfl rfl, rfl⟩
    · cases ht
  | inbound n =>
    obtain ⟨packet, -, ht⟩ := Option.bind_eq_some_iff.mp ht
    rw [h.offline packet.socket] at ht
    cases ht
  | settled i ok =>
    obtain ⟨task, hi, ht⟩ := Option.bind_eq_some_iff.mp ht
    exact hended i (settle_of_closed h.closed (hG hdisconnected task hi) ht)

/-- Only `disconnect` disconnects a document, and only then is a timeout late. -/
theorem SignalingEffect.connected_of_ne {e : Event} {g : Signaling} (he : SignalingEffect s e g)
    (hconnected : s.disconnected = false) (hne : e ≠ .disconnect) :
    g.disconnected = false ∧ g.lateTimeouts = s.lateTimeouts := by
  cases he with
  | started => exact ⟨rfl, rfl⟩
  | disconnected he => exact absurd he hne
  | fired late hlate => exact ⟨hconnected, hlate hconnected⟩
  | _ => exact ⟨hconnected, rfl⟩

theorem final_step {e : Event} (h : s.Final) (hG : s.StaysDown e) (ht : s.step e = some t) :
    t.Final := by
  cases hd : s.disconnected with
  | true =>
    obtain ⟨hclean, hlate⟩ := clean_step (h.clean hd) hd hG ht
    exact ⟨hclean, hlate.trans h.silent⟩
  | false =>
    by_cases he : e = .disconnect
    · subst he
      obtain rfl := Option.some.inj ht
      exact ⟨fun _ => clean_disconnect_iff.mpr hG, lateTimeouts_disconnect.trans h.silent⟩
    · obtain ⟨hconnected, hlate⟩ := (step_signaling ht).connected_of_ne hd he
      refine ⟨fun htrue => ?_, hlate.trans h.silent⟩
      exact absurd htrue (Bool.eq_false_iff.mp hconnected)

/-! ### What builds up again -/

theorem isOpen_setupPeerConnection (relayOnly : Bool) :
    (s.setupPeerConnection relayOnly).isOpen s.peerConnections.length = true := by
  have hlist : (s.setupPeerConnection relayOnly).peerConnections =
      s.peerConnections ++ [{ relayOnly := relayOnly }] := by
    simp only [setupPeerConnection]
    split <;> rfl
  rw [isOpen, hlist, Handles.isAlive_append rfl]
  exact .inr rfl

theorem not_clean_of_rebuilds (hrebuilds : task.rebuilds creds = true)
    (ht : s.fetched i creds task = some t) : ¬t.Clean := by
  unfold fetched at ht
  split at ht
  next offerless =>
    obtain rfl := Option.some.inj ht
    intro hclean
    have hopen := isOpen_setupPeerConnection (s := s.takeCredentials creds) false
    have hlist : (s.startFetched i offerless creds).peerConnections =
        ((s.takeCredentials creds).setupPeerConnection false).peerConnections := by
      simp only [startFetched]
      split <;> rfl
    rw [isOpen, ← hlist] at hopen
    exact absurd hopen (Bool.eq_false_iff.mp (hclean.closed _))
  next =>
    obtain rfl := Option.some.inj ht
    intro hclean
    exact absurd (isOpen_setupPeerConnection false) (Bool.eq_false_iff.mp (hclean.closed _))
  next =>
    obtain rfl := Option.some.inj ht
    intro hclean
    obtain ⟨c, rfl⟩ := Option.isSome_iff_exists.mp hrebuilds
    have harmed : Handles.isAlive (·.armed)
        (s.timers ++ [⟨.credsRefresh, max ((c.ttl - 30) * 1000) 5000, true⟩])
        s.timers.length = true :=
      (Handles.isAlive_append rfl).mpr (.inr rfl)
    exact absurd harmed (Bool.eq_false_iff.mp (hclean.unarmed _))
  next => cases ht

theorem not_clean_of_newSocket (ht : t.signaling = s.signaling.newSocket) : ¬t.Clean := by
  intro hclean
  have hsockets : t.sockets = s.sockets ++ [{ code := s.sasCode }] :=
    congrArg Signaling.sockets ht
  have hlive : t.isLive s.sockets.length = true := by
    rw [isLive, hsockets, Handles.isAlive_append rfl]
    exact .inr rfl
  exact absurd hlive (Bool.eq_false_iff.mp (hclean.offline _))

theorem not_final_of_not_staysDown {e : Event} (hG : ¬s.StaysDown e) (ht : s.step e = some t) :
    ¬t.Final := by
  cases e with
  | disconnect =>
    obtain rfl := Option.some.inj ht
    exact fun hfinal => hG (clean_disconnect_iff.mp (hfinal.clean rfl))
  | fetched i creds =>
    obtain ⟨task, hi, ht⟩ := Option.bind_eq_some_iff.mp ht
    obtain ⟨hd, hrebuilds⟩ : s.disconnected = true ∧ task.rebuilds creds = true := by
      simpa [StaysDown, hi] using hG
    intro hfinal
    refine not_clean_of_rebuilds hrebuilds ht (hfinal.clean ?_)
    refine (congrArg Signaling.disconnected (signaling_fetched ht)).trans (Eq.trans ?_ hd)
    split <;> rfl
  | settled i ok =>
    obtain ⟨task, hi, ht⟩ := Option.bind_eq_some_iff.mp ht
    obtain ⟨hd, hfinish⟩ : s.disconnected = true ∧ s.finishesQr task ok = true := by
      simpa [StaysDown, hi] using hG
    have hnew := (signaling_settle ht).trans (if_pos hfinish)
    intro hfinal
    exact not_clean_of_newSocket hnew
      (hfinal.clean ((congrArg Signaling.disconnected hnew).trans hd))
  | _ => exact absurd trivial hG

/-- After each disconnect nothing is left until the next pairing is started, and no timeout is
reported, exactly in the runs in which `disconnect` finds all in reach of the variables, and no call
builds anything after it. -/
theorem final_iff {es : List Event} (hrun : Machine.Run step {} es t) :
    Machine.Everywhere step Final {} es ↔ Machine.Throughout step StaysDown {} es :=
  Machine.everywhere_iff_throughout (A := fun _ _ => True) hrun
    (Machine.throughout_of_forall fun _ _ _ => trivial)
    (show Final {} from ⟨fun h => (by cases h), rfl⟩) (fun _ hs => hs)
    (fun _ _ _ hs _ hG ht => final_step hs hG ht)
    (fun _ _ _ _ _ hG ht => not_final_of_not_staysDown hG ht)

/-- Three starts of a pairing, and a disconnect while the third waits for its credentials. -/
def undone : List Event :=
  [.startPairing false [49] none none, .fetched 0 none, .startPairing false [49] none none,
    .fetched 1 none, .startPairing false [49] none none, .disconnect, .fetched 2 none, .fire 0]

/-- The third start goes on after the disconnect, and the timeout of the first one, whose handle has
been overwritten, is reported. -/
theorem disconnect_is_undone :
    ∃ t, Machine.Run step {} undone t ∧ t.disconnected = true ∧ t.tasks.all (· = .ended) ∧
      t.pc = some 2 ∧ t.socket = some 2 ∧ t.isArmed 2 = true ∧ t.lateTimeouts = [0] ∧
      ¬t.Final := by
  have hundone : (Machine.exec step {} undone).any (fun t => t.disconnected = true ∧
      t.tasks.all (· = .ended) ∧ t.pc = some 2 ∧ t.socket = some 2 ∧ t.isArmed 2 = true ∧
      t.lateTimeouts = [0]) = true := by decide +kernel
  obtain ⟨t, hrun, ht⟩ := Machine.exists_run_with hundone
  obtain ⟨hd, hended, hpc, hsocket, harmed, hlate⟩ := of_decide_eq_true ht
  refine ⟨t, hrun, hd, hended, hpc, hsocket, harmed, hlate, ?_⟩
  intro hfinal
  rw [hfinal.silent] at hlate
  cases hlate

/-- A pairing with a refresh under way that brings nothing, and an offer that is never set. -/
def ended : List Event :=
  [.startPairing false [49] none none, .fetched 0 (some ⟨60⟩), .relay (.roomJoined 2) [0],
    .inbound 0, .fire 0, .disconnect, .fetched 2 none, .settled 1 false]

theorem disconnect_is_final : Machine.Everywhere step Final {} ended := by
  have hrun : (Machine.exec step {} ended).isSome = true := by decide +kernel
  obtain ⟨t, hrun⟩ := Machine.exists_run_of_exec hrun
  exact (final_iff hrun).mpr (by decide +kernel)

end Document

end SmartIdVault.Offscreen
