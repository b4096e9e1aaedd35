import SmartIdVault.Offscreen.Frames

/-! The flag that an offer has been created.  `createOffer` and `generateQrSdp` set it and only
`disconnect` takes it back, so it speaks of the peer connection in the variable as long as none is
put in the place of one that has an offer, and no creation fails. -/

namespace SmartIdVault.Offscreen

/-- The peer connection on which the offer is created. -/
def Making.source : Making → Nat
  | .creating k | .settingLocal k _ => k

/-- The peer connection on which `createOffer` is creating an offer. -/
def Task.offers : Task → Option Nat
  | .createOffer making => some making.source
  | _ => none

/-- The call goes on, when its fetch ends, with a new peer connection. -/
def Task.replaces : Task → Bool
  | .startPairing _ | .reconnect => true
  | _ => false

/-- The room has both peers. -/
def Signal.reportsPeers : Signal → Bool
  | .roomJoined peerCount => 2 ≤ peerCount
  | .sdpOffer | .sdpAnswer | .iceCandidate => false

namespace Document

def isMade (s : Document) (k : Nat) : Bool := (s.peerConnections[k]?).any (·.made)

def Offering (s : Document) (k : Nat) : Prop := ∃ task ∈ s.tasks, task.offers = some k

instance (s : Document) (k : Nat) : Decidable (s.Offering k) :=
  inferInstanceAs (Decidable (∃ task ∈ s.tasks, task.offers = some k))

/-- An offer has been created on the peer connection, or `createOffer` is at it. -/
def Offered (s : Document) (k : Nat) : Prop := s.isMade k = true ∨ s.Offering k

instance (s : Document) (k : Nat) : Decidable (s.Offered k) :=
  inferInstanceAs (Decidable (s.isMade k = true ∨ s.Offering k))

/-- The flag is set exactly if an offer has been created on the peer connection in the variable. -/
def Linked (s : Document) : Prop :=
  s.offerAlreadyCreated = true ↔ ∃ k ∈ s.pc, s.Offered k

/-- When a message that the room has both peers arrives, and the peer connection is fresh and stable,
an offer for it goes out on the socket once the browser has created and set it. -/
def Negotiates (s : Document) : Event → Prop
  | .inbound n => ∀ packet ∈ s.packets[n]?, packet.signal.reportsPeers = true →
    s.signalingState = some .stable → ∀ k ∈ s.pc, ¬s.Offered k →
      ∃ t u, s.step (.inbound n) = some t ∧
        Machine.exec step t [.settled s.tasks.length true, .settled s.tasks.length true] = some u ∧
        u.emitted = s.emitted ++ [.sdpOffer s.sasCode k]
  | _ => True

/-- Places in the list of peer connections. -/
structure Placed (s : Document) : Prop where
  pc : ∀ k ∈ s.pc, k < s.peerConnections.length
  offered : ∀ k, s.Offered k → k < s.peerConnections.length

structure Known (s : Document) : Prop where
  linked : s.Linked
  placed : s.Placed

/-- Two states with the same flag, the same variable and the same offers. -/
structure SameOffers (s t : Document) : Prop where
  pc : t.pc = s.pc
  flag : t.offerAlreadyCreated = s.offerAlreadyCreated
  length : t.peerConnections.length = s.peerConnections.length
  offered : ∀ k, t.Offered k ↔ s.Offered k

/-- The variable holds a new peer connection in the second state. -/
structure Replaced (s t : Document) : Prop where
  pc : t.pc = some s.peerConnections.length
  flag : t.offerAlreadyCreated = s.offerAlreadyCreated
  length : t.peerConnections.length = s.peerConnections.length + 1
  offered : ∀ k, t.Offered k ↔ s.Offered k

variable {s t u : Document} {i k : Nat} {task task' : Task}

theorem SameOffers.refl (s : Document) : SameOffers s s := ⟨rfl, rfl, rfl, fun _ => Iff.rfl⟩

theorem SameOffers.trans (h : SameOffers s t) (h' : SameOffers t u) : SameOffers s u where
  pc := h'.pc.trans h.pc
  flag := h'.flag.trans h.flag
  length := h'.length.trans h.length
  offered k := (h'.offered k).trans (h.offered k)

theorem SameOffers.placed (h : SameOffers s t) (hs : Placed s) : Placed t where
  pc := by
    rw [h.pc, h.length]
    exact hs.pc
  offered k hk := by
    rw [h.length]
    exact hs.offered k ((h.offered k).mp hk)

theorem SameOffers.linked (h : SameOffers s t) : t.Linked ↔ s.Linked := by
  rw [Linked, Linked, h.flag, h.pc]
  exact iff_congr Iff.rfl (exists_congr fun k => and_congr_right fun _ => h.offered k)

theorem SameOffers.known (h : SameOffers s t) (hs : Known s) : Known t :=
  ⟨h.linked.mpr hs.linked, h.placed hs.placed⟩

theorem Replaced.trans (h : Replaced s t) (h' : SameOffers t u) : Replaced s u where
  pc := h'.pc.trans h.pc
  flag := h'.flag.trans h.flag
  length := h'.length.trans h.length
  offered k := (h'.offered k).trans (h.offered k)

theorem Replaced.placed (h : Replaced s t) (hs : Placed s) : Placed t where
  pc k hk := by
    rw [h.pc, Option.mem_some_iff] at hk
    rw [h.length, ← hk]
    exact Nat.lt_succ_self _
  offered k hk := by
    rw [h.length]
    exact Nat.lt_succ_of_lt (hs.offered k ((h.offered k).mp hk))

/-- The new peer connection has no offer. -/
theorem Replaced.linked (h : Replaced s t) (hs : Placed s) :
    t.Linked ↔ s.offerAlreadyCreated = false := by
  have hnone : ¬∃ k ∈ t.pc, t.Offered k := by
    rintro ⟨k, hk, ho⟩
    rw [h.pc, Option.mem_some_iff] at hk
    exact Nat.lt_irrefl _ (hk ▸ hs.offered k ((h.offered k).mp ho))
  rw [Linked, h.flag, iff_false_intro hnone, iff_false, Bool.not_eq_true]

/-! ### What leaves the offers as they are -/

theorem same_of_eq (hpc : t.pc = s.pc) (hflag : t.offerAlreadyCreated = s.offerAlreadyCreated)
    (hlist : t.peerConnections = s.peerConnections) (htasks : t.tasks = s.tasks) :
    SameOffers s t where
  pc := hpc
  flag := hflag
  length := congrArg _ hlist
  offered k := by rw [Offered, Offered, isMade, isMade, Offering, Offering, hlist, htasks]

theorem offered_start : (s.start task).Offered k ↔ s.Offered k ∨ task.offers = some k := by
  simp [Offered, Offering, isMade, start, or_and_right, exists_or, or_assoc]

theorem same_start (h : task.offers = none) : SameOffers s (s.start task) :=
  ⟨rfl, rfl, rfl, fun k => by simp [offered_start, h]⟩

theorem same_put (hi : s.tasks[i]? = some task) (h : task'.offers = task.offers) :
    SameOffers s (s.put i task') := by
  refine ⟨rfl, rfl, rfl, fun k => or_congr Iff.rfl ⟨?_, ?_⟩⟩
  · rintro ⟨task₀, hmem, ho⟩
    rcases Tasks.mem_set hmem with rfl | ⟨j, -, hj⟩
    · exact ⟨task, List.mem_of_getElem? hi, h ▸ ho⟩
    · exact ⟨task₀, List.mem_of_getElem? hj, ho⟩
  · rintro ⟨task₀, hmem, ho⟩
    obtain ⟨j, hj⟩ := List.mem_iff_getElem?.mp hmem
    by_cases hji : j = i
    · subst hji
      obtain rfl := Option.some.inj (hi.symm.trans hj)
      exact ⟨task', Tasks.mem_set_self hi _, h ▸ ho⟩
    · exact ⟨task₀, Tasks.mem_set_of_ne hji hj, ho⟩

theorem same_ended (hi : s.tasks[i]? = some task) (h : task.offers = none) :
    SameOffers s (s.put i .ended) :=
  same_put hi h.symm

theorem same_emit (e : Emission) : SameOffers s (s.emit e) := by
  unfold emit
  split
  · exact same_of_eq rfl rfl rfl rfl
  · exact .refl s

theorem same_modifyPc {f : PeerConnection → PeerConnection} (hf : ∀ p, (f p).made = p.made)
    (k : Nat) : SameOffers s (s.modifyPc k f) := by
  refine ⟨rfl, rfl, List.length_modify .., fun j => or_congr ?_ Iff.rfl⟩
  rw [isMade, isMade]
  exact iff_of_eq (congrArg (· = true) (Handles.isAlive_modify hf))

theorem same_setSignalingState (k : Nat) (state : SignalingState) :
    SameOffers s (s.setSignalingState k state) := by
  refine same_modifyPc ?_ k
  exact fun _ => rfl

theorem same_setConnectionState (k : Nat) (state : ConnectionState) :
    SameOffers s (s.setConnectionState k state) := by
  refine same_modifyPc ?_ k
  exact fun _ => rfl

theorem same_setIceConnectionState (k : Nat) (state : IceConnectionState) :
    SameOffers s (s.setIceConnectionState k state) := by
  refine same_modifyPc ?_ k
  exact fun _ => rfl

theorem same_clearTimeout (handle : Option Nat) : SameOffers s (s.clearTimeout handle) := by
  unfold clearTimeout
  split
  · exact .refl s
  · exact same_of_eq rfl rfl rfl rfl

theorem same_scheduleReconnect : SameOffers s s.scheduleReconnect := by
  unfold scheduleReconnect
  split
  · exact .refl s
  · exact same_of_eq rfl rfl rfl rfl

theorem same_connectionStateChanged : SameOffers s s.connectionStateChanged := by
  have hrecord : SameOffers s s.recordConnectionState := same_of_eq rfl rfl rfl rfl
  have hend (state : Option ConnectionState) :
      SameOffers s (s.recordConnectionState.endConnectionTimeout state) := by
    unfold endConnectionTimeout
    split
    · refine (hrecord.trans (same_clearTimeout s.recordConnectionState.connectionTimeout)).trans ?_
      exact same_of_eq rfl rfl rfl rfl
    · exact hrecord
  have hattempt (d : Document) : SameOffers d { d with reconnectAttempt := 0 } :=
    same_of_eq rfl rfl rfl rfl
  simp only [connectionStateChanged]
  split <;> split
  · exact ((hend _).trans (hattempt _)).trans same_scheduleReconnect
  · exact (hend _).trans same_scheduleReconnect
  · exact (hend _).trans (hattempt _)
  · exact hend _

theorem same_fire (n : Nat) (kind : TimerKind) : SameOffers s (s.fire n kind) := by
  unfold fire
  split
  · exact (same_start rfl).trans (same_of_eq rfl rfl rfl rfl)
  · split
    · exact .refl s
    · exact same_of_eq rfl rfl rfl rfl
  · exact same_start rfl

theorem same_connected (socket : Socket) : SameOffers s (s.connected socket) := by
  simp only [connected]
  refine .trans ?_ (same_emit _)
  split
  · exact same_emit _
  · exact .refl s

theorem same_applyTo {number : Nat} (h : task.offers = none) :
    SameOffers s (s.applyTo number task) :=
  (same_start h).trans (same_of_eq rfl rfl rfl rfl)

/-! ### What does not -/

theorem replaced_setupPeerConnection (relayOnly : Bool) :
    Replaced s (s.setupPeerConnection relayOnly) := by
  have hnew : Replaced s { s with
      peerConnections := s.peerConnections ++ [{ relayOnly }]
      pc := some s.peerConnections.length } := by
    refine ⟨rfl, rfl, by simp, fun k => or_congr ?_ Iff.rfl⟩
    rw [isMade, isMade]
    exact iff_of_eq (congrArg (· = true) (Handles.isAlive_append_dead rfl))
  simp only [setupPeerConnection]
  split
  · exact hnew
  · exact hnew.trans (same_of_eq rfl rfl rfl rfl)

theorem replaced_close_setup (relayOnly : Bool) :
    Replaced s (s.closePeerConnection.setupPeerConnection relayOnly) := by
  unfold closePeerConnection
  split
  · exact replaced_setupPeerConnection relayOnly
  next k hk =>
    have hsame := same_modifyPc (s := s) (f := fun p =>
      { p with signalingState := .closed, connectionState := .closed }) (fun _ => rfl) k
    have hsetup := replaced_setupPeerConnection (s := { s.modifyPc k fun p =>
      { p with signalingState := .closed, connectionState := .closed } with pc := none }) relayOnly
    refine ⟨hsetup.pc.trans (congrArg some hsame.length), hsetup.flag,
      hsetup.length.trans (congrArg (· + 1) hsame.length), fun k => ?_⟩
    exact (hsetup.offered k).trans (hsame.offered k)

/-- `createOffer` links the flag to the peer connection in the variable. -/
theorem known_createOffer (h : Placed s) (hk : s.pc = some k) (hcode : s.hasCode = true) :
    Known s.createOffer := by
  have hlt := h.pc k hk
  have hoffered (j : Nat) : s.createOffer.Offered j ↔ s.Offered j ∨ k = j := by
    simp only [createOffer, hk, hcode, if_true]
    show (s.start (.createOffer (.creating k))).Offered j ↔ _
    simp [offered_start, Task.offers, Making.source]
  have hpc : s.createOffer.pc = some k := by simp [createOffer, hk, hcode, start]
  have hflag : s.createOffer.offerAlreadyCreated = true := by simp [createOffer, hk, hcode]
  have hlist : s.createOffer.peerConnections = s.peerConnections := by
    simp [createOffer, hk, hcode, start]
  refine ⟨iff_of_true hflag ⟨k, hpc, (hoffered k).mpr (.inr rfl)⟩, ?_, fun j hj => ?_⟩
  · rw [hpc, hlist]
    rintro j ⟨⟩
    exact hlt
  · rw [hlist]
    rcases (hoffered j).mp hj with hj | rfl
    · exact h.offered j hj
    · exact hlt

theorem createOffer_of_not_hasCode (hcode : s.hasCode = false) : s.createOffer = s := by
  unfold createOffer
  split
  · rfl
  · simp [hcode]

/-- The relay's peer connection gets an offer of its own if there is a code to offer it under. -/
theorem linked_attemptRelayFallback (h : Known s) (hfalls : s.fallsBack = true) :
    Placed s.attemptRelayFallback ∧
      (s.attemptRelayFallback.Linked ↔ s.hasCode = true ∨ s.offerAlreadyCreated = false) := by
  simp only [fallsBack, decide_eq_true_eq] at hfalls
  have hpc : s.pc.isNone = false := by
    cases hpc : s.pc with
    | none => simp [hpc] at hfalls
    | some k => rfl
  have hattempt : s.attemptRelayFallback =
      (s.closePeerConnection.setupPeerConnection true).createOffer := by
    simp [attemptRelayFallback, hpc, hfalls.2]
  have hnew := replaced_close_setup (s := s) true
  have hcode : (s.closePeerConnection.setupPeerConnection true).hasCode = s.hasCode := by
    unfold closePeerConnection
    split <;> rfl
  rw [hattempt]
  cases hc : s.hasCode with
  | true =>
    have hknown := known_createOffer (hnew.placed h.placed) hnew.pc (hcode.trans hc)
    exact ⟨hknown.placed, iff_of_true hknown.linked (.inl rfl)⟩
  | false =>
    rw [createOffer_of_not_hasCode (hcode.trans hc)]
    exact ⟨hnew.placed h.placed, by simpa using hnew.linked h.placed⟩

/-- Other calls of `createOffer` than `i` for the peer connection. -/
def OtherOffering (s : Document) (i k : Nat) : Prop :=
  ∃ task ∈ s.tasks.eraseIdx i, task.offers = some k

instance (s : Document) (i k : Nat) : Decidable (s.OtherOffering i k) :=
  inferInstanceAs (Decidable (∃ task ∈ s.tasks.eraseIdx i, task.offers = some k))

theorem offering_put_ended :
    (s.put i .ended).Offering k ↔ s.OtherOffering i k := by
  constructor
  · rintro ⟨task, hmem, ho⟩
    rcases Tasks.mem_set hmem with rfl | ⟨j, hji, hj⟩
    · cases ho
    · exact ⟨task, List.mem_eraseIdx_iff_getElem?.mpr ⟨j, hji, hj⟩, ho⟩
  · rintro ⟨task, hmem, ho⟩
    obtain ⟨j, hji, hj⟩ := List.mem_eraseIdx_iff_getElem?.mp hmem
    exact ⟨task, Tasks.mem_set_of_ne hji hj, ho⟩

/-- What is asked of the end of what call `i` awaits: if `createOffer` fails, that its peer
connection is not the one in the variable, or has another offer; if the offer of `generateQrSdp` is
set, that it is for the peer connection in the variable, or that this one has another. -/
def EndsWell (s : Document) (i : Nat) : Task → Bool → Prop
  | .createOffer making, false => making.source ∈ s.pc →
    s.isMade making.source = true ∨ s.OtherOffering i making.source
  | .generateQrSdp (.settingLocal k _), true => k ∈ s.pc ∨ ∃ k' ∈ s.pc, s.Offered k'
  | _, _ => True

instance (s : Document) (i : Nat) : ∀ task ok, Decidable (s.EndsWell i task ok)
  | .createOffer making, false => inferInstanceAs (Decidable (making.source ∈ s.pc →
    s.isMade making.source = true ∨ s.OtherOffering i making.source))
  | .generateQrSdp (.settingLocal k _), true =>
    inferInstanceAs (Decidable (k ∈ s.pc ∨ ∃ k' ∈ s.pc, s.Offered k'))
  | .createOffer _, true | .generateQrSdp (.creating _), _
  | .generateQrSdp (.settingLocal ..), false | .startPairing _, _ | .reconnect, _
  | .refreshCreds, _ | .gathering, _ | .settingRemote _, _ | .creatingAnswer _, _
  | .settingAnswer _, _ | .takingAnswer _, _ | .addingCandidate _, _ | .ended, _ => isTrue trivial

theorem same_finishQr (hi : s.tasks[i]? = some task) (h : task.offers = none) :
    SameOffers s (s.finishQr i) :=
  (same_ended hi h).trans (same_of_eq rfl rfl rfl rfl)

theorem offered_makeOffer (hk : s.isOpen k = true) (j : Nat) :
    (s.makeOffer k).Offered j ↔ s.Offered j ∨ j = k := by
  have hmade : (s.makeOffer k).isMade j = true ↔ s.isMade j = true ∨ j = k := by
    obtain ⟨p, hp, -⟩ := (Option.any_eq_true _ _).mp hk
    rw [isMade, isMade, makeOffer, modifyPc, List.getElem?_modify]
    by_cases hjk : k = j
    · subst hjk
      simp [hp]
    · simp [hjk, Ne.symm hjk]
  rw [Offered, hmade, or_right_comm]
  rfl

/-- `createOffer` at its end has its offer made where it was created. -/
theorem same_made {making : Making} (hi : s.tasks[i]? = some (.createOffer making))
    (hopen : s.isOpen making.source = true) :
    SameOffers s ((s.put i .ended).makeOffer making.source) := by
  refine ⟨rfl, rfl, List.length_modify .., fun j => ?_⟩
  rw [offered_makeOffer (s := s.put i .ended) hopen, Offered, Offered, offering_put_ended]
  constructor
  · rintro ((hmade | ⟨task, hmem, ho⟩) | rfl)
    · exact .inl hmade
    · exact .inr ⟨task, List.mem_of_mem_eraseIdx hmem, ho⟩
    · exact .inr ⟨_, List.mem_of_getElem? hi, rfl⟩
  · rintro (hmade | ⟨task, hmem, ho⟩)
    · exact .inl (.inl hmade)
    · obtain ⟨j', hj'⟩ := List.mem_iff_getElem?.mp hmem
      by_cases hji : j' = i
      · subst hji
        obtain rfl := Option.some.inj (hi.symm.trans hj')
        exact .inr (Option.some.inj ho).symm
      · exact .inl (.inr ⟨task, List.mem_eraseIdx_iff_getElem?.mpr ⟨j', hji, hj'⟩, ho⟩)

/-- `createOffer` that comes to its end without an offer. -/
theorem linked_put_ended {making : Making} (h : Known s)
    (hi : s.tasks[i]? = some (.createOffer making)) :
    Placed (s.put i .ended) ∧ ((s.put i .ended).Linked ↔ (making.source ∈ s.pc →
      s.isMade making.source = true ∨ s.OtherOffering i making.source)) := by
  have hsub (k : Nat) : (s.put i .ended).Offered k → s.Offered k := by
    rw [Offered, offering_put_ended]
    rintro (hmade | ⟨task, hmem, ho⟩)
    · exact .inl hmade
    · exact .inr ⟨task, List.mem_of_mem_eraseIdx hmem, ho⟩
  have hother (k : Nat) (hk : k ≠ making.source) : s.Offered k → (s.put i .ended).Offered k := by
    rw [Offered, Offered, offering_put_ended]
    rintro (hmade | ⟨task, hmem, ho⟩)
    · exact .inl hmade
    · obtain ⟨j, hj⟩ := List.mem_iff_getElem?.mp hmem
      refine .inr ⟨task, List.mem_eraseIdx_iff_getElem?.mpr ⟨j, ?_, hj⟩, ho⟩
      rintro rfl
      obtain rfl := Option.some.inj (hi.symm.trans hj)
      exact hk (Option.some.inj ho).symm
  have hmine : s.Offered making.source := .inr ⟨_, List.mem_of_getElem? hi, rfl⟩
  refine ⟨⟨h.placed.pc, fun k hk => h.placed.offered k (hsub k hk)⟩, ?_⟩
  constructor
  · intro ht hpc
    obtain ⟨k, hk, ho⟩ := ht.mp (h.linked.mpr ⟨_, hpc, hmine⟩)
    obtain rfl := Option.some.inj (hk.symm.trans hpc)
    exact (or_congr Iff.rfl offering_put_ended).mp ho
  · intro hwell
    refine h.linked.trans (exists_congr fun k => and_congr_right fun hk => ⟨fun ho => ?_, hsub k⟩)
    by_cases hks : k = making.source
    · subst hks
      exact (or_congr Iff.rfl offering_put_ended).mpr (hwell hk)
    · exact hother k hks ho

/-- `generateQrSdp` sets the flag when its offer is made. -/
theorem linked_makeQrOffer (h : Known s) (hopen : s.isOpen k = true)
    (hsame : SameOffers (s.makeQrOffer k) t) :
    Placed t ∧ (t.Linked ↔ k ∈ s.pc ∨ ∃ k' ∈ s.pc, s.Offered k') := by
  have hoffered (j : Nat) : (s.makeQrOffer k).Offered j ↔ s.Offered j ∨ j = k :=
    offered_makeOffer hopen j
  have hlength : (s.makeQrOffer k).peerConnections.length = s.peerConnections.length :=
    List.length_modify ..
  refine ⟨hsame.placed ⟨?_, fun j hj => ?_⟩, hsame.linked.trans ?_⟩
  · rw [hlength]
    exact h.placed.pc
  · rw [hlength]
    rcases (hoffered j).mp hj with hj | rfl
    · exact h.placed.offered j hj
    · exact Handles.lt_of_isAlive hopen
  · refine (iff_true_left rfl).trans ⟨?_, ?_⟩
    · rintro ⟨j, hj, ho⟩
      rcases (hoffered j).mp ho with ho | rfl
      · exact .inr ⟨j, hj, ho⟩
      · exact .inl hj
    · rintro (hk | ⟨j, hj, ho⟩)
      · exact ⟨k, hk, (hoffered k).mpr (.inr rfl)⟩
      · exact ⟨j, hj, (hoffered j).mpr (.inl ho)⟩

/-- A step that leaves the offers as they are keeps the link, and asks for nothing. -/
theorem SameOffers.ends (hs : SameOffers s t) (h : Known s) : Placed t ∧ (t.Linked ↔ True) :=
  ⟨hs.placed h.placed, iff_true_intro (hs.linked.mpr h.linked)⟩

theorem linked_settle {ok : Bool} (h : Known s) (hi : s.tasks[i]? = some task)
    (ht : s.settle i task ok = some t) : Placed t ∧ (t.Linked ↔ s.EndsWell i task ok) := by
  unfold settle at ht
  split at ht <;> (try split at ht) <;> cases ht
  case h_1.isTrue.refl k _ =>
    split
    next hpc =>
      obtain ⟨hplaced, hlinked⟩ := linked_put_ended h hi
      refine ⟨hplaced, hlinked.trans (iff_of_true ?_ trivial)⟩
      rw [hpc]
      exact fun hk => by cases hk
    next target =>
      refine SameOffers.ends ?_ h
      exact same_put hi rfl
  case h_2.isTrue.refl k target hk =>
    refine SameOffers.ends ?_ h
    exact (same_made hi hk.2).trans (same_emit _)
  case h_3.refl making => exact linked_put_ended h hi
  case h_4.isTrue.refl k _ =>
    refine SameOffers.ends ?_ h
    split
    · exact same_finishQr hi rfl
    · exact same_put hi rfl
  case h_5.isTrue.refl k target hk =>
    refine linked_makeQrOffer h hk.2 ?_
    split
    · exact same_put hi rfl
    · exact same_finishQr hi rfl
  case h_6.refl making =>
    cases making <;> exact SameOffers.ends (same_finishQr hi rfl) h
  case h_7.refl => exact SameOffers.ends (same_finishQr hi rfl) h
  case h_8.isTrue.refl k _ =>
    refine SameOffers.ends ?_ h
    refine (same_setSignalingState k .haveRemoteOffer).trans (same_put hi ?_)
    split <;> rfl
  case h_9.isTrue.refl k _ =>
    refine SameOffers.ends ?_ h
    refine same_put hi ?_
    split <;> rfl
  case h_10.isTrue.refl k _ =>
    refine SameOffers.ends ?_ h
    refine .trans ?_ (same_emit _)
    exact (same_setSignalingState k .stable).trans (same_ended hi rfl)
  case h_11.isTrue.refl k _ =>
    refine SameOffers.ends ?_ h
    exact (same_ended hi rfl).trans (same_setSignalingState k .stable)
  all_goals
    refine SameOffers.ends ?_ h
    exact same_put hi rfl

/-- The relay takes over when peer connection `k` gets the ICE connection state. -/
def relaysAt (s : Document) (k : Nat) (state : IceConnectionState) : Bool :=
  (s.peerConnections[k]?).any (!·.relayOnly) &&
    (s.setIceConnectionState k state).fallsBack

/-- A new peer connection comes while the flag is not set, or together with an offer for it, and
what the making of an offer awaits ends well. -/
def KeepsLink (s : Document) : Event → Prop
  | .fetched i _ => ∀ task ∈ s.tasks[i]?, task.replaces = true → s.offerAlreadyCreated = false
  | .iceConnectionState k state =>
    s.relaysAt k state = true → s.hasCode = true ∨ s.offerAlreadyCreated = false
  | .settled i ok => ∀ task ∈ s.tasks[i]?, s.EndsWell i task ok
  | _ => True

instance (s : Document) : ∀ e, Decidable (s.KeepsLink e)
  | .fetched i _ => inferInstanceAs (Decidable (∀ task ∈ s.tasks[i]?,
    task.replaces = true → s.offerAlreadyCreated = false))
  | .iceConnectionState k state => inferInstanceAs (Decidable
    (s.relaysAt k state = true → s.hasCode = true ∨ s.offerAlreadyCreated = false))
  | .settled i ok => inferInstanceAs (Decidable (∀ task ∈ s.tasks[i]?, s.EndsWell i task ok))
  | .startPairing .. | .disconnect | .fire _ | .connectionState .. | .connect _ | .relay ..
  | .inbound _ => isTrue trivial

/-- When a message that the room has both peers arrives, and the peer connection is fresh and stable,
there are a code and a socket. -/
def JoinsReady (s : Document) : Event → Prop
  | .inbound n => ∀ packet ∈ s.packets[n]?, packet.signal.reportsPeers = true →
    s.signalingState = some .stable → ∀ k ∈ s.pc, ¬s.Offered k →
      s.hasCode = true ∧ s.socket.isSome = true
  | _ => True

instance (s : Document) : ∀ e, Decidable (s.JoinsReady e)
  | .inbound n => inferInstanceAs (Decidable (∀ packet ∈ s.packets[n]?,
    packet.signal.reportsPeers = true → s.signalingState = some .stable → ∀ k ∈ s.pc,
      ¬s.Offered k → s.hasCode = true ∧ s.socket.isSome = true))
  | .startPairing .. | .disconnect | .fetched .. | .fire _ | .connectionState ..
  | .iceConnectionState .. | .connect _ | .relay .. | .settled .. => isTrue trivial

/-- What is asked of the steps of a run. -/
def KeepsNegotiating (s : Document) (e : Event) : Prop := s.KeepsLink e ∧ s.JoinsReady e

instance (s : Document) (e : Event) : Decidable (s.KeepsNegotiating e) :=
  inferInstanceAs (Decidable (_ ∧ _))

theorem same_takeCredentials (creds : Option TurnCredentials) :
    SameOffers s (s.takeCredentials creds) := by
  unfold takeCredentials
  split <;> exact same_of_eq rfl rfl rfl rfl

theorem Replaced.of_same (h : SameOffers s t) (h' : Replaced t u) : Replaced s u where
  pc := h'.pc.trans (congrArg some h.length)
  flag := h'.flag.trans h.flag
  length := h'.length.trans (congrArg (· + 1) h.length)
  offered k := (h'.offered k).trans (h.offered k)

theorem Replaced.fetched (h : Replaced s t) (hs : Placed s) (htask : task.replaces = true) :
    Placed t ∧ (t.Linked ↔ (task.replaces = true → s.offerAlreadyCreated = false)) := by
  rw [h.linked hs]
  exact ⟨h.placed hs, fun hflag _ => hflag, fun hflag => hflag htask⟩

theorem replaced_startFetched {offerless : Bool} (creds : Option TurnCredentials)
    (hi : s.tasks[i]? = some (.startPairing offerless)) :
    Replaced s (s.startFetched i offerless creds) := by
  have hsetup : Replaced s ((s.takeCredentials creds).setupPeerConnection false) :=
    .of_same (same_takeCredentials creds) (replaced_setupPeerConnection false)
  have htasks : ((s.takeCredentials creds).setupPeerConnection false).tasks = s.tasks := by
    unfold takeCredentials
    split <;> rfl
  have hi' := (congrArg (·[i]?) htasks).trans hi
  simp only [startFetched]
  split
  · exact hsetup.trans (same_put hi' rfl)
  · exact (hsetup.trans (same_ended hi' rfl)).trans (same_of_eq rfl rfl rfl rfl)

theorem linked_fetched {creds : Option TurnCredentials} (h : Known s)
    (hi : s.tasks[i]? = some task) (ht : s.fetched i creds task = some t) :
    Placed t ∧ (t.Linked ↔ (task.replaces = true → s.offerAlreadyCreated = false)) := by
  unfold fetched at ht
  split at ht
  next offerless =>
    obtain rfl := Option.some.inj ht
    exact (replaced_startFetched creds hi).fetched h.placed rfl
  next =>
    obtain rfl := Option.some.inj ht
    have hended : SameOffers s
        ({ s with turnCredentials := creds.or s.turnCredentials }.put i .ended) := by
      refine .trans (same_ended hi rfl) ?_
      exact same_of_eq rfl rfl rfl rfl
    have hnew := Replaced.of_same hended (replaced_close_setup false)
    refine Replaced.fetched (hnew.trans ?_) h.placed rfl
    exact same_of_eq rfl rfl rfl rfl
  next =>
    obtain rfl := Option.some.inj ht
    have hended := same_ended hi rfl
    have hsame : SameOffers s (if creds.isSome then (s.put i .ended).takeCredentials creds
        else s.put i .ended) := by
      split
      · exact hended.trans (same_takeCredentials creds)
      · exact hended
    exact ⟨hsame.placed h.placed, iff_of_true (hsame.linked.mpr h.linked) (fun hr => by cases hr)⟩
  next => cases ht

theorem placed_closePeerConnection (h : Placed s) : Placed s.closePeerConnection where
  pc k hk := by
    rw [closePeerConnection_pc] at hk
    cases hk
  offered k hk := by
    unfold closePeerConnection at hk ⊢
    split at hk
    · exact h.offered k hk
    next j _ =>
      have hsame := same_modifyPc (s := s) (f := fun p =>
        { p with signalingState := .closed, connectionState := .closed }) (fun _ => rfl) j
      exact (hsame.placed h).offered k hk

/-- `disconnect` takes the flag back together with the peer connection. -/
theorem known_disconnect (h : Placed s) : Known s.disconnect where
  linked := by
    rw [Linked, disconnect_pc]
    refine iff_of_false Bool.false_ne_true ?_
    rintro ⟨k, hk, -⟩
    cases hk
  placed := by
    have htimers : Placed s.clearTimers :=
      (((same_clearTimeout _).trans (same_clearTimeout _)).trans (same_clearTimeout _)).placed h
    have hclosed := placed_closePeerConnection htimers
    have hsocket (d : Document) : SameOffers d d.disconnectSocket := by
      unfold disconnectSocket
      split
      · exact .refl d
      · exact same_of_eq rfl rfl rfl rfl
    have hplaced := (hsocket _).placed hclosed
    exact ⟨hplaced.pc, hplaced.offered⟩

theorem known_handle (h : Known s) (number : Nat) (signal : Signal) :
    Known (s.handle number signal) := by
  unfold handle
  split
  next peerCount =>
    split
    next hroom =>
      have happlied (d : Document) : SameOffers d { d with applied := s.applied ++ [number] } :=
        same_of_eq rfl rfl rfl rfl
      refine (happlied _).known ?_
      cases hc : s.hasCode with
      | true =>
        obtain ⟨k, hk, -⟩ := Option.bind_eq_some_iff.mp hroom.2.1
        exact known_createOffer h.placed hk hc
      | false =>
        rw [createOffer_of_not_hasCode hc]
        exact h
    next => exact h
  next =>
    split
    · exact h
    · exact (same_applyTo rfl).known h
  next =>
    split
    · exact h
    · split
      · exact (same_applyTo rfl).known h
      · exact h
  next =>
    split
    · exact h
    · exact (same_applyTo rfl).known h

theorem linked_iceConnectionState {p : PeerConnection} (h : Known s)
    (hp : s.peerConnections[k]? = some p) (state : IceConnectionState) :
    let u := s.setIceConnectionState k state
    let t := if p.relayOnly then u else u.iceConnectionStateChanged
    Placed t ∧ (t.Linked ↔ s.KeepsLink (.iceConnectionState k state)) := by
  have hset := same_setIceConnectionState (s := s) k state
  have hrelays : s.relaysAt k state =
      (!p.relayOnly && (s.setIceConnectionState k state).fallsBack) := by
    simp [relaysAt, hp]
  simp only [KeepsLink, hrelays]
  cases hrelay : p.relayOnly with
  | true =>
    refine ⟨hset.placed h.placed, iff_of_true (hset.linked.mpr h.linked) ?_⟩
    exact fun hfalse => by cases hfalse
  | false =>
    simp only [Bool.false_eq_true, if_false, Bool.not_false, Bool.true_and,
      iceConnectionStateChanged]
    split
    next hfalls =>
      obtain ⟨hplaced, hlinked⟩ := linked_attemptRelayFallback (hset.known h) hfalls
      exact ⟨hplaced, hlinked.trans ⟨fun hkeeps _ => hkeeps, fun hkeeps => hkeeps hfalls⟩⟩
    next hfalls =>
      refine ⟨hset.placed h.placed, iff_of_true (hset.linked.mpr h.linked) ?_⟩
      exact fun hfalls' => absurd hfalls' hfalls

theorem linked_step {e : Event} (h : Known s) (ht : s.step e = some t) :
    Placed t ∧ (t.Linked ↔ s.KeepsLink e) := by
  cases e with
  | startPairing =>
    obtain rfl := Option.some.inj ht
    refine SameOffers.ends ?_ h
    exact (same_start rfl).trans (same_of_eq rfl rfl rfl rfl)
  | disconnect =>
    obtain rfl := Option.some.inj ht
    have hknown := known_disconnect h.placed
    exact ⟨hknown.placed, iff_of_true hknown.linked trivial⟩
  | fetched i creds =>
    obtain ⟨task, hi, ht⟩ := Option.bind_eq_some_iff.mp ht
    have hkeeps : s.KeepsLink (.fetched i creds) ↔
        (task.replaces = true → s.offerAlreadyCreated = false) := by simp [KeepsLink, hi]
    rw [hkeeps]
    exact linked_fetched h hi ht
  | fire n =>
    obtain ⟨timer, -, ht⟩ := Option.bind_eq_some_iff.mp ht
    split at ht
    · obtain rfl := Option.some.inj ht
      refine SameOffers.ends ?_ h
      exact (same_clearTimeout _).trans (same_fire n timer.kind)
    · cases ht
  | connectionState k state =>
    obtain ⟨p, -, ht⟩ := Option.bind_eq_some_iff.mp ht
    split at ht
    · cases ht
    · obtain rfl := Option.some.inj ht
      refine SameOffers.ends ?_ h
      split
      · exact same_setConnectionState k state
      · exact (same_setConnectionState k state).trans same_connectionStateChanged
  | iceConnectionState k state =>
    obtain ⟨p, hp, ht⟩ := Option.bind_eq_some_iff.mp ht
    split at ht
    · cases ht
    · obtain rfl := Option.some.inj ht
      exact linked_iceConnectionState h hp state
  | connect j =>
    obtain ⟨socket, -, ht⟩ := Option.bind_eq_some_iff.mp ht
    split at ht
    · obtain rfl := Option.some.inj ht
      exact (same_connected socket).ends h
    · cases ht
  | relay signal targets =>
    simp only [step] at ht
    split at ht
    · obtain rfl := Option.some.inj ht
      refine SameOffers.ends ?_ h
      exact same_of_eq rfl rfl rfl rfl
    · cases ht
  | inbound n =>
    obtain ⟨packet, -, ht⟩ := Option.bind_eq_some_iff.mp ht
    split at ht
    · obtain rfl := Option.some.inj ht
      have herased : SameOffers s { s with packets := s.packets.eraseIdx n } :=
        same_of_eq rfl rfl rfl rfl
      have hknown := known_handle (herased.known h) packet.number packet.signal
      exact ⟨hknown.placed, iff_of_true hknown.linked trivial⟩
    · cases ht
  | settled i ok =>
    obtain ⟨task, hi, ht⟩ := Option.bind_eq_some_iff.mp ht
    have hkeeps : s.KeepsLink (.settled i ok) ↔ s.EndsWell i task ok := by simp [KeepsLink, hi]
    rw [hkeeps]
    exact linked_settle h hi ht

/-! ### From the message to the offer -/

theorem createOffer_eq (hpc : s.pc = some k) (hcode : s.hasCode = true) :
    s.createOffer = { s.start (.createOffer (.creating k)) with offerAlreadyCreated := true } := by
  simp [createOffer, hpc, hcode]

/-- A message that the room has both peers, where the flag is not set. -/
theorem step_joined {n : Nat} {packet : Packet} (hn : s.packets[n]? = some packet)
    (hlive : s.isLive packet.socket = true) (hpeers : packet.signal.reportsPeers = true)
    (hstable : s.signalingState = some .stable) (hflag : s.offerAlreadyCreated = false) :
    s.step (.inbound n) = some { createOffer { s with packets := s.packets.eraseIdx n } with
      applied := s.applied ++ [packet.number] } := by
  have hhandle : handle { s with packets := s.packets.eraseIdx n } packet.number packet.signal =
      { createOffer { s with packets := s.packets.eraseIdx n } with
        applied := s.applied ++ [packet.number] } := by
    cases hsignal : packet.signal with
    | roomJoined peerCount =>
      rw [hsignal] at hpeers
      exact if_pos ⟨of_decide_eq_true hpeers, hstable, hflag⟩
    | sdpOffer | sdpAnswer | iceCandidate =>
      rw [hsignal] at hpeers
      contradiction
  simp only [step, hn, Option.bind_some, hlive, if_true, hhandle]

theorem step_created (hi : s.tasks[i]? = some (.createOffer (.creating k)))
    (hopen : s.isOpen k = true) (hpc : s.pc = some k) :
    s.step (.settled i true) = some (s.put i (.createOffer (.settingLocal k k))) := by
  simp [step, hi, settle, hopen, hpc]

theorem step_set (hi : s.tasks[i]? = some (.createOffer (.settingLocal k k)))
    (hopen : s.isOpen k = true) :
    ∃ u, s.step (.settled i true) = some u ∧ u.emitted =
      if s.socket.isSome then s.emitted ++ [Emission.sdpOffer s.sasCode k] else s.emitted := by
  refine ⟨((s.put i .ended).makeOffer k).emit (.sdpOffer s.sasCode k), ?_, ?_⟩
  · simp [step, hi, settle, hopen]
  · rw [emit]
    have hsocket : ((s.put i .ended).makeOffer k).socket = s.socket := rfl
    rw [hsocket]
    split <;> rfl

/-- What comes of the message once the browser has created and set the offer, where the flag is not
set: an offer goes out if there is a socket, and without a code nothing is created. -/
theorem offer_of_joined {n : Nat} {packet : Packet} (hn : s.packets[n]? = some packet)
    (hlive : s.isLive packet.socket = true) (hpeers : packet.signal.reportsPeers = true)
    (hpc : s.pc = some k) (hstable : s.signalingState = some .stable)
    (hflag : s.offerAlreadyCreated = false) :
    (∃ t u, s.step (.inbound n) = some t ∧
      Machine.exec step t [.settled s.tasks.length true, .settled s.tasks.length true] = some u ∧
      u.emitted = s.emitted ++ [.sdpOffer s.sasCode k]) ↔
        s.hasCode = true ∧ s.socket.isSome = true := by
  rw [step_joined hn hlive hpeers hstable hflag]
  cases hcode : s.hasCode with
  | false =>
    have hnone := createOffer_of_not_hasCode
      (s := { s with packets := s.packets.eraseIdx n }) hcode
    refine iff_of_false ?_ (by simp)
    rintro ⟨t, u, ht, hexec, -⟩
    obtain rfl := Option.some.inj ht
    simp [Machine.exec, hnone, step] at hexec
  | true =>
    have hopen : s.isOpen k = true := by
      simp only [signalingState, hpc, Option.bind_some, Option.map_eq_some_iff] at hstable
      obtain ⟨p, hp, hstate⟩ := hstable
      simp [isOpen, Handles.isAlive, hp, hstate]
    let t : Document := { s.start (.createOffer (.creating k)) with
      packets := s.packets.eraseIdx n
      offerAlreadyCreated := true
      applied := s.applied ++ [packet.number] }
    have hcreate : { createOffer { s with packets := s.packets.eraseIdx n } with
        applied := s.applied ++ [packet.number] } = t := by
      rw [createOffer_eq (s := { s with packets := s.packets.eraseIdx n }) hpc hcode]
      rfl
    have hi : t.tasks[s.tasks.length]? = some (.createOffer (.creating k)) :=
      Tasks.append_self s.tasks _
    have hcreated := step_created hi hopen hpc
    obtain ⟨u, hset, hemitted⟩ := step_set (s := t.put s.tasks.length
      (.createOffer (.settingLocal k k))) (Tasks.set_self hi _) hopen
    have hexec : Machine.exec step t
        [.settled s.tasks.length true, .settled s.tasks.length true] = some u := by
      simp [Machine.exec, hcreated, hset]
    have hemitted' : u.emitted =
      if s.socket.isSome then s.emitted ++ [.sdpOffer s.sasCode k] else s.emitted := hemitted
    rw [hcreate]
    constructor
    · rintro ⟨t', u', ht, hexec', hemits⟩
      obtain rfl := Option.some.inj ht
      obtain rfl := Option.some.inj (hexec.symm.trans hexec')
      refine ⟨rfl, ?_⟩
      rw [hemits] at hemitted'
      split at hemitted'
      next hsocket => exact hsocket
      next => simp at hemitted'
    · rintro ⟨-, hsocket⟩
      rw [if_pos hsocket] at hemitted'
      exact ⟨t, u, rfl, hexec, hemitted'⟩

/-- Where the flag speaks of the peer connection in the variable, a fresh one gets its offer exactly
if there are a code and a socket. -/
theorem negotiates_iff {e : Event} (h : s.Linked) (ht : s.step e = some t) :
    s.Negotiates e ↔ s.JoinsReady e := by
  cases e with
  | inbound n =>
    obtain ⟨packet, hn, ht⟩ := Option.bind_eq_some_iff.mp ht
    have hlive : s.isLive packet.socket = true := by
      split at ht
      next hlive => exact hlive
      next => cases ht
    refine forall₂_congr fun packet' hpacket => ?_
    obtain rfl := Option.some.inj (hn.symm.trans hpacket)
    refine forall₂_congr fun hpeers hstable => forall₂_congr fun k hk => forall_congr' fun hfresh => ?_
    have hflag : s.offerAlreadyCreated = false := by
      rw [← Bool.not_eq_true]
      intro hflag
      obtain ⟨k', hk', ho⟩ := h.mp hflag
      obtain rfl := Option.some.inj (Option.mem_def.mp hk |>.symm.trans hk')
      exact hfresh ho
    exact offer_of_joined hn hlive hpeers hk hstable hflag
  | _ => exact Iff.rfl

theorem known_initial : Known {} where
  linked := by
    refine iff_of_false Bool.false_ne_true ?_
    rintro ⟨k, hk, -⟩
    cases hk
  placed := by
    refine ⟨fun k hk => (by cases hk), ?_⟩
    rintro k (hmade | ⟨task, hmem, -⟩)
    · cases hmade
    · cases hmem

theorem linked_iff {es : List Event} (hrun : Machine.Run step {} es t) :
    Machine.Everywhere step Linked {} es ↔ Machine.Throughout step KeepsLink {} es :=
  Machine.everywhere_iff_throughout (A := fun _ _ => True) hrun
    (Machine.throughout_of_forall fun _ _ _ => trivial) known_initial (fun _ hs => hs.linked)
    (fun _ _ _ hs _ hG ht => ⟨(linked_step hs ht).2.mpr hG, (linked_step hs ht).1⟩)
    (fun _ _ _ hs _ hG ht hP => hG ((linked_step hs ht).2.mp hP))

/-- The flag speaks of the peer connection in the variable in all states of a run, and a fresh one
gets its offer whenever the room has both peers, exactly when all events of the run keep the link
and find a code and a socket when they are to lead to an offer. -/
theorem renegotiates_iff {es : List Event} (hrun : Machine.Run step {} es t) :
    Machine.Everywhere step Linked {} es ∧ Machine.Throughout step Negotiates {} es ↔
      Machine.Throughout step KeepsNegotiating {} es := by
  have hcongr : Machine.Throughout step (fun s e => s.KeepsLink e ∧ s.Negotiates e) {} es ↔
      Machine.Throughout step KeepsNegotiating {} es := by
    refine hrun.throughout_iff known_initial (fun s e t hs hG ht => ?_) fun s e t hs ht => ?_
    · exact ⟨(linked_step hs ht).2.mpr hG.1, (linked_step hs ht).1⟩
    · exact and_congr_right fun _ => negotiates_iff hs.linked ht
  rw [linked_iff hrun, ← hcongr]
  constructor
  · rintro ⟨hlinked, hnegotiates⟩
    exact hlinked.and hnegotiates
  · intro h
    exact ⟨h.mono fun _ _ => And.left, h.mono fun _ _ => And.right⟩

/-- A connection fails after its offer, and the phone is in the room when the document is back: the
flag still stands for the first peer connection. -/
def reconnected : List Event :=
  [.startPairing false [49] none none, .fetched 0 none, .relay (.roomJoined 2) [0], .inbound 0,
    .settled 1 true, .settled 1 true, .connectionState 0 .failed, .fire 1, .fetched 2 none,
    .relay (.roomJoined 2) [1], .inbound 0]

theorem reconnect_never_offers :
    ∃ t, Machine.Run step {} reconnected t ∧ t.pc = some 1 ∧ ¬t.Offered 1 ∧
      t.signalingState = some .stable ∧ t.emitted = [.sdpOffer (some [49]) 0] ∧
      t.tasks.all (· = .ended) ∧ ¬t.Linked := by
  have hstuck : (Machine.exec step {} reconnected).any (fun t => t.pc = some 1 ∧ ¬t.Offered 1 ∧
      t.signalingState = some .stable ∧ t.emitted = [.sdpOffer (some [49]) 0] ∧
      t.tasks.all (· = .ended) ∧ t.offerAlreadyCreated = true) = true := by decide +kernel
  obtain ⟨t, hrun, ht⟩ := Machine.exists_run_with hstuck
  obtain ⟨hpc, hfresh, hstable, hemitted, hended, hflag⟩ := of_decide_eq_true ht
  refine ⟨t, hrun, hpc, hfresh, hstable, hemitted, hended, ?_⟩
  intro h
  obtain ⟨k, hk, ho⟩ := h.mp hflag
  obtain rfl := Option.some.inj (hpc.symm.trans hk)
  exact hfresh ho

/-- An offer, a disconnect, and an offerless pairing with an offer of its own. -/
def pairedAgain : List Event :=
  [.startPairing false [49] none none, .fetched 0 none, .relay (.roomJoined 2) [0], .inbound 0,
    .settled 1 true, .settled 1 true, .disconnect, .startPairing true [50] none none,
    .fetched 2 none, .settled 2 true, .settled 2 true, .settled 2 true]

theorem paired_again_renegotiates : Machine.Everywhere step Linked {} pairedAgain ∧
    Machine.Throughout step Negotiates {} pairedAgain := by
  have hrun : (Machine.exec step {} pairedAgain).isSome = true := by decide +kernel
  obtain ⟨t, hrun⟩ := Machine.exists_run_of_exec hrun
  exact (renegotiates_iff hrun).mpr (by decide +kernel)

end Document

end SmartIdVault.Offscreen
