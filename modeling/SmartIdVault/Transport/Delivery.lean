import SmartIdVault.Transport.Calls

/-! Which callbacks a message reaches that arrives on the active transport.  A transport keeps all
callbacks that were ever registered with it, and the manager registers its callback anew at each
switch, but not when it discovers USB. -/

namespace SmartIdVault.Transport

/-- The calls that the listener of the WebRTC transport makes at posted bytes: it passes the array
of numbers to `atob`, and makes none when that throws. -/
def WebRtcTransport.hand {γ : Type} (t : WebRtcTransport γ) (numbers : List Nat) :
    List (γ × Bytes) :=
  if t.listenerAttached then
    match base64ToArrayBuffer Base64.atob numbers with
    | none => []
    | some bytes => t.messageCallbacks.map (·, bytes)
  else []

/-- With this outcome the USB transport has its link. -/
def Op.links (op : Op) (outcome : Outcome) : Bool :=
  match op.at_, outcome with
  | .usbReady, .proceeds | .usbOpening, .opened _ | .usbRelaying, .relayed true => true
  | _, _ => false

/-- With this outcome the WebRTC transport has connected. -/
def Op.reaches (op : Op) (outcome : Outcome) : Bool :=
  match op.at_, outcome with
  | .webrtcConnecting _, .state answer _ => answersConnected answer
  | _, _ => false

namespace Manager

variable {m m' m₁ : Manager} {i : Nat} {op : Op} {outcome : Outcome}

/-- A message can arrive on the active transport: over a device of its own while the read loop runs,
else from the offscreen document. -/
def arrives (m : Manager) : Bool :=
  match m.activeTransport with
  | none => false
  | some .usb => m.usb.connected && (!m.usb.device || m.readLoopActive)
  | some .webrtc => m.webrtc.connected

/-- The calls at a message that the offscreen document posts to the listeners of both transports. -/
def posted (m : Manager) (data : Bytes) : List (Nat × Bytes) :=
  m.usb.receive (arrayFrom data) ++ m.webrtc.hand (arrayFrom data)

/-- The calls at a message on the active transport. -/
def handed (m : Manager) (data : Bytes) : List (Nat × Bytes) :=
  if m.activeTransport = some .usb ∧ m.usb.device = true then
    m.usb.messageCallbacks.map (·, data)
  else m.posted data

/-- A message that arrives on the active transport reaches the callback registered last, once, and
no other. -/
def Delivers (m : Manager) : Prop :=
  ∀ callback, m.messageCallback = some callback → m.arrives = true →
    ∀ data, m.handed data = [(callback, data)]

/-- A callback is registered with a transport once: `onMessage` is called while no transport is
active, or while USB is and has no callback yet; USB that is discovered has the callback already,
and USB that is switched to has none; and WebRTC connects only while there is none. -/
def Once (m : Manager) : ManagerEvent → Prop
  | .onMessage _ => m.activeTransport = none ∨
      m.activeTransport = some .usb ∧ m.usb.messageCallbacks = []
  | .settle i outcome => ∀ op ∈ m.ops[i]?,
      (op.task.target = none → op.links outcome = true →
        ∀ callback ∈ m.messageCallback, m.usb.messageCallbacks = [callback]) ∧
      (op.task.target = some .usb → op.succeeds outcome = true →
        m.messageCallback = none ∨ m.usb.messageCallbacks = []) ∧
      (op.reaches outcome = true → m.messageCallback = none)
  | _ => True

instance (m : Manager) : ∀ e, Decidable (m.Once e)
  | .settle .. => inferInstanceAs (Decidable (∀ op ∈ m.ops[_]?, _))
  | .onMessage _ => inferInstanceAs (Decidable (_ ∨ _))
  | .init | .selectTransport | .switchTransport _ | .destroy | .pollTick | .usbReadError
  | .webrtcDisconnected => isTrue trivial

/-- No callback is registered with a transport. -/
structure Silent (before after : Manager) : Prop where
  messageCallback : after.messageCallback = before.messageCallback
  usbCallbacks : after.usb.messageCallbacks = before.usb.messageCallbacks
  usbListeners : after.usb.listeners = before.usb.listeners
  usbAttached : after.usb.listenerAttached = true → before.usb.listenerAttached = true
  webrtcCallbacks : after.webrtc.messageCallbacks = before.webrtc.messageCallbacks

theorem Silent.refl (m : Manager) : Silent m m := ⟨rfl, rfl, rfl, id, rfl⟩

theorem Silent.trans (h : Silent m m₁) (h' : Silent m₁ m') : Silent m m' :=
  ⟨h'.messageCallback.trans h.messageCallback, h'.usbCallbacks.trans h.usbCallbacks,
    h'.usbListeners.trans h.usbListeners, fun ha => h.usbAttached (h'.usbAttached ha),
    h'.webrtcCallbacks.trans h.webrtcCallbacks⟩

theorem Frame.silent (h : Frame m m') : Silent m m' :=
  ⟨h.messageCallback, h.usbCallbacks, h.usbListeners, h.usbAttached, h.webrtcCallbacks⟩

theorem silent_put (m : Manager) (i : Nat) (op : Op) (a : Await) : Silent m (m.put i op a) :=
  ⟨rfl, rfl, rfl, id, rfl⟩

theorem silent_discovered (m : Manager) (i : Nat) (op : Op) (owner : Owner) :
    Silent m (m.discovered i op owner) := by
  cases owner <;> exact ⟨rfl, rfl, rfl, id, rfl⟩

theorem silent_resolve (m : Manager) (i : Nat) (op : Op) (result : Bool) :
    Silent m (m.resolve i op result) := by
  cases h : op.task <;> simp only [resolve, h] <;> exact ⟨rfl, rfl, rfl, id, rfl⟩

theorem silent_retried (m : Manager) (i : Nat) (op : Op) (success : Bool) :
    Silent m (m.retried i op success) := by
  simp only [retried]
  split
  · exact silent_discovered m i op _
  · exact silent_resolve m i op success
  · exact .refl m

theorem silent_switchTransport (m : Manager) (target : TransportType) (clears : Bool) :
    Silent m (m.switchTransport target clears) := by
  cases h : m.switchPromise with
  | some i =>
    rw [switchTransport_joins h]
    exact ⟨rfl, rfl, rfl, id, rfl⟩
  | none =>
    obtain ⟨m₁, a, starts, eq⟩ := switchTransport_starts h target clears
    have frame := starts.frame
    rw [eq]
    exact ⟨frame.messageCallback, frame.usbCallbacks, frame.usbListeners, frame.usbAttached,
      frame.webrtcCallbacks⟩

theorem attach_none (h : m.messageCallback = none) (t : TransportType) : m.attach t = m := by
  simp [attach, h]

theorem silent_webrtcDone (m : Manager) (i : Nat) (op : Op) (success : Bool)
    (h : success = true → m.messageCallback = none) : Silent m (m.webrtcDone i op success) := by
  have active (t : Option TransportType) : Silent m { m with activeTransport := t } :=
    ⟨rfl, rfl, rfl, id, rfl⟩
  cases success with
  | true =>
    have same := attach_none (m := { m with activeTransport := some .webrtc }) (h rfl) .webrtc
    rw [webrtcDone, if_pos rfl, same]
    exact (active _).trans (silent_retried _ i op true)
  | false =>
    rw [webrtcDone, if_neg Bool.false_ne_true]
    exact (active _).trans (silent_retried _ i op false)

/-! ### The invariant -/

/-- The listeners of USB are those of its callbacks, and WebRTC has no callback. -/
structure Listens (m : Manager) : Prop where
  listeners : m.usb.listeners = m.usb.messageCallbacks
  attached : m.usb.listenerAttached = true → m.usb.messageCallbacks ≠ []
  webrtc : m.webrtc.messageCallbacks = []

/-- An active transport is USB, and has the registered callback and no other. -/
structure Heard (m : Manager) : Prop extends Listens m where
  active : ∀ callback, m.messageCallback = some callback →
    ∀ t, m.activeTransport = some t → t = .usb ∧ m.usb.messageCallbacks = [callback]

theorem heard_init : Heard {} := ⟨⟨rfl, nofun, rfl⟩, nofun⟩

theorem Heard.delivers (h : Heard m) : m.Delivers := by
  intro callback registered arrives data
  cases hactive : m.activeTransport with
  | none => simp [Manager.arrives, hactive] at arrives
  | some t =>
    obtain ⟨rfl, callbacks⟩ := h.active callback registered t hactive
    rw [handed]
    split
    · rw [callbacks]
      rfl
    next hd =>
      have hd : m.usb.device = false := by simpa [hactive] using hd
      have connected : m.usb.connected = true := by
        simpa [Manager.arrives, hactive, hd] using arrives
      have webrtc : m.webrtc.hand (arrayFrom data) = [] := by
        simp only [WebRtcTransport.hand, h.webrtc]
        split
        · split <;> rfl
        · rfl
      rw [posted, webrtc, UsbTransport.receive, if_pos connected, h.listeners, callbacks,
        uint8Array_arrayFrom]
      rfl

/-- Nothing is registered, and a transport that becomes active is USB with the callback. -/
theorem Heard.silent (h : Heard m) (silent : Silent m m')
    (active : ∀ callback, m.messageCallback = some callback → ∀ t, m'.activeTransport = some t →
      m.activeTransport = some t ∨ t = .usb ∧ m.usb.messageCallbacks = [callback]) : Heard m' := by
  refine ⟨⟨?_, ?_, silent.webrtcCallbacks.trans h.webrtc⟩, ?_⟩
  · rw [silent.usbListeners, silent.usbCallbacks, h.listeners]
  · intro ha
    rw [silent.usbCallbacks]
    exact h.attached (silent.usbAttached ha)
  · intro callback hc t ht
    rw [silent.messageCallback] at hc
    rw [silent.usbCallbacks]
    rcases active callback hc t ht with active | ready
    · exact h.active callback hc t active
    · exact ready

theorem Heard.keeps (h : Heard m) (silent : Silent m m')
    (active : m'.activeTransport = m.activeTransport ∨ m'.activeTransport = none) : Heard m' := by
  refine h.silent silent fun callback _ t ht => .inl ?_
  rcases active with active | active
  · exact active ▸ ht
  · cases active.symm.trans ht

/-- USB becomes active and is given the callback. -/
theorem Listens.attach (h : Listens m)
    (fresh : m.messageCallback = none ∨ m.usb.messageCallbacks = []) :
    Heard ({ m with activeTransport := some .usb }.attach .usb) := by
  rcases Option.eq_none_or_eq_some m.messageCallback with hc | ⟨callback, hc⟩
  · rw [attach_none (m := { m with activeTransport := some .usb }) hc]
    refine ⟨⟨h.listeners, h.attached, h.webrtc⟩, ?_⟩
    intro callback h'
    cases hc.symm.trans h'
  · have fresh : m.usb.messageCallbacks = [] := fresh.resolve_left (by simp [hc])
    have attached : m.usb.listenerAttached = false := by
      by_contra ha
      exact h.attached (by simpa using ha) fresh
    have eq : { m with activeTransport := some .usb }.attach .usb =
        { m with
          activeTransport := some .usb
          usb := { m.usb with
            messageCallbacks := [callback]
            listenerAttached := true
            listeners := [callback] } } := by
      simp [Manager.attach, hc, UsbTransport.onMessage, attached, fresh, h.listeners]
    rw [eq]
    refine ⟨⟨rfl, fun _ => List.cons_ne_nil _ _, h.webrtc⟩, ?_⟩
    intro callback' h' t ht
    obtain rfl := Option.some.inj (hc.symm.trans h')
    exact ⟨(Option.some.inj ht).symm, rfl⟩

/-! ### One step -/

theorem Heard.usbSwitched (h : Heard m) (frame : Frame m m₁)
    (fresh : m.messageCallback = none ∨ m.usb.messageCallbacks = []) :
    Heard (m₁.usbSwitched i op) := by
  have h₁ : Heard m₁ := h.keeps frame.silent (.inl frame.activeTransport)
  have attached := h₁.toListens.attach (by rwa [frame.messageCallback, frame.usbCallbacks])
  refine attached.keeps (silent_resolve _ i op true) (.inl ?_)
  simp [Manager.usbSwitched, resolve_activeTransport]

theorem Heard.turn (h : Heard m) (hop : m.ops[i]? = some op) (once : m.Once (.settle i outcome))
    (turn : Turn m i op outcome m') : Heard m' := by
  obtain ⟨found, switched, reached⟩ := once op hop
  cases turn with
  | @goesOn _ m₁ a frame webrtc usb order pending connecting sited ready =>
    exact h.keeps (frame.silent.trans (silent_put m₁ i op a)) (.inl frame.activeTransport)
  | @found _ m₁ owner task linked =>
    have silent : Silent m { m₁ with activeTransport := some .usb } :=
      linked.frame.silent.trans ⟨rfl, rfl, rfl, id, rfl⟩
    refine h.silent (silent.trans (silent_discovered _ i op owner)) fun callback hc t ht => .inr ?_
    obtain ⟨-, active⟩ := ends_discovered { m₁ with activeTransport := some .usb } i task
    have links : op.links outcome = true := by cases linked <;> simp_all [Op.links]
    exact ⟨(Option.some.inj (active.symm.trans ht)).symm,
      found (by simp [task, Task.target]) links callback hc⟩
  | @parts _ m₁ target current linked =>
    exact h.keeps (linked.frame.silent.trans (silent_put m₁ i op _))
      (.inl linked.frame.activeTransport)
  | @usbUp _ m₁ target current linked =>
    refine h.usbSwitched linked.frame (switched target ?_)
    rw [linked.succeeds target]
    exact decide_eq_true current
  | parted target at_ =>
    refine h.usbSwitched (frame_released m op.at_) (switched target ?_)
    obtain ⟨current, callers, clears, ht⟩ := Task.eq_of_target target
    simp [Op.succeeds, ht, at_]
  | fails target at_ =>
    have frame := frame_released m op.at_
    apply h.keeps (frame.silent.trans (silent_resolve _ i op false))
    rw [resolve_activeTransport, frame.activeTransport]
    split
    · exact .inr rfl
    · exact .inl rfl
  | rejects target at_ =>
    have frame := frame_released m op.at_
    exact h.keeps (frame.silent.trans ⟨rfl, rfl, rfl, id, rfl⟩) (.inl frame.activeTransport)
  | @webrtcDone attempt answer retryable at_ task =>
    have frame := frame_webrtc m answer
    obtain ⟨-, active⟩ := ends_webrtcDone { m with webrtc := (m.webrtc.connect answer).2 } i task
      (answersConnected answer)
    have registered : answersConnected answer = true → m.messageCallback = none :=
      fun up => reached (by simp [Op.reaches, at_, up])
    have silent := frame.silent.trans (silent_webrtcDone _ i op _ registered)
    cases up : answersConnected answer with
    | true =>
      rw [up] at silent
      apply h.silent silent
      intro callback hc
      cases (registered up).symm.trans hc
    | false =>
      rw [up] at silent active
      exact h.keeps silent (.inr active)
  | @polled wasAvailable known b _ task at_ calls =>
    have silent : Silent m ({ m with usbAvailable := b }.put i op .ended) :=
      ⟨rfl, rfl, rfl, id, rfl⟩
    rcases calls with rfl | ⟨target, rfl⟩
    · exact h.keeps silent (.inl rfl)
    · exact h.keeps (silent.trans (silent_switchTransport _ target false))
        (.inl (switchTransport_activeTransport _ target false))
  | destroyed task at_ =>
    have frame := frame_released m op.at_
    exact h.keeps (frame.silent.trans (silent_put _ i op .ended)) (.inl frame.activeTransport)

theorem silent_cleanup (m : Manager) (t : TransportType) :
    Silent m (m.cleanup t) ∧ (m.cleanup t).activeTransport = m.activeTransport := by
  cases t <;> exact ⟨⟨rfl, rfl, rfl, by simp [cleanup, cleanupUsb, UsbTransport.cleanup], rfl⟩, rfl⟩

/-- The handler of a disconnect. -/
theorem Heard.cleanup (h : Heard m) (t target : TransportType) (clears : Bool) :
    Heard (if m.activeTransport = some t then (m.cleanup t).switchTransport target clears
      else m.cleanup t) := by
  obtain ⟨silent, active⟩ := silent_cleanup m t
  split
  · exact h.keeps (silent.trans (silent_switchTransport _ target clears))
      (.inl ((switchTransport_activeTransport _ target clears).trans active))
  · exact h.keeps silent (.inl active)

theorem Heard.onMessage (h : Heard m) (callback : Nat) (once : m.Once (.onMessage callback)) :
    Heard (m.onMessage callback) := by
  have listens : Listens { m with messageCallback := some callback } :=
    ⟨h.listeners, h.attached, h.webrtc⟩
  obtain active | ⟨active, fresh⟩ := once
  · have eq : m.onMessage callback = { m with messageCallback := some callback } := by
      simp [Manager.onMessage, active]
    rw [eq]
    refine ⟨listens, ?_⟩
    intro _ _ t ht
    cases active.symm.trans ht
  · have eq : m.onMessage callback =
        { m with messageCallback := some callback, activeTransport := some .usb }.attach .usb := by
      simp [Manager.onMessage, ← active]
      simp [active]
    rw [eq]
    exact listens.attach (.inr fresh)

theorem Heard.step {e : ManagerEvent} (hf : Formed m) (h : Heard m) (once : m.Once e)
    (hs : m.step e = some m') : Heard m' := by
  cases effect_of_step hs with
  | init | selectTransport =>
    refine h.keeps ?_ (.inl ?_)
    all_goals
      first | rw [initManager] | rw [Manager.selectTransport]
      split
    all_goals first | exact ⟨rfl, rfl, rfl, id, rfl⟩ | rfl
  | switchTransport target =>
    exact h.keeps (silent_switchTransport m target false)
      (.inl (switchTransport_activeTransport m target false))
  | destroy =>
    obtain ⟨m₁, a, frame, usb, webrtc, -, eq⟩ := destroy_starts m
    have silent : Silent m m₁ := by
      refine ⟨by simp [frame.messageCallback], ?_, ?_, ?_, ?_⟩ <;> simp [usb, webrtc]
    rw [eq]
    refine h.keeps (silent.trans ⟨rfl, rfl, rfl, id, rfl⟩) (.inl ?_)
    simp [start, frame.activeTransport]
  | onMessage callback => exact h.onMessage callback once
  | pollTick => exact h.keeps ⟨rfl, rfl, rfl, id, rfl⟩ (.inl rfl)
  | settle hop quiet mid hs =>
    exact h.turn hop once (turn_of_settle (hf.sited _ (List.mem_of_getElem? hop)) hs)
  | lost t target clears rests => exact h.cleanup t target clears

/-- In a run in which a callback is registered with a transport once, each message on the active
transport reaches the callback registered last, once, and no other. -/
theorem delivers_of_once {es : List ManagerEvent}
    (honce : Machine.Throughout Manager.step Once {} es) :
    Machine.Everywhere Manager.step Delivers {} es := by
  refine (Machine.everywhere_of_throughout (I := fun m => Formed m ∧ Heard m)
    ⟨formed_init, heard_init⟩ honce ?_).mono fun _ h => h.2.delivers
  intro _ _ _ h once hs
  exact ⟨h.1.step hs, h.2.step h.1 once hs⟩

/-- A callback is registered while USB is active, and a poll finds USB still there. -/
def registeredOnUsb : List ManagerEvent :=
  [.init, .settle 0 (.available true), .settle 0 (.opened true), .onMessage 7, .pollTick,
   .settle 1 (.available true)]

theorem registeredOnUsb_delivers : Machine.Everywhere Manager.step Delivers {} registeredOnUsb ∧
    (Machine.exec Manager.step {} registeredOnUsb).any
      (fun m => m.arrives && m.handed [1, 2] = [(7, [1, 2])]) = true :=
  ⟨delivers_of_once (by decide +kernel), by decide +kernel⟩

/-- The callback is registered before USB is discovered. -/
def registeredFirst : List ManagerEvent :=
  [.onMessage 7, .init, .settle 0 (.available true), .settle 0 (.opened true)]

/-- USB is lost while it has the callback, and comes back. -/
def usbComesBack : List ManagerEvent :=
  [.init, .settle 0 (.available true), .settle 0 (.opened true), .onMessage 7, .usbReadError,
   .settle 1 (.disconnected true), .settle 1 (.state (.ok none) false), .switchTransport .usb,
   .settle 2 (.opened true)]

/-- The callback is registered while WebRTC is active. -/
def registeredOnWebRtc : List ManagerEvent :=
  [.selectTransport, .settle 0 (.available false),
   .settle 0 (.state (.ok (some { success := true, connectionState := some .connected })) false),
   .onMessage 7]

theorem message_lost_or_handed_twice :
    (∃ m, Machine.Run Manager.step {} registeredFirst m ∧ m.handed [1, 2] = [] ∧ ¬m.Delivers) ∧
    (∃ m, Machine.Run Manager.step {} usbComesBack m ∧
      m.handed [1, 2] = [(7, [1, 2]), (7, [1, 2])] ∧ ¬m.Delivers) ∧
    ∃ m, Machine.Run Manager.step {} registeredOnWebRtc m ∧ m.handed [1, 2] = [] ∧ ¬m.Delivers := by
  have fails {es : List ManagerEvent} (calls : List (Nat × Bytes)) (hne : calls ≠ [(7, [1, 2])])
      (h : (Machine.exec Manager.step {} es).any (fun m =>
        m.messageCallback = some 7 && m.arrives && m.handed [1, 2] = calls) = true) :
      ∃ m, Machine.Run Manager.step {} es m ∧ m.handed [1, 2] = calls ∧ ¬m.Delivers := by
    obtain ⟨m, run, hm⟩ := Machine.exists_run_with h
    simp only [Bool.and_eq_true, decide_eq_true_eq] at hm
    exact ⟨m, run, hm.2, fun h => hne (hm.2.symm.trans (h 7 hm.1.1 hm.1.2 [1, 2]))⟩
  exact ⟨fails [] nofun (by decide +kernel), fails _ (by decide) (by decide +kernel),
    fails [] nofun (by decide +kernel)⟩

end Manager

end SmartIdVault.Transport
