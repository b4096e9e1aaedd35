import SmartIdVault.Transport.Manager

/-! What a call of a transport manager does: at which awaits it can be, how it begins, and what it
does to itself and to the manager when what it awaits settles. -/

namespace SmartIdVault.Transport

/-- A call with this task awaits something of this kind, or has ended. -/
def Task.awaits : Task → Await → Bool
  | _, .ended => true
  | .discover _, .closing | .discover _, .messaging _ | .discover _, .returning => false
  | .discover _, _ => true
  | .doSwitch .usb .., .usbReady | .doSwitch .usb .., .usbOpening | .doSwitch .usb .., .usbRelaying
  | .doSwitch .usb .., .messaging .webrtc | .doSwitch .usb .., .returning => true
  | .doSwitch .webrtc .., .closing | .doSwitch .webrtc .., .messaging .usb
  | .doSwitch .webrtc .., .webrtcConnecting _ | .doSwitch .webrtc .., .webrtcSleeping _ => true
  | .poll _, .checking _ => true
  | .destroy, .closing | .destroy, .messaging _ => true
  | _, _ => false

/-- The target of a `doSwitch`. -/
def Task.target : Task → Option TransportType
  | .doSwitch target .. => some target
  | _ => none

/-- The type of the active transport at the start of a `doSwitch`. -/
def Task.current : Task → Option TransportType
  | .doSwitch _ current .. => current
  | _ => none

/-- The targets that those who wait for a `doSwitch` have asked for. -/
def Task.callers : Task → List TransportType
  | .doSwitch _ _ callers _ => callers
  | _ => []

theorem Task.eq_of_target {task : Task} {own : TransportType} (h : task.target = some own) :
    ∃ current callers clears, task = .doSwitch own current callers clears := by
  cases task with
  | doSwitch target current callers clears =>
    exact ⟨current, callers, clears, by rw [Option.some.inj h]⟩
  | _ => cases h

/-- The handler of a WebRTC disconnect waits for the switch. -/
def Task.clears : Task → Bool
  | .doSwitch _ _ _ clears => clears
  | _ => false

/-- It awaits a connection, or the next attempt at one. -/
def Await.connecting : Await → Bool
  | .usbReady | .usbOpening | .usbRelaying | .webrtcConnecting _ | .webrtcSleeping _ => true
  | _ => false

/-- The way to `webrtc-connect-usb`, which is the second stage. -/
def Await.stage : Await → Nat
  | .checking _ => 0
  | .usbReady | .usbOpening => 1
  | .usbRelaying => 2
  | _ => 3

/-- It awaits the end of a `disconnect`. -/
def Await.parting : Await → Bool
  | .closing | .messaging _ => true
  | _ => false

/-- The task without those who wait for it. -/
def Task.root : Task → Task
  | .doSwitch target current _ _ => .doSwitch target current [] false
  | task => task

/-- A call of `initialize` or `destroy`. -/
def Task.lasting : Task → Bool
  | .discover .init | .destroy => true
  | _ => false

theorem Task.eq_of_root {task task' : Task} (h : task'.root = task.root)
    (lasting : task.lasting = true ∨ task'.lasting = true) : task' = task := by
  cases task <;> cases task' <;> simp_all [Task.root, Task.lasting]

theorem Task.target_of_root {task task' : Task} (h : task'.root = task.root) :
    task'.target = task.target := by
  have same (t : Task) : t.target = t.root.target := by cases t <;> rfl
  rw [same task', h, ← same]

theorem Op.join_root (op : Op) (target : TransportType) (clears : Bool) :
    (op.join target clears).task.root = op.task.root ∧ (op.join target clears).at_ = op.at_ := by
  obtain ⟨task, at_⟩ := op
  cases task <;> exact ⟨rfl, rfl⟩

theorem Op.join_target (op : Op) (target : TransportType) (clears : Bool) :
    (op.join target clears).task.target = op.task.target ∧
      (op.join target clears).at_ = op.at_ :=
  (op.join_root target clears).imp_left Task.target_of_root

theorem Op.join_awaits (op : Op) (target : TransportType) (clears : Bool) (a : Await) :
    (op.join target clears).task.awaits a = op.task.awaits a := by
  rcases op with ⟨_ | ⟨_ | _⟩ | _ | _, at_⟩ <;> rcases a with _ | _ | _ | _ | _ | ⟨_ | _⟩ <;> rfl

theorem Op.mem_join (op : Op) (target : TransportType) (clears : Bool) :
    ∀ t ∈ op.task.callers, t ∈ (op.join target clears).task.callers := by
  obtain ⟨task, at_⟩ := op
  cases task with
  | doSwitch => exact fun t ht => List.mem_append_left _ ht
  | _ => exact fun t ht => ht

/-- `get-connection-state` has the answer that `connect` of the WebRTC transport needs. -/
def answersConnected : Settled → Bool
  | .ok response => response.bind MessageResponse.connectionState = some .connected
  | .error _ => false

theorem connect_connected (t : WebRtcTransport Nat) {answer : Settled}
    (h : answersConnected answer = true) : (t.connect answer).2.connected = true := by
  cases answer with
  | ok response => simp [WebRtcTransport.connect, of_decide_eq_true h]
  | error => cases h

/-- With this outcome the switch resolves to `true`. -/
def Op.succeeds (op : Op) (outcome : Outcome) : Bool :=
  match op.task, op.at_, outcome with
  | .doSwitch .usb current .., .usbReady, .proceeds => current ≠ some .webrtc
  | .doSwitch .usb current .., .usbOpening, .opened _ => current ≠ some .webrtc
  | .doSwitch .usb current .., .usbRelaying, .relayed true => current ≠ some .webrtc
  | .doSwitch .usb .., .messaging _, .disconnected true => true
  | .doSwitch .webrtc .., .webrtcConnecting _, .state answer _ => answersConnected answer
  | _, _, _ => false

namespace Manager

variable {m m' m₁ : Manager} {i : Nat} {op : Op} {a : Await} {outcome : Outcome}

/-- `after` agrees with `before` but for how the transports stand and what is known of USB. -/
structure Frame (before after : Manager) : Prop where
  activeTransport : after.activeTransport = before.activeTransport
  connecting : after.connecting = before.connecting
  selectPromise : after.selectPromise = before.selectPromise
  switchPromise : after.switchPromise = before.switchPromise
  usbPollTimer : after.usbPollTimer = before.usbPollTimer
  intervals : after.intervals = before.intervals
  messageCallback : after.messageCallback = before.messageCallback
  ops : after.ops = before.ops
  resolved : after.resolved = before.resolved
  usbCallbacks : after.usb.messageCallbacks = before.usb.messageCallbacks
  usbListeners : after.usb.listeners = before.usb.listeners
  usbAttached : after.usb.listenerAttached = true → before.usb.listenerAttached = true
  webrtcCallbacks : after.webrtc.messageCallbacks = before.webrtc.messageCallbacks

theorem Frame.refl (m : Manager) : Frame m m :=
  ⟨rfl, rfl, rfl, rfl, rfl, rfl, rfl, rfl, rfl, rfl, rfl, id, rfl⟩

/-- The manager at the end of the `disconnect` that a call awaits. -/
def released (m : Manager) : Await → Manager
  | .closing => m.cleanupUsb
  | .messaging transport => m.cleanup transport
  | _ => m

theorem frame_released (m : Manager) (a : Await) : Frame m (m.released a) := by
  rcases a with _ | _ | _ | _ | _ | ⟨_ | _⟩ | _ | _ | _ | _ <;>
    exact ⟨rfl, rfl, rfl, rfl, rfl, rfl, rfl, rfl, rfl, rfl, rfl, by
      simp [released, cleanup, cleanupUsb, UsbTransport.cleanup], rfl⟩

theorem usb_connect_frame (u : UsbTransport Nat) (opened relayed : Bool) :
    (u.connect opened relayed).messageCallbacks = u.messageCallbacks ∧
      (u.connect opened relayed).listeners = u.listeners ∧
      (u.connect opened relayed).listenerAttached = u.listenerAttached := by
  cases hd : u.device <;> cases opened <;> cases relayed <;> simp [UsbTransport.connect, hd]

theorem frame_usb (m : Manager) (opened relayed known readLoopActive : Bool) :
    Frame m { m with
      usb := m.usb.connect opened relayed
      usbAvailable := known
      readLoopActive } := by
  obtain ⟨hc, hl, ha⟩ := usb_connect_frame m.usb opened relayed
  exact ⟨rfl, rfl, rfl, rfl, rfl, rfl, rfl, rfl, rfl, hc, hl, fun h => ha ▸ h, rfl⟩

theorem frame_known (m : Manager) (known : Bool) : Frame m { m with usbAvailable := known } :=
  ⟨rfl, rfl, rfl, rfl, rfl, rfl, rfl, rfl, rfl, rfl, rfl, id, rfl⟩

theorem frame_webrtc (m : Manager) (answer : Settled) :
    Frame m { m with webrtc := (m.webrtc.connect answer).2 } := by
  refine ⟨rfl, rfl, rfl, rfl, rfl, rfl, rfl, rfl, rfl, rfl, rfl, id, ?_⟩
  cases answer with
  | error err => rfl
  | ok response =>
    simp only [WebRtcTransport.connect]
    split <;> rfl

/-- The USB transport has its link: over the device it had, over one it has opened, or through the
offscreen document. -/
inductive Linked (m : Manager) (op : Op) : Outcome → Manager → Prop
  | ready : op.at_ = .usbReady → Linked m op .proceeds m
  | opened {endpoint : Bool} : op.at_ = .usbOpening →
      Linked m op (.opened endpoint) (m.openUsb endpoint)
  | relayed : op.at_ = .usbRelaying →
      Linked m op (.relayed true) { m with usb := m.usb.connect false true }

theorem Linked.succeeds (h : Linked m op outcome m₁) (target : op.task.target = some .usb) :
    op.succeeds outcome = decide (op.task.current ≠ some .webrtc) := by
  obtain ⟨task, at_⟩ := op
  obtain ⟨current, callers, clears, rfl⟩ := Task.eq_of_target target
  cases h <;> (subst_vars; rfl)

/-- What a step of call `i` does. -/
inductive Turn (m : Manager) (i : Nat) (op : Op) : Outcome → Manager → Prop
  /-- It goes on to connect a transport; a `disconnect` before that has ended. -/
  | goesOn {outcome : Outcome} {m₁ : Manager} {a : Await} (frame : Frame m m₁)
      (webrtc : m₁.webrtc = m.webrtc)
      (usb : m₁.usb.device = m.usb.device ∧ (m.usb.connected = true → m₁.usb.connected = true) ∨
        op.at_ = .closing ∨ op.at_ = .messaging .usb)
      (order : op.at_.stage < 2 ∨ 2 < a.stage) (pending : op.succeeds outcome = false)
      (connecting : a.connecting = true) (sited : op.task.awaits a = true)
      (ready : a = .usbReady → m₁.usb.device = true ∧ m₁.usb.connected = true) :
      Turn m i op outcome (m₁.put i op a)
  | found {outcome : Outcome} {m₁ : Manager} {owner : Owner} (task : op.task = .discover owner)
      (linked : Linked m op outcome m₁) :
      Turn m i op outcome ({ m₁ with activeTransport := some .usb }.discovered i op owner)
  /-- A switch from WebRTC to USB goes on to disconnect WebRTC. -/
  | parts {outcome : Outcome} {m₁ : Manager} (target : op.task.target = some .usb)
      (current : op.task.current = some .webrtc) (linked : Linked m op outcome m₁) :
      Turn m i op outcome (m₁.put i op (.messaging .webrtc))
  | usbUp {outcome : Outcome} {m₁ : Manager} (target : op.task.target = some .usb)
      (current : op.task.current ≠ some .webrtc) (linked : Linked m op outcome m₁) :
      Turn m i op outcome (m₁.usbSwitched i op)
  | parted (target : op.task.target = some .usb) (at_ : op.at_ = .messaging .webrtc) :
      Turn m i op (.disconnected true) ((m.released op.at_).usbSwitched i op)
  /-- A switch to USB resolves to `false`. -/
  | fails {outcome : Outcome} (target : op.task.target = some .usb)
      (at_ : op.at_ = .usbRelaying ∧ outcome = .relayed false ∨
        op.at_ = .messaging .webrtc ∧ outcome = .disconnected false ∨
        op.at_ = .returning ∧ outcome = .proceeds) :
      Turn m i op outcome ((m.released op.at_).resolve i op false)
  | rejects (target : op.task.target = some .webrtc) (at_ : op.at_ = .messaging .usb) :
      Turn m i op (.disconnected false) ((m.released op.at_).reject i op)
  | webrtcDone {attempt : Nat} {answer : Settled} {retryable : Bool}
      (at_ : op.at_ = .webrtcConnecting attempt)
      (task : (∃ owner, op.task = .discover owner) ∨ op.task.target = some .webrtc) :
      Turn m i op (.state answer retryable)
        ({ m with webrtc := (m.webrtc.connect answer).2 }.webrtcDone i op
          (answersConnected answer))
  | polled {wasAvailable known b : Bool} {m' : Manager} (task : op.task = .poll wasAvailable)
      (at_ : op.at_ = .checking known)
      (calls : m' = { m with usbAvailable := b }.put i op .ended ∨ ∃ target,
        m' = ({ m with usbAvailable := b }.put i op .ended).switchTransport target false) :
      Turn m i op (.available b) m'
  | destroyed {outcome : Outcome} (task : op.task = .destroy) (at_ : op.at_.parting = true) :
      Turn m i op outcome ((m.released op.at_).put i op .ended)

/-! ### What a step does to a call -/

theorem turn_usbConnected (hs : op.task.awaits op.at_ = true) (h : Linked m op outcome m₁) :
    Turn m i op outcome (m₁.usbConnected i op) := by
  obtain ⟨task, at_⟩ := op
  cases task with
  | discover owner => exact .found rfl h
  | doSwitch target current callers clears =>
    cases target with
    | usb =>
      simp only [usbConnected]
      split
      next hc => exact .parts rfl hc h
      next hc => exact .usbUp rfl hc h
    | webrtc => cases h <;> (subst_vars; cases hs)
  | poll | destroy => cases h <;> (subst_vars; cases hs)

theorem connectUsb_turn (m : Manager) (known : Bool) (owner : Owner) {at_ : Await}
    (order : at_.stage < 2) :
    Turn m i ⟨.discover owner, at_⟩ outcome
      ({ m with usbAvailable := known }.connectUsb i ⟨.discover owner, at_⟩) := by
  simp only [connectUsb]
  split
  next hd =>
    refine .goesOn (frame_usb m false false known m.readLoopActive) rfl (.inl ?_) (.inl order) rfl
      rfl rfl fun _ => ?_
    all_goals simp [UsbTransport.connect, hd]
  next =>
    refine .goesOn (frame_known m known) rfl (.inl ⟨rfl, id⟩) (.inl order) rfl rfl rfl ?_
    rintro ⟨⟩

theorem turn_webrtcAnswered {attempt : Nat} {answer : Settled} {retryable : Bool}
    (hs : op.task.awaits op.at_ = true) (ha : op.at_ = .webrtcConnecting attempt) :
    Turn m i op (.state answer retryable) (m.webrtcAnswered i op attempt answer retryable) := by
  have task : (∃ owner, op.task = .discover owner) ∨ op.task.target = some .webrtc := by
    obtain ⟨task, at_⟩ := op
    subst ha
    cases task with
    | discover owner => exact .inl ⟨owner, rfl⟩
    | doSwitch target =>
      cases target with
      | usb => cases hs
      | webrtc => exact .inr rfl
    | poll | destroy => cases hs
  have sited : op.task.awaits (.webrtcSleeping attempt) = true := by
    obtain ⟨owner, h⟩ | h := task
    · simp [h, Task.awaits]
    · obtain ⟨task, at_⟩ := op
      cases task <;> simp_all [Task.target, Task.awaits]
  cases answer with
  | error err =>
    have pending : op.succeeds (.state (.error err) retryable) = false := by
      obtain ⟨owner, h⟩ | h := task
      · simp [Op.succeeds, h]
      · obtain ⟨current, callers, clears, h⟩ := Task.eq_of_target h
        simp [Op.succeeds, h, ha, answersConnected]
    simp only [webrtcAnswered, WebRtcTransport.connect]
    split
    · refine .goesOn (.refl m) rfl (.inl ⟨rfl, id⟩) (.inr (Nat.lt_succ_self 2)) pending rfl sited ?_
      rintro ⟨⟩
    · exact @Turn.webrtcDone m i op attempt (.error err) retryable ha task
  | ok response =>
    have eq : m.webrtcAnswered i op attempt (.ok response) retryable =
        { m with webrtc := (m.webrtc.connect (.ok response)).2 }.webrtcDone i op
          (answersConnected (.ok response)) := by
      by_cases hc : response.bind MessageResponse.connectionState = some .connected <;>
        simp [webrtcAnswered, WebRtcTransport.connect, answersConnected, hc]
    exact eq ▸ .webrtcDone ha task

theorem turn_checked {known b : Bool} (hs : op.task.awaits op.at_ = true)
    (ha : op.at_ = .checking known) : Turn m i op (.available b) (m.checked i op b) := by
  obtain ⟨task, at_⟩ := op
  subst ha
  cases task with
  | discover owner =>
    cases b with
    | true => exact connectUsb_turn m true owner Nat.zero_lt_two
    | false =>
      exact .goesOn (frame_known m false) rfl (.inl ⟨rfl, id⟩) (.inr (by decide)) rfl rfl rfl nofun
  | poll wasAvailable =>
    refine .polled rfl rfl ?_
    simp only [checked]
    split
    · exact .inr ⟨_, rfl⟩
    · split
      · exact .inr ⟨_, rfl⟩
      · exact .inl rfl
  | doSwitch target => cases target <;> cases hs
  | destroy => cases hs

theorem turn_of_settle (hs : op.task.awaits op.at_ = true)
    (h : m.settle i op outcome = some m') : Turn m i op outcome m' := by
  obtain ⟨task, at_⟩ := op
  cases at_ with
  | checking known =>
    cases outcome with
    | available b =>
      simp only [settle] at h
      split at h
      · cases h
      · exact Option.some.inj h ▸ turn_checked hs rfl
    | _ => cases h
  | usbReady =>
    cases outcome with
    | proceeds => exact Option.some.inj h ▸ turn_usbConnected hs (.ready rfl)
    | _ => cases h
  | usbOpening =>
    cases outcome with
    | opened endpoint => exact Option.some.inj h ▸ turn_usbConnected hs (.opened rfl)
    | notOpened =>
      obtain rfl := Option.some.inj h
      refine .goesOn (.refl m) rfl (.inl ⟨rfl, id⟩) (.inl Nat.one_lt_two) ?_ rfl ?_ nofun
      all_goals rcases task with _ | ⟨_ | _⟩ | _ | _ <;> first | rfl | cases hs
    | _ => cases h
  | usbRelaying =>
    cases outcome with
    | relayed success =>
      cases success with
      | true => exact Option.some.inj h ▸ turn_usbConnected hs (.relayed rfl)
      | false =>
        obtain rfl := Option.some.inj h
        rcases task with owner | ⟨_ | _⟩ | _ | _
        · exact .goesOn (.refl m) rfl (.inl ⟨rfl, id⟩) (.inr (by decide)) rfl rfl rfl nofun
        · exact .fails (m := m) rfl (.inl ⟨rfl, rfl⟩)
        all_goals cases hs
    | _ => cases h
  | closing =>
    cases outcome with
    | closed =>
      obtain rfl := Option.some.inj h
      rcases task with owner | ⟨_ | _⟩ | _ | _
      · cases hs
      · cases hs
      · exact .goesOn (frame_released m .closing) rfl (.inr (.inl rfl)) (.inr (by decide)) rfl rfl
          rfl nofun
      · cases hs
      · exact .destroyed (m := m) rfl rfl
    | _ => cases h
  | messaging transport =>
    cases outcome with
    | disconnected ok =>
      rcases task with owner | ⟨_ | _⟩ | _ | _
      · cases hs
      · cases transport with
        | usb => cases hs
        | webrtc =>
          cases ok with
          | true => exact Option.some.inj h ▸ .parted (m := m) rfl rfl
          | false => exact Option.some.inj h ▸ .fails (m := m) rfl (.inr (.inl ⟨rfl, rfl⟩))
      · cases transport with
        | usb =>
          cases ok with
          | true =>
            obtain rfl := Option.some.inj h
            exact .goesOn (frame_released m (.messaging .usb)) rfl (.inr (.inr rfl))
              (.inr (by decide)) rfl rfl rfl nofun
          | false => exact Option.some.inj h ▸ .rejects (m := m) rfl rfl
        | webrtc => cases hs
      · cases hs
      · cases ok <;> exact Option.some.inj h ▸ .destroyed (m := m) rfl rfl
    | _ => cases h
  | webrtcConnecting attempt =>
    cases outcome with
    | state answer retryable => exact Option.some.inj h ▸ turn_webrtcAnswered hs rfl
    | _ => cases h
  | webrtcSleeping attempt =>
    cases outcome with
    | slept =>
      obtain rfl := Option.some.inj h
      refine .goesOn (.refl m) rfl (.inl ⟨rfl, id⟩) (.inr (Nat.lt_succ_self 2)) ?_ rfl ?_ nofun
      all_goals rcases task with _ | ⟨_ | _⟩ | _ | _ <;> first | rfl | cases hs
    | _ => cases h
  | returning =>
    cases outcome with
    | proceeds =>
      obtain rfl := Option.some.inj h
      rcases task with owner | ⟨_ | _⟩ | _ | _
      · cases hs
      · exact .fails (m := m) rfl (.inr (.inr ⟨rfl, rfl⟩))
      all_goals cases hs
    | _ => cases h
  | ended => cases h

/-! ### What the other calls begin with -/

theorem switchTransport_joins (h : m.switchPromise = some i) (target : TransportType)
    (clears : Bool) :
    m.switchTransport target clears = { m with ops := m.ops.modify i (·.join target clears) } := by
  rw [switchTransport, h]

/-- How a `doSwitch` begins: with its first await `a`, and the manager in `m₁`. -/
structure Starts (m : Manager) (target : TransportType) (m₁ : Manager) (a : Await) : Prop where
  frame : Frame { m with switchPromise := some m.ops.length } m₁
  webrtc : m₁.webrtc = m.webrtc
  device : m₁.usb.device = m.usb.device
  connected : m.usb.connected = true → m₁.usb.connected = true
  sited : ∀ current callers clears, (Task.doSwitch target current callers clears).awaits a = true
  under_way : a ≠ .ended
  parting : target = .usb → a.parting = false
  ready : a = .usbReady → m₁.usb.device = true ∧ m₁.usb.connected = true

theorem connectUsb_start (m : Manager) (task : Task) (at_ : Await) :
    (m.start task at_).connectUsb m.ops.length ⟨task, at_⟩ =
      if m.usb.device then { m with usb := m.usb.connect false false }.start task .usbReady
      else m.start task .usbOpening := by
  by_cases hd : m.usb.device = true <;> simp [connectUsb, start, put, hd]

theorem switchTransport_starts (h : m.switchPromise = none) (target : TransportType)
    (clears : Bool) :
    ∃ m₁ a, Starts m target m₁ a ∧ m.switchTransport target clears =
      m₁.start (.doSwitch target m.activeTransport [target] clears) a := by
  let m₀ : Manager := { m with switchPromise := some m.ops.length }
  cases target with
  | usb =>
    cases hu : m.usbAvailable with
    | false =>
      refine ⟨m₀, .returning,
        ⟨.refl m₀, rfl, rfl, id, fun _ _ _ => rfl, ?_, fun _ => rfl, ?_⟩, ?_⟩
      · rintro ⟨⟩
      · rintro ⟨⟩
      · simp [switchTransport, h, hu, m₀]
    | true =>
      have eq : m.switchTransport .usb clears =
          (m₀.start (.doSwitch .usb m.activeTransport [.usb] clears) .usbOpening).connectUsb
            m₀.ops.length ⟨.doSwitch .usb m.activeTransport [.usb] clears, .usbOpening⟩ := by
        simp [switchTransport, h, hu, m₀]
      rw [eq, connectUsb_start]
      by_cases hd : m.usb.device = true
      · refine ⟨{ m₀ with usb := m.usb.connect false false }, .usbReady, ⟨?_, rfl, ?_, ?_, ?_, ?_,
          fun _ => rfl, fun _ => ?_⟩, if_pos hd⟩
        · exact frame_usb m₀ false false m.usbAvailable m.readLoopActive
        all_goals simp [UsbTransport.connect, hd, Task.awaits]
      · refine ⟨m₀, .usbOpening, ⟨.refl m₀, rfl, rfl, id, fun _ _ _ => rfl, ?_, fun _ => rfl, ?_⟩,
          if_neg hd⟩
        · rintro ⟨⟩
        · rintro ⟨⟩
  | webrtc =>
    by_cases ha : m.activeTransport = some .usb
    · refine ⟨m₀.disconnect .usb, m.disconnecting .usb, ⟨?_, rfl, rfl, id, ?_, ?_, ?_, ?_⟩, ?_⟩
      · exact ⟨rfl, rfl, rfl, rfl, rfl, rfl, rfl, rfl, rfl, rfl, rfl, id, rfl⟩
      · intro _ _ _
        simp only [disconnecting]
        split <;> rfl
      · simp only [disconnecting]
        split <;> rintro ⟨⟩
      · rintro ⟨⟩
      · simp only [disconnecting]
        split <;> rintro ⟨⟩
      · simp [switchTransport, h, ha, m₀, disconnecting, disconnect]
    · refine ⟨m₀, .webrtcConnecting 1, ⟨.refl m₀, rfl, rfl, id, fun _ _ _ => rfl, ?_, ?_, ?_⟩, ?_⟩
      · rintro ⟨⟩
      · rintro ⟨⟩
      · rintro ⟨⟩
      · simp [switchTransport, h, ha, m₀]

/-- A call of `switchTransport` leaves the transports as they are, or connects USB over the device
that it has. -/
theorem switchTransport_transports (m : Manager) (target : TransportType) (clears : Bool) :
    (m.switchTransport target clears).webrtc = m.webrtc ∧
      (m.switchTransport target clears).usb.device = m.usb.device ∧
      (m.usb.connected = true → (m.switchTransport target clears).usb.connected = true) := by
  cases h : m.switchPromise with
  | some i =>
    rw [switchTransport_joins h]
    exact ⟨rfl, rfl, id⟩
  | none =>
    obtain ⟨m₁, a, starts, eq⟩ := switchTransport_starts h target clears
    rw [eq]
    exact ⟨starts.webrtc, starts.device, starts.connected⟩

theorem switchTransport_activeTransport (m : Manager) (target : TransportType) (clears : Bool) :
    (m.switchTransport target clears).activeTransport = m.activeTransport := by
  cases h : m.switchPromise with
  | some i => rw [switchTransport_joins h]
  | none =>
    obtain ⟨m₁, a, starts, eq⟩ := switchTransport_starts h target clears
    rw [eq]
    exact starts.frame.activeTransport

@[simp] theorem clearPollTimer_fields (m : Manager) :
    m.clearPollTimer.activeTransport = m.activeTransport ∧ m.clearPollTimer.usb = m.usb ∧
      m.clearPollTimer.webrtc = m.webrtc ∧ m.clearPollTimer.ops = m.ops ∧
      m.clearPollTimer.switchPromise = m.switchPromise ∧
      m.clearPollTimer.resolved = m.resolved ∧
      m.clearPollTimer.messageCallback = m.messageCallback := by
  rw [clearPollTimer]
  split <;> simp

/-- `destroy` ends at once when no transport is active, and begins to disconnect it else. -/
theorem destroy_starts (m : Manager) :
    ∃ m₁ a, Frame m.clearPollTimer m₁ ∧ m₁.usb = m.usb ∧ m₁.webrtc = m.webrtc ∧
      (m.activeTransport = none ∧ a = .ended ∨ a.parting = true) ∧
      m.destroy = m₁.start .destroy a := by
  have same := clearPollTimer_fields m
  cases ha : m.activeTransport with
  | none =>
    refine ⟨m.clearPollTimer, .ended, .refl _, same.2.1, same.2.2.1, .inl ⟨rfl, rfl⟩, ?_⟩
    simp [destroy, ha]
  | some transport =>
    refine ⟨m.clearPollTimer.disconnect transport, m.clearPollTimer.disconnecting transport, ?_⟩
    have eq : m.destroy = (m.clearPollTimer.disconnect transport).start .destroy
        (m.clearPollTimer.disconnecting transport) := by
      simp [destroy, ha]
    cases transport with
    | usb =>
      refine ⟨⟨rfl, rfl, rfl, rfl, rfl, rfl, rfl, rfl, rfl, rfl, rfl, id, rfl⟩, same.2.1,
        same.2.2.1, .inr ?_, eq⟩
      simp only [disconnecting]
      split <;> rfl
    | webrtc => exact ⟨.refl _, same.2.1, same.2.2.1, .inr rfl, eq⟩

/-! ### How a step ends -/

@[simp] theorem attach_ops (m : Manager) (t : TransportType) : (m.attach t).ops = m.ops := by
  cases h : m.messageCallback <;> cases t <;> simp [attach, h]

@[simp] theorem attach_activeTransport (m : Manager) (t : TransportType) :
    (m.attach t).activeTransport = m.activeTransport := by
  cases h : m.messageCallback <;> cases t <;> simp [attach, h]

@[simp] theorem attach_resolved (m : Manager) (t : TransportType) :
    (m.attach t).resolved = m.resolved := by
  cases h : m.messageCallback <;> cases t <;> simp [attach, h]

@[simp] theorem attach_switchPromise (m : Manager) (t : TransportType) :
    (m.attach t).switchPromise = m.switchPromise := by
  cases h : m.messageCallback <;> cases t <;> simp [attach, h]

@[simp] theorem attach_usb_device (m : Manager) (t : TransportType) :
    (m.attach t).usb.device = m.usb.device := by
  cases h : m.messageCallback <;> cases t <;> simp [attach, h, UsbTransport.onMessage]
  split <;> rfl

@[simp] theorem attach_usb_connected (m : Manager) (t : TransportType) :
    (m.attach t).usb.connected = m.usb.connected := by
  cases h : m.messageCallback <;> cases t <;> simp [attach, h, UsbTransport.onMessage]
  split <;> rfl

@[simp] theorem attach_webrtc_connected (m : Manager) (t : TransportType) :
    (m.attach t).webrtc.connected = m.webrtc.connected := by
  cases h : m.messageCallback <;> cases t <;> simp [attach, h, WebRtcTransport.onMessage]

/-- Call `i` has ended: its own promise is settled, and the transports are as they were. -/
structure Ends (m : Manager) (i : Nat) (op : Op) (m' : Manager) : Prop where
  ops : m'.ops = m.ops.set i { op with at_ := .ended }
  switchPromise : m'.switchPromise = if op.task.target.isSome then none else m.switchPromise
  device : m'.usb.device = m.usb.device
  connected : m'.usb.connected = m.usb.connected
  webrtc : m'.webrtc.connected = m.webrtc.connected

/-- It has made a transport active before. -/
theorem Ends.activated {t : Option TransportType} {transport : TransportType}
    (h : Ends ({ m with activeTransport := t }.attach transport) i op m') : Ends m i op m' :=
  ⟨by simpa using h.ops, by simpa using h.switchPromise, by simpa using h.device,
    by simpa using h.connected, by simpa using h.webrtc⟩

theorem ends_discovered (m : Manager) (i : Nat) {owner : Owner} (h : op.task = .discover owner) :
    Ends m i op (m.discovered i op owner) ∧
      (m.discovered i op owner).activeTransport = m.activeTransport := by
  cases owner <;> exact ⟨⟨rfl, by simp [h, Task.target, discovered, put], rfl, rfl, rfl⟩, rfl⟩

theorem ends_resolve (m : Manager) (i : Nat) {own : TransportType} (h : op.task.target = some own)
    (result : Bool) : Ends m i op (m.resolve i op result) := by
  obtain ⟨current, callers, clears, ht⟩ := Task.eq_of_target h
  constructor <;> simp [resolve, put, ht, Task.target]

theorem resolve_activeTransport (m : Manager) (i : Nat) (op : Op) (result : Bool) :
    (m.resolve i op result).activeTransport =
      if !result && op.task.clears then none else m.activeTransport := by
  cases h : op.task <;> simp [resolve, h, Task.clears]

theorem ends_usbSwitched (m : Manager) (i : Nat) (h : op.task.target = some .usb) :
    Ends m i op (m.usbSwitched i op) ∧ (m.usbSwitched i op).activeTransport = some .usb :=
  ⟨(ends_resolve _ i h true).activated, by simp [usbSwitched, resolve_activeTransport]⟩

theorem ends_reject (m : Manager) (i : Nat) (h : op.task.target = some .webrtc) :
    Ends m i op (m.reject i op) :=
  ⟨rfl, by simp [reject, h], rfl, rfl, rfl⟩

theorem ends_retried (m : Manager) (i : Nat)
    (h : (∃ owner, op.task = .discover owner) ∨ op.task.target = some .webrtc) (success : Bool) :
    Ends m i op (m.retried i op success) ∧
      (m.retried i op success).activeTransport =
        if !success && op.task.clears then none else m.activeTransport := by
  obtain ⟨owner, ht⟩ | h := h
  · obtain ⟨ends, active⟩ := ends_discovered m i ht
    simpa [retried, ht, Task.clears] using And.intro ends active
  · have ends := ends_resolve m i h success
    have active := resolve_activeTransport m i op success
    obtain ⟨current, callers, clears, ht⟩ := Task.eq_of_target h
    simp only [retried, ht] at ends active ⊢
    exact ⟨ends, active⟩

theorem ends_webrtcDone (m : Manager) (i : Nat)
    (h : (∃ owner, op.task = .discover owner) ∨ op.task.target = some .webrtc) (success : Bool) :
    Ends m i op (m.webrtcDone i op success) ∧
      (m.webrtcDone i op success).activeTransport = if success then some .webrtc else none := by
  cases success with
  | true =>
    obtain ⟨ends, active⟩ :=
      ends_retried ({ m with activeTransport := some .webrtc }.attach .webrtc) i h true
    exact ⟨ends.activated, by simpa [webrtcDone] using active⟩
  | false =>
    obtain ⟨ends, active⟩ := ends_retried { m with activeTransport := none } i h false
    exact ⟨⟨ends.ops, ends.switchPromise, ends.device, ends.connected, ends.webrtc⟩,
      by simpa [webrtcDone] using active⟩

end Manager

end SmartIdVault.Transport
