import SmartIdVault.Transport.Calls

/-! Whether the active transport is an available one.  The manager gives up a transport before it
has another, so this can only be asked when no call is in flight; then it fails after a `destroy`,
after a switch that has disconnected a transport and rejects or returns, and after a switch to a USB
transport that has gone in the meantime. -/

namespace SmartIdVault.Transport

/-- The call is to put another transport in the place of this one if it is gone: a
`discoverTransport` of either, a switch to WebRTC of USB, as a switch to USB that a call for WebRTC
has joined, and a switch that the handler of a WebRTC disconnect waits for of either. -/
def Task.answersFor (task : Task) (t : TransportType) : Bool :=
  match task with
  | .discover _ => true
  | .doSwitch .webrtc _ _ clears => t = .usb || clears
  | .doSwitch .usb _ callers clears => t = .usb && .webrtc ∈ callers || clears
  | .poll _ | .destroy => false

def Op.answersFor (op : Op) (t : TransportType) : Bool :=
  op.at_ ≠ .ended && op.task.answersFor t

/-- The transport that is disconnected when the await settles. -/
def Await.parts : Await → Option TransportType
  | .closing => some .usb
  | .messaging t => some t
  | _ => none

/-- With this outcome the call ends, and leaves the active transport as it is. -/
def Op.stops (op : Op) (outcome : Outcome) : Bool :=
  match op.task, op.at_, outcome with
  | .doSwitch .usb _ _ clears, .usbRelaying, .relayed false => !clears
  | .doSwitch .usb _ _ clears, .messaging _, .disconnected false => !clears
  | .doSwitch .usb _ _ clears, .returning, _ => !clears
  | .doSwitch .webrtc .., .messaging _, .disconnected false => true
  | .destroy, .closing, _ | .destroy, .messaging _, _ => true
  | _, _, _ => false

/-- With this outcome the call makes USB active after it has disconnected WebRTC. -/
def Op.turnsToUsb (op : Op) (outcome : Outcome) : Bool :=
  op.task.target = some .usb && op.at_.parting && outcome = .disconnected true

namespace Manager

variable {m m' m₁ : Manager} {i : Nat} {op : Op} {outcome : Outcome} {t : TransportType}

/-- `activeTransport` is null, or `isAvailable()` of it is true. -/
def Live (m : Manager) : Prop := ∀ t ∈ m.activeTransport, m.isAvailable t = true

instance (m : Manager) : Decidable m.Live :=
  inferInstanceAs (Decidable (∀ t ∈ m.activeTransport, _))

/-- The active transport is null or available whenever no call is in flight. -/
def ActiveAvailable (m : Manager) : Prop := m.Idle → m.Live

/-- A call other than `i` answers for the transport. -/
def othersAnswerFor (m : Manager) (i : Nat) (t : TransportType) : Bool :=
  (m.ops.eraseIdx i).any (·.answersFor t)

/-- Unless another call answers for it, the active transport that a call leaves as it is at its end
is neither the one that it has disconnected nor one that it answers for itself, and USB is still
connected at the end of the `disconnect` after which it becomes active. -/
def Mindful (m : Manager) : ManagerEvent → Prop
  | .settle i outcome => ∀ op ∈ m.ops[i]?,
      (op.stops outcome = true → ∀ t ∈ m.activeTransport, m.othersAnswerFor i t = true ∨
        op.at_.parts ≠ some t ∧ op.answersFor t = false) ∧
      (op.turnsToUsb outcome = true → m.othersAnswerFor i .usb = true ∨ m.usb.connected = true)
  | _ => True

instance (m : Manager) : ∀ e, Decidable (m.Mindful e)
  | .settle .. => inferInstanceAs (Decidable (∀ op ∈ m.ops[_]?, _))
  | .init | .selectTransport | .switchTransport _ | .destroy | .onMessage _ | .pollTick
  | .usbReadError | .webrtcDisconnected => isTrue trivial

/-- The transport is available, or a call under way answers for it. -/
def Sure (m : Manager) (t : TransportType) : Prop :=
  m.isAvailable t = true ∨ ∃ op ∈ m.ops, op.answersFor t = true

structure Kept (m : Manager) : Prop where
  formed : Formed m
  sure : ∀ t ∈ m.activeTransport, m.Sure t

theorem kept_init : Kept {} := ⟨formed_init, fun _ h => by cases h⟩

theorem Kept.activeAvailable (h : Kept m) : m.ActiveAvailable := by
  intro idle t ht
  rcases h.sure t ht with available | ⟨op, hop, answers⟩
  · exact available
  · simp [Op.answersFor, idle op hop] at answers

theorem exists_of_othersAnswerFor (h : m.othersAnswerFor i t = true) :
    ∃ j op, j ≠ i ∧ m.ops[j]? = some op ∧ op.answersFor t = true := by
  obtain ⟨op, hop, answers⟩ := List.any_eq_true.mp h
  obtain ⟨j, hji, hj⟩ := List.mem_eraseIdx_iff_getElem?.mp hop
  exact ⟨j, op, hji, hj, answers⟩

/-! ### The calls -/

theorem isAvailable_congr (usb : m'.usb.connected = m.usb.connected)
    (webrtc : m'.webrtc.connected = m.webrtc.connected) (t : TransportType) :
    m'.isAvailable t = m.isAvailable t := by
  cases t
  · exact usb
  · exact webrtc

theorem Sure.frame (h : m.Sure t) (available : m.isAvailable t = true → m'.isAvailable t = true)
    (ops : ∀ op ∈ m.ops, op.answersFor t = true → ∃ op' ∈ m'.ops, op'.answersFor t = true) :
    m'.Sure t := by
  rcases h with ha | ⟨op, hop, answers⟩
  · exact .inl (available ha)
  · exact .inr (ops op hop answers)

/-- A transport is active that has just been connected. -/
theorem sure_of_active (active : m'.activeTransport = some t) (available : m'.isAvailable t = true) :
    ∀ t' ∈ m'.activeTransport, m'.Sure t' := by
  intro t' ht
  obtain rfl := Option.some.inj (active.symm.trans ht)
  exact .inl available

theorem sure_of_none (active : m'.activeTransport = none) :
    ∀ t' ∈ m'.activeTransport, m'.Sure t' := by
  intro t' ht
  cases active.symm.trans ht

theorem answersFor_join (op : Op) (target : TransportType) (clears : Bool)
    (h : op.answersFor t = true) : (op.join target clears).answersFor t = true := by
  obtain ⟨task, at_⟩ := op
  rw [Op.answersFor, Bool.and_eq_true] at h ⊢
  refine ⟨?_, ?_⟩
  · rw [(Op.join_root _ target clears).2]
    exact h.1
  · have answers := h.2
    cases task with
    | doSwitch own current callers clears' =>
      simp only [Op.join]
      cases own with
      | usb =>
        simp only [Task.answersFor, Bool.or_eq_true, Bool.and_eq_true, decide_eq_true_eq,
          List.mem_append] at answers ⊢
        tauto
      | webrtc =>
        simp only [Task.answersFor, Bool.or_eq_true, decide_eq_true_eq] at answers ⊢
        tauto
    | discover | poll | destroy => exact answers

/-- The calls go on to answer for a transport when another one joins a switch or starts. -/
theorem Sure.switchTransport (h : m.Sure t) (target : TransportType) (clears : Bool) :
    (m.switchTransport target clears).Sure t := by
  cases hp : m.switchPromise with
  | some i =>
    rw [switchTransport_joins hp]
    refine h.frame (fun ha => ha) fun op hop answers => ?_
    obtain ⟨j, hj⟩ := List.mem_iff_getElem?.mp hop
    by_cases hij : i = j
    · exact ⟨op.join target clears, List.mem_of_getElem? (i := j) (by simp [hj, hij]),
        answersFor_join op target clears answers⟩
    · exact ⟨op, List.mem_of_getElem? (i := j) (by simp [hj, hij]), answers⟩
  | none =>
    obtain ⟨m₁, a, starts, eq⟩ := switchTransport_starts hp target clears
    rw [eq]
    refine h.frame (fun ha => ?_) fun op hop answers => ⟨op, ?_, answers⟩
    · cases t with
      | usb => exact starts.connected ha
      | webrtc => exact (congrArg WebRtcTransport.connected starts.webrtc).trans ha
    · simp [start, starts.frame.ops, hop]

/-- After a call of `switchTransport` for the other transport, the switch under way answers for
one that is lost. -/
theorem sure_of_lost (h : Formed m) {target : TransportType} {clears : Bool} (turns : target ≠ t)
    (handler : t = .webrtc → clears = true) : (m.switchTransport target clears).Sure t := by
  right
  cases hp : m.switchPromise with
  | some i =>
    obtain ⟨op, hop, mid, switch⟩ := h.switching i hp
    obtain ⟨own, hown⟩ := Option.isSome_iff_exists.mp switch
    obtain ⟨current, callers, clears', ht⟩ := Task.eq_of_target hown
    rw [switchTransport_joins hp]
    refine ⟨op.join target clears, List.mem_of_getElem? (i := i) (by simp [hop]), ?_⟩
    simp only [Op.answersFor, Op.join, ht]
    cases t with
    | webrtc => cases own <;> simp [mid, Task.answersFor, handler rfl]
    | usb =>
      obtain rfl : target = .webrtc := by cases target <;> simp_all
      cases own <;> simp [mid, Task.answersFor]
  | none =>
    obtain ⟨m₁, a, starts, eq⟩ := switchTransport_starts hp target clears
    rw [eq]
    refine ⟨_, List.mem_append_right _ (List.mem_singleton_self _), ?_⟩
    cases t with
    | webrtc => cases target <;> simp [Op.answersFor, Task.answersFor, starts.under_way, handler rfl]
    | usb =>
      obtain rfl : target = .webrtc := by cases target <;> simp_all
      simp [Op.answersFor, Task.answersFor, starts.under_way]

theorem Linked.connected (h : Linked m op outcome m₁) (formed : Formed m) (hop : op ∈ m.ops) :
    m₁.usb.connected = true := by
  cases h with
  | ready ha => exact (formed.ready op hop ha).2
  | opened | relayed =>
    by_cases hd : m.usb.device = true <;> simp [openUsb, UsbTransport.connect, hd]

/-- A call that has disconnected USB and goes on to connect a transport answers for USB. -/
theorem answersFor_of_parted {task : Task} {at_ a : Await} (awaits : task.awaits at_ = true)
    (parted : at_.parts = some .usb) (connecting : a.connecting = true)
    (sited : task.awaits a = true) : task.answersFor .usb = true := by
  cases task with
  | discover => rfl
  | doSwitch own =>
    cases own with
    | webrtc => rfl
    | usb =>
      rcases at_ with _ | _ | _ | _ | _ | ⟨_ | _⟩ <;> simp_all [Task.awaits, Await.parts]
  | poll | destroy => cases a <;> simp_all [Task.awaits, Await.connecting]

theorem Linked.webrtc_connected (h : Linked m op outcome m₁) :
    m₁.webrtc.connected = m.webrtc.connected := by
  cases h <;> rfl

/-! ### One step -/

theorem sure_of_others (h : m.othersAnswerFor i t = true) (hops : m'.ops = m.ops.set i op) :
    m'.Sure t := by
  obtain ⟨j, op', hji, hj, answers⟩ := exists_of_othersAnswerFor h
  exact .inr ⟨op', by rw [hops]; exact Tasks.mem_set_of_ne hji hj, answers⟩

/-- Another transport than the one that is disconnected stays as it is. -/
theorem isAvailable_released {a : Await} (h : a.parts ≠ some t) :
    (m.released a).isAvailable t = m.isAvailable t := by
  cases a with
  | closing =>
    cases t
    · exact absurd rfl h
    · rfl
  | messaging t' => cases t' <;> cases t <;> first | rfl | exact absurd rfl h
  | _ => rfl

/-- A call that ends and leaves the active transport as it is. -/
theorem Kept.stop (h : Kept m) (hop : m.ops[i]? = some op)
    (mindful : ∀ t ∈ m.activeTransport, m.othersAnswerFor i t = true ∨
      op.at_.parts ≠ some t ∧ op.answersFor t = false)
    (ends : Ends (m.released op.at_) i op m') (active : m'.activeTransport = m.activeTransport) :
    ∀ t ∈ m'.activeTransport, m'.Sure t := by
  intro t ht
  have hops : m'.ops = m.ops.set i { op with at_ := .ended } :=
    ends.ops.trans (by rw [(frame_released m op.at_).ops])
  rcases mindful t (active ▸ ht) with others | ⟨parts, silent⟩
  · exact sure_of_others others hops
  · refine (h.sure t (active ▸ ht)).frame (fun ha => ?_) fun op' hop' answers => ⟨op', ?_, answers⟩
    · rw [isAvailable_congr ends.connected ends.webrtc, isAvailable_released parts, ha]
    · -- the call that ends is not the one that answers
      obtain ⟨j, hj⟩ := List.mem_iff_getElem?.mp hop'
      rw [hops]
      refine Tasks.mem_set_of_ne ?_ hj
      rintro rfl
      obtain rfl := Option.some.inj (hop.symm.trans hj)
      rw [silent] at answers
      contradiction

/-- A call that goes on answers for what it did. -/
theorem Sure.put {a : Await} (h : m.Sure t) (hop : m.ops[i]? = some op) (mid : a ≠ .ended)
    (hops : m₁.ops = m.ops) (available : m.isAvailable t = true → (m₁.put i op a).Sure t) :
    (m₁.put i op a).Sure t := by
  rcases h with ha | ⟨op', hop', answers⟩
  · exact available ha
  · obtain ⟨j, hj⟩ := List.mem_iff_getElem?.mp hop'
    right
    simp only [Manager.put, hops]
    by_cases hji : j = i
    · subst hji
      obtain rfl := Option.some.inj (hop.symm.trans hj)
      refine ⟨_, Tasks.mem_set_self hop _, ?_⟩
      rw [Op.answersFor, Bool.and_eq_true] at answers ⊢
      exact ⟨decide_eq_true mid, answers.2⟩
    · exact ⟨op', Tasks.mem_set_of_ne hji hj, answers⟩

theorem Kept.turn (h : Kept m) (hop : m.ops[i]? = some op) (mindful : m.Mindful (.settle i outcome))
    (mid : op.at_ ≠ .ended) (quiet : op.at_.immediate = true ∨ m.rests = true)
    (turn : Turn m i op outcome m') : ∀ t ∈ m'.activeTransport, m'.Sure t := by
  have mem := List.mem_of_getElem? hop
  obtain ⟨stops, turns⟩ := mindful op hop
  cases turn with
  | @goesOn _ m₁ a frame webrtc usb order pending connecting sited ready =>
    intro t ht
    have under_way : a ≠ .ended := by
      rintro rfl
      cases connecting
    refine (h.sure t (frame.activeTransport ▸ ht)).put hop under_way frame.ops fun ha => ?_
    cases t with
    | webrtc => exact .inl ((congrArg WebRtcTransport.connected webrtc).trans ha)
    | usb =>
      obtain ⟨-, keeps⟩ | parted := usb
      · exact .inl (keeps ha)
      · -- a switch to WebRTC has disconnected USB
        refine .inr ⟨{ op with at_ := a }, ?_, ?_⟩
        · simp only [put, frame.ops]
          exact Tasks.mem_set_self hop _
        · have answers : op.task.answersFor .usb = true := by
            refine answersFor_of_parted (h.formed.sited op mem) ?_ connecting sited
            rcases parted with ha | ha <;> rw [ha] <;> rfl
          simp [Op.answersFor, under_way, answers]
  | @found _ m₁ owner task linked =>
    obtain ⟨ends, active⟩ := ends_discovered { m₁ with activeTransport := some .usb } i task
    exact sure_of_active active (ends.connected.trans (linked.connected h.formed mem))
  | @parts _ m₁ target current linked =>
    intro t ht
    refine (h.sure t (linked.frame.activeTransport ▸ ht)).put hop (fun h => by cases h)
      linked.frame.ops fun ha => .inl ?_
    cases t with
    | usb => exact linked.connected h.formed mem
    | webrtc => exact linked.webrtc_connected.trans ha
  | @usbUp _ m₁ target current linked =>
    obtain ⟨ends, active⟩ := ends_usbSwitched m₁ i target
    exact sure_of_active active (ends.connected.trans (linked.connected h.formed mem))
  | parted target at_ =>
    obtain ⟨ends, active⟩ := ends_usbSwitched (m.released op.at_) i target
    rcases turns (by simp [Op.turnsToUsb, target, at_, Await.parting]) with others | connected
    · intro t ht
      obtain rfl := Option.some.inj (active.symm.trans ht)
      exact sure_of_others others (ends.ops.trans (by rw [(frame_released m op.at_).ops]))
    · refine sure_of_active active (ends.connected.trans ?_)
      rw [at_]
      exact connected
  | fails target at_ =>
    have ends := ends_resolve (m.released op.at_) i target false
    have active := resolve_activeTransport (m.released op.at_) i op false
    obtain ⟨current, callers, clears, ht⟩ := Task.eq_of_target target
    cases clears with
    | true =>
      simp only [ht, Task.clears, Bool.not_false, Bool.and_self, if_true] at active
      exact sure_of_none active
    | false =>
      simp only [ht, Task.clears, Bool.and_false, Bool.false_eq_true, if_false] at active
      have hstops : op.stops outcome = true := by
        obtain ⟨task, await⟩ := op
        obtain rfl := ht
        obtain ⟨ha, rfl⟩ | ⟨ha, rfl⟩ | ⟨ha, rfl⟩ := at_ <;> cases ha <;> rfl
      exact h.stop hop (stops hstops) ends
        (active.trans (frame_released m op.at_).activeTransport)
  | rejects target at_ =>
    have hstops : op.stops (.disconnected false) = true := by
      obtain ⟨task, await⟩ := op
      obtain ⟨current, callers, clears, rfl⟩ := Task.eq_of_target target
      cases at_
      rfl
    exact h.stop hop (stops hstops) (ends_reject _ i target)
      (frame_released m op.at_).activeTransport
  | @webrtcDone attempt answer retryable at_ task =>
    obtain ⟨ends, active⟩ := ends_webrtcDone { m with webrtc := (m.webrtc.connect answer).2 } i task
      (answersConnected answer)
    cases up : answersConnected answer with
    | true =>
      rw [up] at ends active
      exact sure_of_active active (ends.webrtc.trans (connect_connected _ up))
    | false =>
      rw [up] at active
      exact sure_of_none active
  | @polled wasAvailable known b _ task at_ calls =>
    have sure : ∀ t ∈ m.activeTransport, ({ m with usbAvailable := b }.put i op .ended).Sure t := by
      intro t ht
      refine (h.sure t ht).frame (fun ha => ha) fun op' hop' answers => ⟨op', ?_, answers⟩
      obtain ⟨j, hj⟩ := List.mem_iff_getElem?.mp hop'
      refine Tasks.mem_set_of_ne ?_ hj
      rintro rfl
      obtain rfl := Option.some.inj (hop.symm.trans hj)
      simp [Op.answersFor, task, Task.answersFor] at answers
    rcases calls with rfl | ⟨target, rfl⟩
    · exact sure
    · intro t ht
      rw [switchTransport_activeTransport] at ht
      exact (sure t ht).switchTransport target false
  | destroyed task at_ =>
    have hstops : op.stops outcome = true := by
      obtain ⟨task, await⟩ := op
      obtain rfl := task
      cases await <;> first | rfl | cases at_
    exact h.stop hop (stops hstops)
      ⟨rfl, by simp [put, task, Task.target], rfl, rfl, rfl⟩
      (frame_released m op.at_).activeTransport

/-- The handler of a disconnect. -/
theorem Kept.cleanup (h : Kept m) (rests : m.rests = true) {target : TransportType} {clears : Bool}
    (turns : target ≠ t) (handler : t = .webrtc → clears = true) :
    let m' := if m.activeTransport = some t then (m.cleanup t).switchTransport target clears
      else m.cleanup t
    ∀ t ∈ m'.activeTransport, m'.Sure t := by
  intro m' t' ht'
  have same : (m.cleanup t).activeTransport = m.activeTransport := by cases t <;> rfl
  by_cases active : m.activeTransport = some t
  · rw [show m' = _ from if_pos active] at ht' ⊢
    rw [switchTransport_activeTransport, same, active] at ht'
    obtain rfl := Option.some.inj ht'
    exact sure_of_lost (h.formed.cleanup rests t) turns handler
  · rw [show m' = _ from if_neg active] at ht' ⊢
    rw [same] at ht'
    refine (h.sure t' ht').frame (fun ha => ?_) fun op hop answers => ⟨op, ?_, answers⟩
    · cases t <;> cases t' <;> first | exact ha | exact absurd ht' active
    · cases t <;> exact hop

/-- A call begins. -/
theorem Sure.push (h : m.Sure t) (hops : m'.ops = m.ops ++ [op])
    (usb : m'.usb.connected = m.usb.connected)
    (webrtc : m'.webrtc.connected = m.webrtc.connected) : m'.Sure t := by
  refine h.frame (fun ha => (isAvailable_congr usb webrtc t).trans ha) fun op hop answers => ?_
  exact ⟨op, by rw [hops]; exact List.mem_append_left _ hop, answers⟩

theorem Kept.step {e : ManagerEvent} (h : Kept m) (mindful : m.Mindful e)
    (hs : m.step e = some m') : Kept m' := by
  refine ⟨h.formed.step hs, ?_⟩
  cases effect_of_step hs with
  | init =>
    rw [initManager]
    split
    · exact h.sure
    · exact fun t ht => (h.sure t ht).push rfl rfl rfl
  | selectTransport =>
    rw [Manager.selectTransport]
    split
    · exact h.sure
    · exact fun t ht => (h.sure t ht).push rfl rfl rfl
  | switchTransport target =>
    intro t ht
    rw [switchTransport_activeTransport] at ht
    exact (h.sure t ht).switchTransport target false
  | destroy =>
    obtain ⟨m₁, a, frame, usb, webrtc, -, eq⟩ := destroy_starts m
    rw [eq]
    intro t ht
    have hops : (m₁.start .destroy a).ops = m.ops ++ [⟨.destroy, a⟩] := by
      simp [start, frame.ops]
    exact (h.sure t (by simpa [start, frame.activeTransport] using ht)).push hops
      (by simp [start, usb]) (by simp [start, webrtc])
  | onMessage callback =>
    rw [Manager.onMessage]
    split
    · exact h.sure
    · intro t ht
      refine (h.sure t (by simpa using ht)).frame (fun ha => ?_) fun op hop answers =>
        ⟨op, by simpa using hop, answers⟩
      rw [isAvailable_congr (m := m) (by simp) (by simp), ha]
  | pollTick => exact fun t ht => (h.sure t ht).push rfl rfl rfl
  | settle hop quiet mid hs =>
    exact h.turn hop mindful mid quiet
      (turn_of_settle (h.formed.sited _ (List.mem_of_getElem? hop)) hs)
  | lost t target clears rests turns handler => exact h.cleanup rests turns handler

/-- In a run in which no call leaves a dead transport active, the active transport is null or
available whenever no call is in flight. -/
theorem activeAvailable_of_mindful {es : List ManagerEvent}
    (hmindful : Machine.Throughout Manager.step Mindful {} es) :
    Machine.Everywhere Manager.step ActiveAvailable {} es :=
  (Machine.everywhere_of_throughout (I := Kept) kept_init hmindful
    fun _ _ _ h hmindful hs => h.step hmindful hs).mono fun _ => Kept.activeAvailable

def answered (state : ConnectionState) : Settled :=
  .ok (some { success := true, connectionState := some state })

/-- USB is found and lost again, WebRTC takes over and is lost too, and USB does not come back. -/
def lostTwice : List ManagerEvent :=
  [.init, .settle 0 (.available true), .settle 0 (.opened true), .usbReadError,
   .settle 1 (.disconnected true), .settle 1 (.state (answered .connected) false),
   .webrtcDisconnected, .settle 2 .notOpened, .settle 2 (.relayed false)]

theorem lostTwice_available : Machine.Everywhere Manager.step ActiveAvailable {} lostTwice ∧
    (Machine.exec Manager.step {} lostTwice).any
      (fun m => m.resolved = [⟨.webrtc, true, some .webrtc⟩, ⟨.usb, false, some .webrtc⟩] &&
        m.activeTransport = none) = true :=
  ⟨activeAvailable_of_mindful (by decide +kernel), by decide +kernel⟩

/-- A manager with USB active is destroyed. -/
def destroyedActive : List ManagerEvent :=
  [.selectTransport, .settle 0 (.available true), .settle 0 (.opened true), .destroy,
   .settle 1 .closed]

/-- A switch from the relayed USB link to WebRTC, whose `webrtc-disconnect` is refused. -/
def refusedDisconnect : List ManagerEvent :=
  [.selectTransport, .settle 0 (.available true), .settle 0 .notOpened, .settle 0 (.relayed true),
   .switchTransport .webrtc, .settle 1 (.disconnected false)]

theorem dead_transport_stays_active :
    (∃ m, Machine.Run Manager.step {} destroyedActive m ∧ ¬m.ActiveAvailable) ∧
      ∃ m, Machine.Run Manager.step {} refusedDisconnect m ∧ ¬m.ActiveAvailable := by
  have dead {es : List ManagerEvent}
      (h : (Machine.exec Manager.step {} es).any (fun m => m.Idle ∧ ¬m.Live) = true) :
      ∃ m, Machine.Run Manager.step {} es m ∧ ¬m.ActiveAvailable := by
    obtain ⟨m, run, hm⟩ := Machine.exists_run_with h
    obtain ⟨idle, dead⟩ := of_decide_eq_true hm
    exact ⟨m, run, fun h => dead (h idle)⟩
  exact ⟨dead (by decide +kernel), dead (by decide +kernel)⟩

end Manager

end SmartIdVault.Transport
