import SmartIdVault.Transport.Turns

/-! How the calls of a transport manager, and the promises that name them, stand in every state, and
how they go on from one state to the next. -/

namespace SmartIdVault.Transport

namespace Manager

variable {m m' m₁ : Manager} {i : Nat} {op : Op} {a : Await} {outcome : Outcome}

/-! ### How the calls stand -/

/-- Each call awaits something of its kind, a switch has been asked for, the USB transport is
connected for a call that `connect` has answered at once, and `switchPromise` names the one switch
under way. -/
structure Formed (m : Manager) : Prop where
  sited : ∀ op ∈ m.ops, op.task.awaits op.at_ = true
  asked : ∀ op ∈ m.ops, ∀ own, op.task.target = some own → own ∈ op.task.callers
  ready : ∀ op ∈ m.ops, op.at_ = .usbReady → m.usb.device = true ∧ m.usb.connected = true
  switching : ∀ i, m.switchPromise = some i →
    ∃ op, m.ops[i]? = some op ∧ op.at_ ≠ .ended ∧ op.task.target.isSome = true
  sole : ∀ i op, m.ops[i]? = some op → op.at_ ≠ .ended → op.task.target.isSome = true →
    m.switchPromise = some i

theorem formed_init : Formed {} := ⟨nofun, nofun, nofun, nofun, nofun⟩

/-- What call `i` does keeps the calls in order when what waits for USB still has it. -/
theorem Formed.set (h : Formed m) (hop : m.ops[i]? = some op) (mid : op.at_ ≠ .ended)
    (hops : m'.ops = m.ops.set i { op with at_ := a }) (sited : op.task.awaits a = true)
    (promise : m'.switchPromise =
      if a = .ended ∧ op.task.target.isSome = true then none else m.switchPromise)
    (calm : ∀ op' ∈ m.ops, op'.at_ = .usbReady → m'.usb.device = true ∧ m'.usb.connected = true)
    (ready : a = .usbReady → m'.usb.device = true ∧ m'.usb.connected = true) : Formed m' := by
  refine ⟨?_, ?_, ?_, ?_,
    ?_⟩
  · intro op' h'
    rw [hops] at h'
    rcases Tasks.mem_set h' with rfl | ⟨j, -, hj⟩
    · exact sited
    · exact h.sited op' (List.mem_of_getElem? hj)
  · intro op' h' own ht
    rw [hops] at h'
    rcases Tasks.mem_set h' with rfl | ⟨j, -, hj⟩
    · exact h.asked op (List.mem_of_getElem? hop) own ht
    · exact h.asked op' (List.mem_of_getElem? hj) own ht
  · intro op' h' ha'
    rw [hops] at h'
    rcases Tasks.mem_set h' with rfl | ⟨j, -, hj⟩
    · exact ready ha'
    · exact calm op' (List.mem_of_getElem? hj) ha'
  · intro j hj
    rw [promise] at hj
    split at hj
    next => cases hj
    next hne =>
      obtain ⟨op', hop', mid', switch⟩ := h.switching j hj
      rw [hops]
      by_cases hji : j = i
      · subst hji
        obtain rfl := Option.some.inj (hop.symm.trans hop')
        exact ⟨_, Tasks.set_self hop _, fun ha => hne ⟨ha, switch⟩, switch⟩
      · exact ⟨op', Tasks.get_set_of_ne hji hop', mid', switch⟩
  · intro j op' hop' mid' switch
    rw [hops] at hop'
    obtain ⟨rfl, rfl⟩ | ⟨hji, hop'⟩ := Tasks.get_set hop'
    · rw [promise, if_neg fun h => mid' h.1]
      exact h.sole j op hop mid switch
    · have hj := h.sole j op' hop' mid' switch
      rw [promise, if_neg, hj]
      exact fun hi => hji (Option.some.inj (hj.symm.trans (h.sole i op hop mid hi.2)))

theorem Ends.formed (ends : Ends m₁ i op m') (frame : Frame m m₁) (h : Formed m)
    (hop : m.ops[i]? = some op) (mid : op.at_ ≠ .ended)
    (calm : ∀ op' ∈ m.ops, op'.at_ = .usbReady → m₁.usb.device = true ∧ m₁.usb.connected = true) :
    Formed m' := by
  refine h.set (a := .ended) hop mid (ends.ops.trans (by rw [frame.ops])) ?_ ?_ ?_ nofun
  · cases op.task <;> rfl
  · simp [ends.switchPromise, frame.switchPromise]
  · rw [ends.device, ends.connected]
    exact calm

/-- A call begins. -/
theorem Formed.push (h : Formed m) (op : Op) (hops : m'.ops = m.ops ++ [op])
    (sited : op.task.awaits op.at_ = true)
    (asked : ∀ own, op.task.target = some own → own ∈ op.task.callers)
    (promise : m'.switchPromise =
      if op.task.target.isSome = true then some m.ops.length else m.switchPromise)
    (free : op.task.target.isSome = true → m.switchPromise = none ∧ op.at_ ≠ .ended)
    (device : m'.usb.device = m.usb.device)
    (connected : m.usb.connected = true → m'.usb.connected = true)
    (ready : op.at_ = .usbReady → m'.usb.device = true ∧ m'.usb.connected = true) : Formed m' := by
  refine ⟨?_, ?_, ?_, ?_,
    ?_⟩
  · intro op' h'
    rw [hops, List.mem_append, List.mem_singleton] at h'
    rcases h' with h' | rfl
    · exact h.sited op' h'
    · exact sited
  · intro op' h' own ht
    rw [hops, List.mem_append, List.mem_singleton] at h'
    rcases h' with h' | rfl
    · exact h.asked op' h' own ht
    · exact asked own ht
  · intro op' h' ha'
    rw [hops, List.mem_append, List.mem_singleton] at h'
    rcases h' with h' | rfl
    · obtain ⟨hd, hc⟩ := h.ready op' h' ha'
      exact ⟨device.trans hd, connected hc⟩
    · exact ready ha'
  · intro j hj
    rw [promise] at hj
    split at hj
    next hs =>
      obtain rfl := Option.some.inj hj
      exact ⟨op, by rw [hops]; exact Tasks.append_self _ _, (free hs).2, hs⟩
    next =>
      obtain ⟨op', hop', rest⟩ := h.switching j hj
      exact ⟨op', by rw [hops]; exact Tasks.get_append_of_get hop' _, rest⟩
  · intro j op' hop' mid' switch
    rw [hops] at hop'
    rw [promise]
    obtain hop' | ⟨rfl, rfl⟩ := Tasks.get_append hop'
    · have hj := h.sole j op' hop' mid' switch
      rw [if_neg, hj]
      exact fun hs => nomatch (free hs).1.symm.trans hj
    · exact if_pos switch

/-- A caller joins the switch under way. -/
theorem Formed.join (h : Formed m) (i : Nat) (target : TransportType) (clears : Bool) :
    Formed { m with ops := m.ops.modify i (·.join target clears) } := by
  have get {j : Nat} {op' : Op} (hop' : (m.ops.modify i (·.join target clears))[j]? = some op') :
      ∃ op, m.ops[j]? = some op ∧ op'.task.target = op.task.target ∧ op'.at_ = op.at_ ∧
        op'.task.awaits = op.task.awaits ∧ ∀ t ∈ op.task.callers, t ∈ op'.task.callers := by
    rw [List.getElem?_modify] at hop'
    obtain ⟨op, hop, rfl⟩ := Option.map_eq_some_iff.mp hop'
    refine ⟨op, hop, ?_⟩
    split
    · obtain ⟨ht, ha⟩ := op.join_target target clears
      exact ⟨ht, ha, funext (op.join_awaits target clears), op.mem_join target clears⟩
    · exact ⟨rfl, rfl, rfl, fun _ => id⟩
  refine ⟨?_, ?_, ?_, ?_,
    ?_⟩
  · intro op' h'
    obtain ⟨j, hj⟩ := List.mem_iff_getElem?.mp h'
    obtain ⟨op, hop, -, ha, haw, -⟩ := get hj
    rw [haw, ha]
    exact h.sited op (List.mem_of_getElem? hop)
  · intro op' h' own ht
    obtain ⟨j, hj⟩ := List.mem_iff_getElem?.mp h'
    obtain ⟨op, hop, ht', -, -, hc⟩ := get hj
    exact hc own (h.asked op (List.mem_of_getElem? hop) own (ht'.symm.trans ht))
  · intro op' h' ha'
    obtain ⟨j, hj⟩ := List.mem_iff_getElem?.mp h'
    obtain ⟨op, hop, -, ha, -, -⟩ := get hj
    exact h.ready op (List.mem_of_getElem? hop) (ha.symm.trans ha')
  · intro j hj
    obtain ⟨op, hop, mid, switch⟩ := h.switching j hj
    obtain ⟨ht, ha⟩ := op.join_target target clears
    by_cases hij : i = j
    · exact ⟨op.join target clears, by simp [hop, hij], ha ▸ mid, ht ▸ switch⟩
    · exact ⟨op, by simp [hop, hij], mid, switch⟩
  · intro j op' hop' mid' switch
    obtain ⟨op, hop, ht, ha, -, -⟩ := get hop'
    exact h.sole j op hop (ha ▸ mid') (ht ▸ switch)

theorem Formed.switchTransport (h : Formed m) (target : TransportType) (clears : Bool) :
    Formed (m.switchTransport target clears) := by
  cases hp : m.switchPromise with
  | some i =>
    rw [switchTransport_joins hp]
    exact h.join i target clears
  | none =>
    obtain ⟨m₁, a, starts, eq⟩ := switchTransport_starts hp target clears
    rw [eq]
    exact h.push ⟨.doSwitch target m.activeTransport [target] clears, a⟩
      (by simp [start, starts.frame.ops]) (starts.sited _ _ _)
      (by simp [Task.target, Task.callers]) (by simp [start,
        starts.frame.switchPromise, Task.target]) (fun _ => ⟨hp, starts.under_way⟩) starts.device
      starts.connected starts.ready

theorem Linked.frame (h : Linked m op outcome m₁) : Frame m m₁ := by
  cases h with
  | ready => exact .refl m
  | opened => exact frame_usb m true false m.usbAvailable _
  | relayed => exact frame_usb m false true m.usbAvailable m.readLoopActive

theorem Linked.keeps (h : Linked m op outcome m₁) :
    op.at_.immediate = true →
      m₁.usb.device = m.usb.device ∧ (m.usb.connected = true → m₁.usb.connected = true) := by
  cases h with
  | ready => exact fun _ => ⟨rfl, id⟩
  | opened ha | relayed ha =>
    rw [ha]
    nofun

/-- While a call waits for USB, only calls that the program has settled itself take a step, and
those leave USB connected. -/
theorem Formed.calm (h : Formed m) (quiet : op.at_.immediate = true ∨ m.rests = true)
    (keeps : op.at_.immediate = true →
      m₁.usb.device = m.usb.device ∧ (m.usb.connected = true → m₁.usb.connected = true)) :
    ∀ op' ∈ m.ops, op'.at_ = .usbReady → m₁.usb.device = true ∧ m₁.usb.connected = true := by
  intro op' hop' ha
  rcases quiet with immediate | rests
  · obtain ⟨hd, hc⟩ := keeps immediate
    obtain ⟨hd', hc'⟩ := h.ready op' hop' ha
    exact ⟨hd.trans hd', hc hc'⟩
  · have := List.all_eq_true.mp rests op' hop'
    simp [ha, Await.immediate] at this

theorem Formed.polled (h : Formed m) (hop : m.ops[i]? = some op) (mid : op.at_ ≠ .ended)
    (quiet : op.at_.immediate = true ∨ m.rests = true) {wasAvailable : Bool}
    (task : op.task = .poll wasAvailable) (b : Bool) :
    Formed ({ m with usbAvailable := b }.put i op .ended) :=
  h.set (a := .ended) hop mid rfl (by cases op.task <;> rfl) (by simp [put, task, Task.target])
    (h.calm quiet fun _ => ⟨rfl, id⟩) nofun

theorem Formed.turn (h : Formed m) (hop : m.ops[i]? = some op) (mid : op.at_ ≠ .ended)
    (quiet : op.at_.immediate = true ∨ m.rests = true) (turn : Turn m i op outcome m') :
    Formed m' := by
  have stays {at_ : Await} (hp : at_.parting = true) : at_.immediate ≠ true := by
    cases at_ <;> simp_all [Await.immediate, Await.parting]
  cases turn with
  | @goesOn _ m₁ a frame webrtc usb order pending connecting sited ready =>
    refine h.set (a := a) hop mid (by simp [put, frame.ops]) sited ?_ (h.calm quiet ?_) ready
    · have : a ≠ .ended := by
        rintro rfl
        cases connecting
      simp [put, frame.switchPromise, this]
    · rcases usb with keeps | ha | ha
      · exact fun _ => keeps
      · exact fun hi => absurd hi (stays (by rw [ha]; rfl))
      · exact fun hi => absurd hi (stays (by rw [ha]; rfl))
  | @found _ m₁ owner task linked =>
    obtain ⟨ends, -⟩ := ends_discovered { m₁ with activeTransport := some .usb } i task
    have ends : Ends m₁ i op _ :=
      ⟨ends.ops, ends.switchPromise, ends.device, ends.connected, ends.webrtc⟩
    exact ends.formed linked.frame h hop mid (h.calm quiet linked.keeps)
  | @parts _ m₁ target current linked =>
    obtain ⟨current, callers, clears, ht⟩ := Task.eq_of_target target
    refine h.set (a := .messaging .webrtc) hop mid (by simp [put, linked.frame.ops])
      (by rw [ht]; rfl) (by simp [put, linked.frame.switchPromise])
      (h.calm quiet linked.keeps) ?_
    rintro ⟨⟩
  | @usbUp _ m₁ target current linked =>
    exact (ends_usbSwitched m₁ i target).1.formed linked.frame h hop mid
      (h.calm quiet linked.keeps)
  | parted target at_ =>
    refine (ends_usbSwitched _ i target).1.formed (frame_released m op.at_) h hop mid
      (h.calm quiet ?_)
    rw [at_]
    rintro ⟨⟩
  | fails target at_ =>
    refine (ends_resolve _ i target false).formed (frame_released m op.at_) h hop mid
      (h.calm quiet ?_)
    obtain ⟨ha, -⟩ | ⟨ha, -⟩ | ⟨ha, -⟩ := at_
    all_goals rw [ha]
    · rintro ⟨⟩
    · rintro ⟨⟩
    · exact fun _ => ⟨rfl, id⟩
  | rejects target at_ =>
    refine (ends_reject _ i target).formed (frame_released m op.at_) h hop mid (h.calm quiet ?_)
    rw [at_]
    rintro ⟨⟩
  | @webrtcDone attempt answer retryable at_ task =>
    exact (ends_webrtcDone _ i task _).1.formed (frame_webrtc m answer) h hop mid
      (h.calm quiet fun _ => ⟨rfl, id⟩)
  | @polled wasAvailable known b _ task at_ calls =>
    have formed := h.polled hop mid quiet task b
    rcases calls with rfl | ⟨target, rfl⟩
    · exact formed
    · exact formed.switchTransport target false
  | destroyed task at_ =>
    refine h.set (a := .ended) hop mid (by simp [put, (frame_released m op.at_).ops])
      (by cases op.task <;> rfl)
      (by simp [put, task, Task.target, (frame_released m op.at_).switchPromise])
      (h.calm quiet fun hi => absurd hi (stays at_)) ?_
    rintro ⟨⟩

theorem settle_of_step (hs : m.step (.settle i outcome) = some m') :
    ∃ op, m.ops[i]? = some op ∧ (op.at_.immediate = true ∨ m.rests = true) ∧ op.at_ ≠ .ended ∧
      m.settle i op outcome = some m' := by
  obtain ⟨op, hop, h⟩ := Option.bind_eq_some_iff.mp hs
  split at h
  next quiet =>
    refine ⟨op, hop, by simpa using quiet, fun ha => ?_, h⟩
    simp [settle, ha] at h
  next => cases h

theorem Formed.cleanup (h : Formed m) (rests : m.rests = true) (transport : TransportType) :
    Formed (m.cleanup transport) := by
  refine ⟨?_, ?_, ?_, ?_, ?_⟩
  · cases transport <;> exact h.sited
  · cases transport <;> exact h.asked
  · intro op hop ha
    have := List.all_eq_true.mp rests op (by cases transport <;> exact hop)
    simp [ha, Await.immediate] at this
  · cases transport <;> exact h.switching
  · cases transport <;> exact h.sole

/-- The calls stand as they did, and the transports too. -/
theorem Formed.congr (h : Formed m) (ops : m'.ops = m.ops)
    (promise : m'.switchPromise = m.switchPromise) (device : m'.usb.device = m.usb.device)
    (connected : m'.usb.connected = m.usb.connected) : Formed m' :=
  ⟨ops ▸ h.sited, ops ▸ h.asked, by rw [ops, device, connected]; exact h.ready,
    by rw [ops, promise]; exact h.switching, by rw [ops, promise]; exact h.sole⟩

/-- A call that is not a switch begins. -/
theorem Formed.begin (h : Formed m) {task : Task} (sited : task.awaits a = true)
    (target : task.target = none) (ha : a ≠ .usbReady) : Formed (m.start task a) :=
  h.push ⟨task, a⟩ rfl sited (by simp [target]) (by simp [start, target]) (by simp [target]) rfl id
    fun hr => absurd hr ha

theorem Formed.discover (h : Formed m) (owner : Owner) : Formed (m.discover owner) :=
  h.begin rfl rfl nofun

theorem Formed.destroy (h : Formed m) : Formed m.destroy := by
  obtain ⟨m₁, a, frame, usb, -, await, eq⟩ := destroy_starts m
  have h₁ : Formed m₁ := h.congr (by simp [frame.ops]) (by simp [frame.switchPromise])
    (by rw [usb]) (by rw [usb])
  rw [eq]
  obtain ⟨-, rfl⟩ | parting := await
  · exact h₁.begin rfl rfl nofun
  · exact h₁.begin (by cases a <;> first | rfl | cases parting) rfl (by rintro rfl; cases parting)

/-- A transport is lost: a USB transfer fails, or the peer connection is gone. -/
def lost : TransportType → ManagerEvent
  | .usb => .usbReadError
  | .webrtc => .webrtcDisconnected

/-- What each event does. -/
inductive Effect (m : Manager) : ManagerEvent → Manager → Prop
  | init : Effect m .init m.initManager
  | selectTransport : Effect m .selectTransport m.selectTransport
  | switchTransport (target : TransportType) :
      Effect m (.switchTransport target) (m.switchTransport target false)
  | destroy : Effect m .destroy m.destroy
  | onMessage (callback : Nat) : Effect m (.onMessage callback) (m.onMessage callback)
  | pollTick (runs : 0 < m.intervals) :
      Effect m .pollTick (m.start (.poll m.usbAvailable) (.checking m.usb.device))
  | settle {i : Nat} {op : Op} {outcome : Outcome} {m' : Manager} (hop : m.ops[i]? = some op)
      (quiet : op.at_.immediate = true ∨ m.rests = true) (mid : op.at_ ≠ .ended)
      (hs : m.settle i op outcome = some m') : Effect m (.settle i outcome) m'
  | lost (t target : TransportType) (clears : Bool) (rests : m.rests = true) (turns : target ≠ t)
      (handler : t = .webrtc → clears = true) :
      Effect m (lost t) (if m.activeTransport = some t then
        (m.cleanup t).switchTransport target clears else m.cleanup t)

theorem effect_of_step {e : ManagerEvent} (hs : m.step e = some m') : Effect m e m' := by
  cases e with
  | init => exact Option.some.inj hs ▸ .init
  | selectTransport => exact Option.some.inj hs ▸ .selectTransport
  | switchTransport target => exact Option.some.inj hs ▸ .switchTransport target
  | destroy => exact Option.some.inj hs ▸ .destroy
  | onMessage callback => exact Option.some.inj hs ▸ .onMessage callback
  | settle i outcome =>
    obtain ⟨op, hop, quiet, mid, hs⟩ := settle_of_step hs
    exact .settle hop quiet mid hs
  | pollTick =>
    rw [Manager.step] at hs
    split at hs
    next hg =>
      obtain rfl := Option.some.inj hs
      rw [Bool.and_eq_true] at hg
      exact .pollTick (of_decide_eq_true hg.2)
    next => cases hs
  | usbReadError =>
    rw [Manager.step] at hs
    split at hs
    next hg =>
      obtain rfl := Option.some.inj hs
      rw [Bool.and_eq_true] at hg
      exact .lost .usb .webrtc false hg.1 (by decide) (by decide)
    next => cases hs
  | webrtcDisconnected =>
    rw [Manager.step] at hs
    split at hs
    next hg =>
      obtain rfl := Option.some.inj hs
      rw [Bool.and_eq_true] at hg
      exact .lost .webrtc .usb true hg.1 (by decide) (by decide)
    next => cases hs

theorem Formed.step {e : ManagerEvent} (h : Formed m) (hs : m.step e = some m') : Formed m' := by
  cases effect_of_step hs with
  | init =>
    rw [initManager]
    split
    · exact h
    · refine Formed.discover ?_ _
      exact h.congr rfl rfl rfl rfl
  | selectTransport =>
    rw [Manager.selectTransport]
    split
    · exact h
    · refine Formed.discover ?_ _
      exact h.congr rfl rfl rfl rfl
  | switchTransport target => exact h.switchTransport target false
  | destroy => exact h.destroy
  | onMessage callback =>
    rw [Manager.onMessage]
    split
    · exact h.congr rfl rfl rfl rfl
    · exact h.congr (by simp) (by simp) (by simp) (by simp)
  | pollTick => exact h.begin rfl rfl (by simp)
  | settle hop quiet mid hs =>
    exact h.turn hop mid quiet (turn_of_settle (h.sited _ (List.mem_of_getElem? hop)) hs)
  | lost t target clears rests =>
    have h := h.cleanup rests t
    split
    · exact h.switchTransport target clears
    · exact h

/-! ### How the calls go on -/

/-- Each call keeps its place and its task, but for those who wait for it, and awaits what it did,
unless it is call `i`; the new calls have property `P`. -/
structure Carries (P : Op → Prop) (m m' : Manager) (i : Option Nat) : Prop where
  keeps : ∀ j op, m.ops[j]? = some op → ∃ op', m'.ops[j]? = some op' ∧
    op'.task.root = op.task.root ∧ (i ≠ some j → op'.at_ = op.at_)
  fresh : ∀ j op', m'.ops[j]? = some op' → m.ops.length ≤ j → P op'

variable {P : Op → Prop}

/-- A call that is not of `initialize` or `destroy`, and does not disconnect WebRTC for USB. -/
structure Light (op : Op) : Prop where
  brief : op.task.lasting = false
  stays : op.task.target = some .usb → op.at_ ≠ .messaging .webrtc

theorem carries_of_ops (h : m'.ops = m.ops) : Carries P m m' none :=
  ⟨fun j op hj => ⟨op, h ▸ hj, rfl, fun _ => rfl⟩, fun j op' hj hlen =>
    absurd (List.getElem?_eq_some_iff.mp hj).1 (by rw [h]; omega)⟩

theorem carries_put (hop : m.ops[i]? = some op) (h : m'.ops = m.ops.set i { op with at_ := a }) :
    Carries P m m' (some i) := by
  constructor
  · intro j op' hj
    by_cases hji : j = i
    · subst hji
      obtain rfl := Option.some.inj (hop.symm.trans hj)
      exact ⟨{ op with at_ := a }, by rw [h]; exact Tasks.set_self hop _, rfl,
        fun hne => absurd rfl hne⟩
    · exact ⟨op', by rw [h]; exact Tasks.get_set_of_ne hji hj, rfl, fun _ => rfl⟩
  · intro j op' hj hlen
    have := (List.getElem?_eq_some_iff.mp hj).1
    rw [h, List.length_set] at this
    omega

theorem carries_push (op : Op) (h : m'.ops = m.ops ++ [op]) (fresh : P op) :
    Carries P m m' none := by
  refine ⟨fun j op' hj => ⟨op', by rw [h]; exact Tasks.get_append_of_get hj _, rfl, fun _ => rfl⟩,
    fun j op' hj hlen => ?_⟩
  rw [h] at hj
  obtain hj | ⟨-, rfl⟩ := Tasks.get_append hj
  · have := (List.getElem?_eq_some_iff.mp hj).1
    omega
  · exact fresh

theorem Carries.trans {i : Option Nat} (h : Carries P m m₁ i) (h' : Carries P m₁ m' none)
    (hlen : m₁.ops.length = m.ops.length) : Carries P m m' i := by
  refine ⟨?_, fun j op' hj hle => h'.fresh j op' hj (hlen ▸ hle)⟩
  intro j op hj
  obtain ⟨op₁, hj₁, root, at_⟩ := h.keeps j op hj
  obtain ⟨op', hj', root', at_'⟩ := h'.keeps j op₁ hj₁
  exact ⟨op', hj', root'.trans root, fun hne => (at_' nofun).trans (at_ hne)⟩

theorem Carries.mono {i : Option Nat} {P' : Op → Prop} (h : Carries P m m' i)
    (hP : ∀ op, P op → P' op) : Carries P' m m' i :=
  ⟨h.keeps, fun j op hj hle => hP op (h.fresh j op hj hle)⟩

theorem carries_switchTransport (m : Manager) (target : TransportType) (clears : Bool) :
    Carries Light m (m.switchTransport target clears) none := by
  cases hp : m.switchPromise with
  | some i =>
    rw [switchTransport_joins hp]
    constructor
    · intro j op hj
      obtain ⟨root, ha⟩ := op.join_root target clears
      by_cases hij : i = j
      · exact ⟨op.join target clears, by simp [hj, hij], root, fun _ => ha⟩
      · exact ⟨op, by simp [hj, hij], rfl, fun _ => rfl⟩
    · intro j op' hj hlen
      have := (List.getElem?_eq_some_iff.mp hj).1
      rw [List.length_modify] at this
      omega
  | none =>
    obtain ⟨m₁, a, starts, eq⟩ := switchTransport_starts hp target clears
    rw [eq]
    refine carries_push ⟨.doSwitch target m.activeTransport [target] clears, a⟩
      (by simp [start, starts.frame.ops]) ⟨rfl, ?_⟩
    intro ht ha
    have parting := starts.parting (Option.some.inj ht)
    rw [show a = _ from ha] at parting
    cases parting

/-- Where call `i` is after its step: it has ended; or, as a switch to USB with its link, it
disconnects WebRTC; or it is on its way to a connection. -/
def GoesTo (m : Manager) (op : Op) (outcome : Outcome) (m' : Manager) (a : Await) : Prop :=
  a = .ended ∨ (∃ m₁, Linked m op outcome m₁ ∧ m'.usb = m₁.usb ∧ a = .messaging .webrtc) ∨
    a.connecting = true ∧ (op.at_.stage < 2 ∨ 2 < a.stage)

theorem Turn.ops (turn : Turn m i op outcome m') :
    ∃ a m₁, m₁.ops = m.ops.set i { op with at_ := a } ∧ GoesTo m op outcome m' a ∧
      (m' = m₁ ∨ ∃ target, m' = m₁.switchTransport target false) := by
  have ended {m₁ : Manager} (frame : Frame m m₁) (ends : Ends m₁ i op m') :
      ∃ a m₁, m₁.ops = m.ops.set i { op with at_ := a } ∧ GoesTo m op outcome m' a ∧
        (m' = m₁ ∨ ∃ target, m' = m₁.switchTransport target false) :=
    ⟨.ended, m', ends.ops.trans (by rw [frame.ops]), .inl rfl, .inl rfl⟩
  cases turn with
  | @goesOn _ m₁ a frame webrtc usb order pending connecting sited ready =>
    exact ⟨a, _, by simp [put, frame.ops], .inr (.inr ⟨connecting, order⟩), .inl rfl⟩
  | @found _ m₁ owner task linked =>
    obtain ⟨ends, -⟩ := ends_discovered { m₁ with activeTransport := some .usb } i task
    exact ended linked.frame
      ⟨ends.ops, ends.switchPromise, ends.device, ends.connected, ends.webrtc⟩
  | @parts _ m₁ target current linked =>
    exact ⟨.messaging .webrtc, _, by simp [put, linked.frame.ops],
      .inr (.inl ⟨m₁, linked, rfl, rfl⟩), .inl rfl⟩
  | @usbUp _ m₁ target current linked =>
    exact ended linked.frame (ends_usbSwitched m₁ i target).1
  | parted target at_ => exact ended (frame_released m op.at_) (ends_usbSwitched _ i target).1
  | fails target at_ => exact ended (frame_released m op.at_) (ends_resolve _ i target false)
  | rejects target at_ => exact ended (frame_released m op.at_) (ends_reject _ i target)
  | @webrtcDone attempt answer retryable at_ task =>
    exact ended (frame_webrtc m answer) (ends_webrtcDone _ i task _).1
  | @polled wasAvailable known b _ task at_ calls =>
    exact ⟨.ended, _, rfl, .inl rfl, calls⟩
  | destroyed task at_ =>
    exact ⟨.ended, _, by simp [put, (frame_released m op.at_).ops], .inl rfl, .inl rfl⟩

theorem Turn.carries (turn : Turn m i op outcome m') (hop : m.ops[i]? = some op) :
    Carries Light m m' (some i) ∧ ∃ op', m'.ops[i]? = some op' ∧
      op'.task.target = op.task.target ∧ GoesTo m op outcome m' op'.at_ := by
  obtain ⟨a, m₁, ops, goes, calls⟩ := turn.ops
  have carries : Carries Light m m₁ (some i) := carries_put hop ops
  have get : m₁.ops[i]? = some { op with at_ := a } := by
    rw [ops]
    exact Tasks.set_self hop _
  rcases calls with rfl | ⟨target, rfl⟩
  · exact ⟨carries, _, get, rfl, goes⟩
  · have joins := carries_switchTransport m₁ target false
    obtain ⟨op', hop', root, ha⟩ := joins.keeps i _ get
    exact ⟨carries.trans joins (by rw [ops, List.length_set]), op', hop',
      Task.target_of_root root, ha nofun ▸ goes⟩

/-- A device that the USB transport has stays, but for the end of its `disconnect`. -/
theorem Turn.device (turn : Turn m i op outcome m') (h : m.usb.device = true) :
    m'.usb.device = true ∨ op.at_ = .closing ∨ op.at_ = .messaging .usb := by
  have released : (m.released op.at_).usb.device = true ∨ op.at_ = .closing ∨
      op.at_ = .messaging .usb := by
    cases ha : op.at_ with
    | closing => exact .inr (.inl rfl)
    | messaging transport => cases transport <;> simp [released, cleanup, h]
    | _ => exact .inl h
  have linked {m₁ : Manager} (linked : Linked m op outcome m₁) : m₁.usb.device = true := by
    cases linked <;> simp [openUsb, UsbTransport.connect, h]
  cases turn with
  | @goesOn _ m₁ a frame webrtc usb order pending connecting sited ready =>
    exact usb.imp_left fun kept => kept.1.trans h
  | @found _ m₁ owner task hl =>
    have device := linked hl
    have ends := (ends_discovered { m₁ with activeTransport := some .usb } i task).1
    exact .inl (ends.device.trans device)
  | @parts _ m₁ target current hl =>
    have device := linked hl
    exact .inl device
  | @usbUp _ m₁ target current hl =>
    exact .inl ((ends_usbSwitched m₁ i target).1.device.trans (linked hl))
  | parted target at_ => exact released.imp_left (ends_usbSwitched _ i target).1.device.trans
  | fails target at_ => exact released.imp_left (ends_resolve _ i target false).device.trans
  | rejects target at_ => exact released.imp_left (ends_reject _ i target).device.trans
  | @webrtcDone attempt answer retryable at_ task =>
    exact .inl ((ends_webrtcDone _ i task _).1.device.trans h)
  | @polled wasAvailable known b _ task at_ calls =>
    rcases calls with rfl | ⟨target, rfl⟩
    · exact .inl h
    · exact .inl ((switchTransport_transports _ target false).2.1.trans h)
  | destroyed task at_ => exact released

/-- A call that a step other than the end of an await has made: a light one, or one of `initialize`
or `destroy`. -/
structure Made (e : ManagerEvent) (op : Op) : Prop where
  brief : e ≠ .init → e ≠ .destroy → op.task.lasting = false
  stays : op.task.target = some .usb → op.at_ ≠ .messaging .webrtc

theorem stays_of_target (h : op.task.target = none) :
    op.task.target = some .usb → op.at_ ≠ .messaging .webrtc := by
  intro target
  cases h.symm.trans target

/-- A step that is not the end of an await leaves the calls where they are, and the USB transport
its device, but for a read error. -/
theorem carries_step {e : ManagerEvent} (hs : m.step e = some m')
    (he : ∀ i outcome, e ≠ .settle i outcome) :
    Carries (Made e) m m' none ∧
      (m.usb.device = true → e ≠ .usbReadError → m'.usb.device = true) := by
  have made (e : ManagerEvent) (op : Op) (light : Light op) : Made e op :=
    ⟨fun _ _ => light.brief, light.stays⟩
  cases effect_of_step hs with
  | init =>
    rw [initManager]
    split
    · exact ⟨carries_of_ops rfl, fun h _ => h⟩
    · exact ⟨carries_push _ rfl ⟨fun h => absurd rfl h, stays_of_target rfl⟩, fun h _ => h⟩
  | selectTransport =>
    rw [Manager.selectTransport]
    split
    · exact ⟨carries_of_ops rfl, fun h _ => h⟩
    · exact ⟨carries_push _ rfl (made _ _ ⟨rfl, stays_of_target rfl⟩), fun h _ => h⟩
  | switchTransport target =>
    exact ⟨(carries_switchTransport m target false).mono (made _),
      fun h _ => (switchTransport_transports m target false).2.1.trans h⟩
  | destroy =>
    obtain ⟨m₁, a, frame, usb, -, -, eq⟩ := destroy_starts m
    rw [eq]
    exact ⟨carries_push ⟨.destroy, a⟩ (by simp [start, frame.ops])
      ⟨fun _ h => absurd rfl h, stays_of_target rfl⟩, fun h _ => by simpa [start, usb] using h⟩
  | onMessage callback =>
    rw [Manager.onMessage]
    split
    · exact ⟨carries_of_ops rfl, fun h _ => h⟩
    · exact ⟨carries_of_ops (by simp), fun h _ => by simpa using h⟩
  | pollTick => exact ⟨carries_push _ rfl (made _ _ ⟨rfl, stays_of_target rfl⟩), fun h _ => h⟩
  | @settle i op outcome m' hop quiet mid hs => exact absurd rfl (he i outcome)
  | lost t target clears rests =>
    have ops : (m.cleanup t).ops = m.ops := by cases t <;> rfl
    have device : m.usb.device = true → Manager.lost t ≠ .usbReadError →
        (m.cleanup t).usb.device = true := by
      cases t with
      | usb => exact fun _ h => absurd rfl h
      | webrtc => exact fun h _ => h
    split
    · have joins := (carries_switchTransport (m.cleanup t) target clears).mono
        (made (Manager.lost t))
      exact ⟨(carries_of_ops ops).trans joins (by rw [ops]), fun h he =>
        (switchTransport_transports _ target clears).2.1.trans (device h he)⟩
    · exact ⟨carries_of_ops ops, device⟩

end Manager

end SmartIdVault.Transport
