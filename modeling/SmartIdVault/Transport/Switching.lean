import SmartIdVault.Transport.Calls

/-! What `switchTransport` reports.  Its callers share the switch under way whatever target they ask
for, so a call reports `true` of the target of another. -/

namespace SmartIdVault.Transport

namespace Manager

variable {m m' m₁ : Manager} {i : Nat} {op : Op} {outcome : Outcome}

/-- The event is a step of a switch: a call that begins or joins one, or what one awaits settles. -/
def switches (m : Manager) : ManagerEvent → Bool
  | .switchTransport _ | .usbReadError | .webrtcDisconnected => true
  | .settle i _ => m.ops[i]?.any fun op => op.task.target.isSome
  | _ => false

/-- The calls of `switchTransport` that resolve with `event` tell the truth: with `true`, the active
transport is the one asked for, and a switch that resolves to `false`, or goes on, has made no other
transport active. -/
def Reports (m : Manager) (event : ManagerEvent) : Prop :=
  ∀ m' ∈ m.step event,
    (∀ r ∈ m'.resolved.drop m.resolved.length,
      r.result = true → m'.activeTransport = some r.target) ∧
    (m.switches event = true →
      (∀ r ∈ m'.resolved.drop m.resolved.length, r.result = false) →
      m'.activeTransport = m.activeTransport ∨ m'.activeTransport = none)

/-- All those who wait for a switch that succeeds have asked for its target. -/
def Agreed (m : Manager) : ManagerEvent → Prop
  | .settle i outcome => ∀ op ∈ m.ops[i]?, op.succeeds outcome = true →
      ∀ target ∈ op.task.callers, op.task.target = some target
  | _ => True

instance (m : Manager) : ∀ e, Decidable (m.Agreed e)
  | .settle .. => inferInstanceAs (Decidable (∀ op ∈ m.ops[_]?, _))
  | .init | .selectTransport | .switchTransport _ | .destroy | .onMessage _ | .pollTick
  | .usbReadError | .webrtcDisconnected => isTrue trivial

instance (m : Manager) (e : ManagerEvent) : Decidable (m.Reports e) := by
  unfold Reports
  infer_instance

/-! ### What a switch resolves -/

theorem switchTransport_resolved (m : Manager) (target : TransportType) (clears : Bool) :
    (m.switchTransport target clears).resolved = m.resolved := by
  cases h : m.switchPromise with
  | some i => rw [switchTransport_joins h]
  | none =>
    obtain ⟨m₁, a, starts, eq⟩ := switchTransport_starts h target clears
    rw [eq]
    exact starts.frame.resolved

theorem resolve_resolved (m : Manager) (i : Nat) (op : Op) (result : Bool) :
    (m.resolve i op result).resolved =
      m.resolved ++ op.task.callers.map fun target => ⟨target, result, m.activeTransport⟩ := by
  cases h : op.task <;> simp [resolve, h, Task.callers]

/-- A step of call `i` either resolves a switch to `true`, with its target active, or resolves no
call to `true`; then a switch makes no other transport active. -/
structure Outcomes (m : Manager) (op : Op) (outcome : Outcome) (m' : Manager) : Prop where
  won : op.succeeds outcome = true → ∃ own, op.task.target = some own ∧
    m'.activeTransport = some own ∧
    m'.resolved = m.resolved ++ op.task.callers.map fun target => ⟨target, true, some own⟩
  lost : op.succeeds outcome = false →
    (∃ new, m'.resolved = m.resolved ++ new ∧ ∀ r ∈ new, r.result = false) ∧
    (op.task.target.isSome = true →
      m'.activeTransport = m.activeTransport ∨ m'.activeTransport = none)

/-- No call of `switchTransport` resolves. -/
theorem outcomes_pending (pending : op.succeeds outcome = false)
    (resolved : m'.resolved = m.resolved)
    (active : op.task.target.isSome = true → m'.activeTransport = m.activeTransport) :
    Outcomes m op outcome m' :=
  ⟨fun h => absurd (pending.symm.trans h) nofun,
    fun _ => ⟨⟨[], by simp [resolved], nofun⟩, fun ht => .inl (active ht)⟩⟩

theorem usbSwitched_outcomes (frame : Frame m m₁) (target : op.task.target = some .usb)
    (succeeds : op.succeeds outcome = true) : Outcomes m op outcome (m₁.usbSwitched i op) := by
  obtain ⟨-, active⟩ := ends_usbSwitched m₁ i target
  refine ⟨fun _ => ⟨.usb, target, active, ?_⟩, fun h => absurd (h.symm.trans succeeds) nofun⟩
  simp [usbSwitched, resolve_resolved, frame.resolved]

/-- The calls that `connectWebRtcWithRetry` resolves at its end. -/
theorem webrtcDone_resolved (m : Manager) (i : Nat) (op : Op)
    (task : (∃ owner, op.task = .discover owner) ∨ op.task.target = some .webrtc)
    (success : Bool) :
    (m.webrtcDone i op success).resolved = m.resolved ++ op.task.callers.map fun target =>
      ⟨target, success, if success then some .webrtc else none⟩ := by
  obtain ⟨owner, ht⟩ | ht := task
  · cases success <;> cases owner <;> simp [webrtcDone, retried, discovered, put, ht, Task.callers]
  · obtain ⟨current, callers, clears, ht⟩ := Task.eq_of_target ht
    cases success <;> simp [webrtcDone, retried, ht, resolve, Task.callers]

theorem Turn.outcomes (turn : Turn m i op outcome m') :
    Outcomes m op outcome m' := by
  cases turn with
  | @goesOn _ m₁ a frame webrtc usb order pending connecting sited ready =>
    exact outcomes_pending pending frame.resolved fun _ => frame.activeTransport
  | @found _ m₁ owner task linked =>
    refine outcomes_pending (by simp [Op.succeeds, task]) ?_ (by simp [task, Task.target])
    cases owner <;> exact linked.frame.resolved
  | @parts _ m₁ target current linked =>
    exact outcomes_pending (by rw [linked.succeeds target, current]; rfl) linked.frame.resolved
      fun _ => linked.frame.activeTransport
  | @usbUp _ m₁ target current linked =>
    exact usbSwitched_outcomes linked.frame target
      (by rw [linked.succeeds target]; exact decide_eq_true current)
  | parted target at_ =>
    apply usbSwitched_outcomes (frame_released m op.at_) target
    obtain ⟨current, callers, clears, ht⟩ := Task.eq_of_target target
    simp [Op.succeeds, ht, at_]
  | fails target at_ =>
    have frame := frame_released m op.at_
    have lost : op.succeeds outcome = false := by
      obtain ⟨current, callers, clears, ht⟩ := Task.eq_of_target target
      obtain ⟨ha, rfl⟩ | ⟨ha, rfl⟩ | ⟨ha, rfl⟩ := at_ <;> simp [Op.succeeds, ht, ha]
    have resolved := resolve_resolved (m.released op.at_) i op false
    rw [frame.resolved] at resolved
    refine ⟨fun h => ?_, fun _ => ⟨⟨_, resolved, by simp⟩, fun _ => ?_⟩⟩
    · cases lost.symm.trans h
    · rw [resolve_activeTransport, frame.activeTransport]
      split
      · exact .inr rfl
      · exact .inl rfl
  | rejects target at_ =>
    refine outcomes_pending ?_ (frame_released m op.at_).resolved fun _ =>
      (frame_released m op.at_).activeTransport
    obtain ⟨current, callers, clears, ht⟩ := Task.eq_of_target target
    simp [Op.succeeds, ht]
  | @webrtcDone attempt answer retryable at_ task =>
    have resolved := webrtcDone_resolved { m with webrtc := (m.webrtc.connect answer).2 } i op task
      (answersConnected answer)
    obtain ⟨-, active⟩ := ends_webrtcDone { m with webrtc := (m.webrtc.connect answer).2 } i task
      (answersConnected answer)
    obtain ⟨owner, ht⟩ | target := task
    · refine outcomes_pending (by simp [Op.succeeds, ht]) ?_ (by simp [ht, Task.target])
      simpa [ht, Task.callers] using resolved
    · have succeeds : op.succeeds (.state answer retryable) = answersConnected answer := by
        obtain ⟨current, callers, clears, ht⟩ := Task.eq_of_target target
        simp [Op.succeeds, ht, at_]
      constructor
      · intro h
        rw [succeeds] at h
        rw [h] at active resolved ⊢
        exact ⟨.webrtc, target, active, resolved⟩
      · intro h
        rw [succeeds] at h
        rw [h] at active resolved ⊢
        exact ⟨⟨_, resolved, by simp⟩, fun _ => .inr active⟩
  | @polled wasAvailable known b _ task at_ calls =>
    refine outcomes_pending (by simp [Op.succeeds, task]) ?_ (by simp [task, Task.target])
    rcases calls with rfl | ⟨target, rfl⟩
    · rfl
    · exact switchTransport_resolved _ target false
  | destroyed task at_ =>
    exact outcomes_pending (by simp [Op.succeeds, task]) (frame_released m op.at_).resolved
      fun _ => (frame_released m op.at_).activeTransport

/-! ### One step -/

/-- A step that is not the end of an await resolves no call, and a call of `switchTransport` and a
disconnect leave the active transport as it is. -/
theorem step_resolved {e : ManagerEvent} (hs : m.step e = some m')
    (he : ∀ i outcome, e ≠ .settle i outcome) :
    m'.resolved = m.resolved ∧
      (m.switches e = true → m'.activeTransport = m.activeTransport) := by
  cases effect_of_step hs with
  | init | selectTransport =>
    constructor
    · first | rw [initManager] | rw [Manager.selectTransport]
      split <;> rfl
    · rintro ⟨⟩
  | switchTransport target =>
    exact ⟨switchTransport_resolved m target false,
      fun _ => switchTransport_activeTransport m target false⟩
  | destroy =>
    obtain ⟨m₁, a, frame, -, -, -, eq⟩ := destroy_starts m
    constructor
    · rw [eq]
      simp [start, frame.resolved]
    · rintro ⟨⟩
  | onMessage callback =>
    constructor
    · rw [Manager.onMessage]
      split <;> simp
    · rintro ⟨⟩
  | pollTick =>
    constructor
    · rfl
    · rintro ⟨⟩
  | @settle i op outcome m' hop quiet mid hs => exact absurd rfl (he i outcome)
  | lost t target clears rests =>
    have same : (m.cleanup t).resolved = m.resolved ∧
        (m.cleanup t).activeTransport = m.activeTransport := by cases t <;> exact ⟨rfl, rfl⟩
    split
    · exact ⟨(switchTransport_resolved _ _ _).trans same.1,
        fun _ => (switchTransport_activeTransport _ _ _).trans same.2⟩
    · exact ⟨same.1, fun _ => same.2⟩

theorem Formed.reports_iff {e : ManagerEvent} (h : Formed m) (hs : m.step e = some m') :
    m.Reports e ↔ m.Agreed e := by
  have reports (P : Manager → Prop) : (∀ m' ∈ m.step e, P m') ↔ P m' :=
    ⟨fun h => h m' hs, fun h m'' h'' => Option.some.inj (hs.symm.trans h'') ▸ h⟩
  rw [Reports, reports]
  by_cases he : ∃ i outcome, e = .settle i outcome
  · obtain ⟨i, outcome, rfl⟩ := he
    obtain ⟨op, hop, -, -, hs⟩ := settle_of_step hs
    have mem := List.mem_of_getElem? hop
    have outcomes := (turn_of_settle (h.sited op mem) hs).outcomes
    have agreed : m.Agreed (.settle i outcome) ↔ (op.succeeds outcome = true →
        ∀ target ∈ op.task.callers, op.task.target = some target) :=
      ⟨fun h => h op hop, fun h op' hop' => Option.some.inj (hop.symm.trans hop') ▸ h⟩
    rw [agreed]
    cases hsucc : op.succeeds outcome with
    | true =>
      obtain ⟨own, target, active, resolved⟩ := outcomes.won hsucc
      rw [resolved, List.drop_left, active, target]
      constructor
      · intro ⟨truthful, _⟩ _ t ht
        exact truthful _ (List.mem_map_of_mem ht) rfl
      · intro agreed
        constructor
        · intro r hr _
          obtain ⟨t, ht, rfl⟩ := List.mem_map.mp hr
          exact agreed rfl t ht
        · intro _ hfalse
          have := hfalse _ (List.mem_map_of_mem (h.asked op mem own target))
          cases this
    | false =>
      obtain ⟨⟨new, resolved, hnew⟩, active⟩ := outcomes.lost hsucc
      rw [resolved, List.drop_left]
      refine ⟨fun _ => nofun, fun _ => ⟨?_, fun hsw _ => active ?_⟩⟩
      · intro r hr htrue
        exact absurd ((hnew r hr).symm.trans htrue) nofun
      · simpa [switches, hop] using hsw
  · obtain ⟨resolved, active⟩ := step_resolved hs fun i outcome h => he ⟨i, outcome, h⟩
    rw [resolved, List.drop_length]
    have agreed : m.Agreed e := by
      cases e <;> first | trivial | exact absurd ⟨_, _, rfl⟩ he
    exact ⟨fun _ => agreed, fun _ => ⟨nofun, fun hsw _ => .inl (active hsw)⟩⟩

/-- In every run, `switchTransport` does what it reports exactly when all callers of each switch
that succeeds have asked for its target. -/
theorem reports_iff_agreed {es : List ManagerEvent} (run : Machine.Run Manager.step {} es m) :
    Machine.Throughout Manager.step Reports {} es ↔ Machine.Throughout Manager.step Agreed {} es :=
  run.throughout_congr formed_init (fun _ _ _ h hs => h.step hs) fun _ _ _ h hs => h.reports_iff hs

/-- From WebRTC, two calls switch to USB, and a switch back fails for its two callers. -/
def switchedTwice : List ManagerEvent :=
  [.selectTransport, .settle 0 (.available true), .settle 0 .notOpened, .settle 0 (.relayed false),
   .settle 0 (.state (.ok (some { success := true, connectionState := some .connected })) false),
   .switchTransport .usb, .switchTransport .usb, .settle 1 (.opened true),
   .settle 1 (.disconnected true), .switchTransport .webrtc, .switchTransport .usb,
   .settle 2 .closed, .settle 2 (.state (.ok none) false)]

theorem switchedTwice_reports : (∃ m, Machine.Run Manager.step {} switchedTwice m ∧
      m.resolved = [⟨.usb, true, some .usb⟩, ⟨.usb, true, some .usb⟩, ⟨.webrtc, false, none⟩,
        ⟨.usb, false, none⟩]) ∧
    Machine.Throughout Manager.step Reports {} switchedTwice := by
  have h : (Machine.exec Manager.step {} switchedTwice).any (fun m =>
      m.resolved = [⟨.usb, true, some .usb⟩, ⟨.usb, true, some .usb⟩, ⟨.webrtc, false, none⟩,
        ⟨.usb, false, none⟩]) = true := by decide +kernel
  obtain ⟨m, run, hm⟩ := Machine.exists_run_with h
  exact ⟨⟨m, run, of_decide_eq_true hm⟩, (reports_iff_agreed run).mpr (by decide +kernel)⟩

/-- A poll finds USB and switches to it, and a call for WebRTC joins that switch. -/
def joinedSwitch : List ManagerEvent :=
  [.init, .settle 0 (.available false), .settle 0 (.state (.ok none) false), .pollTick,
   .settle 1 (.available true), .switchTransport .webrtc, .settle 2 (.opened true)]

theorem joined_switch_misreports :
    (∃ m, Machine.Run Manager.step {} joinedSwitch m ∧
      m.resolved = [⟨.usb, true, some .usb⟩, ⟨.webrtc, true, some .usb⟩]) ∧
      ¬Machine.Throughout Manager.step Reports {} joinedSwitch := by
  have h : (Machine.exec Manager.step {} joinedSwitch).any (fun m =>
      m.resolved = [⟨.usb, true, some .usb⟩, ⟨.webrtc, true, some .usb⟩]) = true := by
    decide +kernel
  obtain ⟨m, run, hm⟩ := Machine.exists_run_with h
  exact ⟨⟨m, run, of_decide_eq_true hm⟩, by decide +kernel⟩

end Manager

end SmartIdVault.Transport
