import SmartIdVault.Transport.Calls

/-! The life of one manager, whose `initialize()` is called once: its poll timer, and what is left
of it once it has been destroyed. -/

namespace SmartIdVault.Transport

/-- A call that looks for a transport. -/
def ManagerEvent.asks : ManagerEvent → Bool
  | .selectTransport | .switchTransport _ => true
  | _ => false

namespace Manager

/-- `destroy()` has been called. -/
def destroyed (m : Manager) : Bool := m.ops.any (·.task = .destroy)

variable {m m' m₁ : Manager} {i : Nat} {op : Op} {a : Await} {outcome : Outcome}

/-- No new call is one of `initialize` or `destroy`. -/
abbrev Keeps (m m' : Manager) (i : Option Nat) : Prop :=
  Carries (fun op => op.task.lasting = false) m m' i

theorem Carries.forth {P : Op → Prop} {i : Option Nat} {j : Nat} (carries : Carries P m m' i)
    (hj : m.ops[j]? = some op) (lasting : op.task.lasting = true) :
    ∃ op', m'.ops[j]? = some op' ∧ op'.task = op.task ∧ (i ≠ some j → op'.at_ = op.at_) := by
  obtain ⟨op', hj', root, ha⟩ := carries.keeps j op hj
  exact ⟨op', hj', Task.eq_of_root root (.inl lasting), ha⟩

theorem Keeps.back {i : Option Nat} {j : Nat} {op' : Op} (keeps : Keeps m m' i)
    (hj : m'.ops[j]? = some op') (lasting : op'.task.lasting = true) :
    ∃ op, m.ops[j]? = some op ∧ op.task = op'.task := by
  by_cases hlen : j < m.ops.length
  · obtain ⟨op₁, hj₁, root, -⟩ := keeps.keeps j m.ops[j] (List.getElem?_eq_getElem hlen)
    obtain rfl := Option.some.inj (hj.symm.trans hj₁)
    exact ⟨m.ops[j], List.getElem?_eq_getElem hlen, (Task.eq_of_root root (.inr lasting)).symm⟩
  · cases (keeps.fresh j op' hj (by omega)).symm.trans lasting

/-- The timers, and whether `initialize()` is under way, are the same. -/
structure Timers (m m' : Manager) : Prop where
  connecting : m'.connecting = m.connecting
  usbPollTimer : m'.usbPollTimer = m.usbPollTimer
  intervals : m'.intervals = m.intervals

theorem Frame.timers (h : Frame m m') : Timers m m' := ⟨h.connecting, h.usbPollTimer, h.intervals⟩

theorem Timers.trans (h : Timers m m₁) (h' : Timers m₁ m') : Timers m m' :=
  ⟨h'.connecting.trans h.connecting, h'.usbPollTimer.trans h.usbPollTimer,
    h'.intervals.trans h.intervals⟩

theorem timers_switchTransport (m : Manager) (target : TransportType) (clears : Bool) :
    Timers m (m.switchTransport target clears) := by
  cases hp : m.switchPromise with
  | some i =>
    rw [switchTransport_joins hp]
    exact ⟨rfl, rfl, rfl⟩
  | none =>
    obtain ⟨m₁, a, starts, eq⟩ := switchTransport_starts hp target clears
    rw [eq]
    exact ⟨starts.frame.connecting, starts.frame.usbPollTimer, starts.frame.intervals⟩

theorem timers_attach (m : Manager) (transport : TransportType) :
    Timers m (m.attach transport) := by
  simp only [attach]
  split <;> exact ⟨rfl, rfl, rfl⟩

/-- A transport becomes active. -/
theorem Timers.active (h : Timers m m₁) (t : Option TransportType) :
    Timers m { m₁ with activeTransport := t } := ⟨h.connecting, h.usbPollTimer, h.intervals⟩

theorem timers_resolve (m : Manager) (i : Nat) (op : Op) (result : Bool) :
    Timers m (m.resolve i op result) := by
  cases h : op.task <;> simp only [resolve, h] <;> exact ⟨rfl, rfl, rfl⟩

/-- Call `i`, which is `initialize()`, has settled, and has started a timer. -/
structure StartsTimer (m m' : Manager) (i : Nat) (op : Op) : Prop where
  task : op.task = .discover .init
  connecting : m'.connecting = false
  usbPollTimer : m'.usbPollTimer = true
  intervals : m'.intervals = m.intervals + 1
  ended : ∃ op', m'.ops[i]? = some op' ∧ op'.at_ = .ended

/-- The timers are as they were, and `initialize()` is under way if call `i` is its. -/
structure KeepsTimers (m m' : Manager) (i : Nat) (op : Op) : Prop where
  timers : Timers m m'
  underWay : op.task = .discover .init → ∃ op', m'.ops[i]? = some op' ∧ op'.at_ ≠ .ended

theorem keepsTimers_of_ne (timers : Timers m m') (task : op.task ≠ .discover .init) :
    KeepsTimers m m' i op := ⟨timers, fun h => absurd h task⟩

theorem timers_discovered {owner : Owner} (hop : m.ops[i]? = some op) (same : Timers m m₁)
    (ops : m₁.ops = m.ops) (task : op.task = .discover owner) :
    StartsTimer m (m₁.discovered i op owner) i op ∨
      KeepsTimers m (m₁.discovered i op owner) i op := by
  cases owner with
  | init =>
    have set : (m₁.discovered i op .init).ops[i]? = some { op with at_ := .ended } := by
      simp only [discovered, put, ops]
      exact Tasks.set_self hop _
    exact .inl ⟨task, rfl, rfl, congrArg (· + 1) same.intervals, _, set, rfl⟩
  | selectTransport =>
    refine .inr (keepsTimers_of_ne ⟨same.connecting, same.usbPollTimer, same.intervals⟩ ?_)
    simp [task]

theorem timers_webrtcDone (m : Manager) (i : Nat) (op : Op) (success : Bool) :
    ∃ m₁, Timers m m₁ ∧ m₁.ops = m.ops ∧ m.webrtcDone i op success = m₁.retried i op success := by
  cases success with
  | true =>
    have same : Timers m { m with activeTransport := some .webrtc } := ⟨rfl, rfl, rfl⟩
    exact ⟨_, same.trans (timers_attach _ .webrtc), attach_ops _ .webrtc, rfl⟩
  | false => exact ⟨{ m with activeTransport := none }, ⟨rfl, rfl, rfl⟩, rfl, rfl⟩

theorem Turn.timers (turn : Turn m i op outcome m') (hop : m.ops[i]? = some op) :
    StartsTimer m m' i op ∨ KeepsTimers m m' i op := by
  have other {own : TransportType} (target : op.task.target = some own) (same : Timers m m') :
      KeepsTimers m m' i op := by
    apply keepsTimers_of_ne same
    intro task
    simp [task, Task.target] at target
  cases turn with
  | @goesOn _ m₁ a frame webrtc usb order pending connecting sited ready =>
    refine .inr ⟨frame.timers.trans ⟨rfl, rfl, rfl⟩, fun _ => ⟨{ op with at_ := a }, ?_, ?_⟩⟩
    · simp only [put, frame.ops]
      exact Tasks.set_self hop _
    · rintro rfl
      cases connecting
  | @found _ m₁ owner task linked =>
    exact timers_discovered hop (linked.frame.timers.active (some .usb)) linked.frame.ops task
  | @parts _ m₁ target current linked =>
    exact .inr (other target (linked.frame.timers.trans ⟨rfl, rfl, rfl⟩))
  | @usbUp _ m₁ target current linked =>
    have same := (linked.frame.timers.active (some .usb)).trans (timers_attach _ .usb)
    exact .inr (other target (same.trans (timers_resolve _ i op true)))
  | parted target at_ =>
    have same := ((frame_released m op.at_).timers.active (some .usb)).trans (timers_attach _ .usb)
    exact .inr (other target (same.trans (timers_resolve _ i op true)))
  | fails target at_ =>
    have same := (frame_released m op.at_).timers
    exact .inr (other target (same.trans (timers_resolve _ i op false)))
  | rejects target at_ =>
    have same := (frame_released m op.at_).timers
    exact .inr (other target (same.trans ⟨rfl, rfl, rfl⟩))
  | @webrtcDone attempt answer retryable at_ task =>
    have frame := frame_webrtc m answer
    obtain ⟨m₁, same, ops, eq⟩ := timers_webrtcDone
      { m with webrtc := (m.webrtc.connect answer).2 } i op (answersConnected answer)
    have same := frame.timers.trans same
    rw [eq] at other ⊢
    obtain ⟨owner, ht⟩ | target := task
    · simp only [retried, ht]
      exact timers_discovered hop same (ops.trans frame.ops) ht
    · refine .inr (other target (same.trans ?_))
      obtain ⟨current, callers, clears, ht⟩ := Task.eq_of_target target
      simp only [retried, ht]
      exact timers_resolve m₁ i op _
  | @polled wasAvailable known b _ task at_ calls =>
    refine .inr (keepsTimers_of_ne ?_ (by simp [task]))
    have same : Timers m ({ m with usbAvailable := b }.put i op .ended) := ⟨rfl, rfl, rfl⟩
    rcases calls with rfl | ⟨target, rfl⟩
    · exact same
    · exact same.trans (timers_switchTransport _ target false)
  | destroyed task at_ =>
    have same := (frame_released m op.at_).timers
    exact .inr (keepsTimers_of_ne (same.trans ⟨rfl, rfl, rfl⟩) (by simp [task]))

/-- A manager whose `initialize()` has been called once, as call 0, which starts the timer.  Once it
has been destroyed, nothing is in flight, no transport is active and no timer runs. -/
structure Single (m : Manager) : Prop where
  formed : Formed m
  first : ∃ op, m.ops[0]? = some op ∧ op.task = .discover .init ∧
    (m.connecting = true ↔ op.at_ ≠ .ended)
  only : ∀ j op, m.ops[j]? = some op → op.task = .discover .init → j = 0
  timer : m.intervals = if m.usbPollTimer then 1 else 0
  pending : m.connecting = true → m.usbPollTimer = false
  gone : m.destroyed = true → m.Idle ∧ m.activeTransport = none ∧ m.intervals = 0

theorem single_init : Single ({} : Manager).initManager := by
  refine ⟨formed_init.step (e := .init) rfl, ⟨_, rfl, rfl, fun _ => nofun, fun _ => rfl⟩,
    ?_, rfl, fun _ => rfl, nofun⟩
  intro j op hj _
  have := (List.getElem?_eq_some_iff.mp hj).1
  exact Nat.lt_one_iff.mp this

theorem Single.idle (h : Single m) (idle : m.Idle) : m.connecting = false := by
  obtain ⟨op, hop, -, connecting⟩ := h.first
  by_contra hc
  exact connecting.mp (by simpa using hc) (idle op (List.mem_of_getElem? hop))

theorem Keeps.destroyed {i : Option Nat} (keeps : Keeps m m' i) : m'.destroyed = m.destroyed := by
  rw [Bool.eq_iff_iff]
  constructor
  · intro hd
    obtain ⟨op', hop', task⟩ := List.any_eq_true.mp hd
    obtain ⟨j, hj⟩ := List.mem_iff_getElem?.mp hop'
    have task := of_decide_eq_true task
    obtain ⟨op, hop, same⟩ := keeps.back hj (by rw [task]; rfl)
    exact List.any_eq_true.mpr ⟨op, List.mem_of_getElem? hop, decide_eq_true (same.trans task)⟩
  · intro hd
    obtain ⟨op, hop, task⟩ := List.any_eq_true.mp hd
    obtain ⟨j, hj⟩ := List.mem_iff_getElem?.mp hop
    have task := of_decide_eq_true task
    obtain ⟨op', hop', same, -⟩ := keeps.forth hj (by rw [task]; rfl)
    exact List.any_eq_true.mpr ⟨op', List.mem_of_getElem? hop', decide_eq_true (same.trans task)⟩

theorem Keeps.only {i : Option Nat} (keeps : Keeps m m' i)
    (h : ∀ j op, m.ops[j]? = some op → op.task = .discover .init → j = 0) :
    ∀ j op, m'.ops[j]? = some op → op.task = .discover .init → j = 0 := by
  intro j op' hj task
  obtain ⟨op, hop, same⟩ := keeps.back hj (by rw [task]; rfl)
  exact h j op hop (same.trans task)

/-- Nothing but calls goes on, and the timers are the same. -/
theorem Single.carry (h : Single m) (formed : Formed m') (keeps : Keeps m m' none)
    (timers : Timers m m') (gone : m.destroyed = true → m'.Idle ∧ m'.activeTransport = none) :
    Single m' ∧ m'.destroyed = m.destroyed ∧ (m'.connecting = true → m.connecting = true) := by
  have destroyed := keeps.destroyed
  obtain ⟨op, hop, task, connecting⟩ := h.first
  obtain ⟨op', hop', same, ha⟩ := keeps.forth hop (by rw [task]; rfl)
  refine ⟨⟨formed, ⟨op', hop', same.trans task, ?_⟩, keeps.only h.only, ?_, ?_, ?_⟩,
    destroyed, fun hc => timers.connecting ▸ hc⟩
  · rw [timers.connecting, ha nofun]
    exact connecting
  · rw [timers.intervals, timers.usbPollTimer]
    exact h.timer
  · rw [timers.connecting, timers.usbPollTimer]
    exact h.pending
  · intro hd
    obtain ⟨-, -, intervals⟩ := h.gone (destroyed ▸ hd)
    obtain ⟨idle, active⟩ := gone (destroyed ▸ hd)
    exact ⟨idle, active, timers.intervals.trans intervals⟩

theorem idle_of_ops (idle : m.Idle) (h : m'.ops = m.ops) : m'.Idle :=
  fun op hop => idle op (h ▸ hop)

/-- The handler of a disconnect. -/
theorem Single.cleanup (h : Single m) (t target : TransportType) (clears : Bool) :
    let m' := if m.activeTransport = some t then (m.cleanup t).switchTransport target clears
      else m.cleanup t
    Timers m m' ∧ (m.destroyed = true → m'.Idle ∧ m'.activeTransport = none) := by
  intro m'
  have ops : (m.cleanup t).ops = m.ops := by cases t <;> rfl
  have active : (m.cleanup t).activeTransport = m.activeTransport := by cases t <;> rfl
  have timers : Timers m (m.cleanup t) := by cases t <;> exact ⟨rfl, rfl, rfl⟩
  by_cases hactive : m.activeTransport = some t
  · rw [show m' = _ from if_pos hactive]
    refine ⟨timers.trans (timers_switchTransport _ target clears), ?_⟩
    intro hd
    cases (h.gone hd).2.1.symm.trans hactive
  · rw [show m' = _ from if_neg hactive]
    refine ⟨timers, ?_⟩
    intro hd
    obtain ⟨idle, none, -⟩ := h.gone hd
    exact ⟨idle_of_ops idle ops, active.trans none⟩

theorem Single.turn (h : Single m) (hop : m.ops[i]? = some op) (mid : op.at_ ≠ .ended)
    (formed : Formed m') (turn : Turn m i op outcome m') :
    Single m' ∧ m'.destroyed = m.destroyed ∧ (m'.connecting = true → m.connecting = true) := by
  have keeps : Keeps m m' (some i) := (turn.carries hop).1.mono fun _ light => light.brief
  have destroyed := keeps.destroyed
  have gone (hd : m'.destroyed = true) :
      m'.Idle ∧ m'.activeTransport = none ∧ m'.intervals = 0 :=
    absurd ((h.gone (destroyed ▸ hd)).1 op (List.mem_of_getElem? hop)) mid
  obtain ⟨op₀, hop₀, task₀, connecting₀⟩ := h.first
  obtain ⟨op₁, hop₁, task₁, same⟩ := keeps.forth hop₀ (by rw [task₀]; rfl)
  obtain starts | ⟨timers, underWay⟩ := turn.timers hop
  · -- `initialize()` itself has settled
    obtain rfl := h.only i op hop starts.task
    obtain rfl := Option.some.inj (hop.symm.trans hop₀)
    obtain ⟨op', hop', ended⟩ := starts.ended
    obtain rfl := Option.some.inj (hop'.symm.trans hop₁)
    have timer := h.timer
    rw [h.pending (connecting₀.mpr mid), if_neg Bool.false_ne_true] at timer
    refine ⟨⟨formed, ⟨op', hop', task₁.trans starts.task, ?_⟩, keeps.only h.only, ?_, ?_, gone⟩,
      destroyed, ?_⟩
    · simp [starts.connecting, ended]
    · rw [starts.intervals, timer, starts.usbPollTimer, if_pos rfl]
    · rw [starts.connecting]
      rintro ⟨⟩
    · rw [starts.connecting]
      rintro ⟨⟩
  · refine ⟨⟨formed, ⟨op₁, hop₁, task₁.trans task₀, ?_⟩, keeps.only h.only, ?_, ?_, gone⟩,
      destroyed, fun hc => timers.connecting ▸ hc⟩
    · rw [timers.connecting, connecting₀]
      by_cases hi : i = 0
      · subst hi
        obtain rfl := Option.some.inj (hop.symm.trans hop₀)
        obtain ⟨op', hop', ne⟩ := underWay task₀
        obtain rfl := Option.some.inj (hop'.symm.trans hop₁)
        exact iff_of_true mid ne
      · rw [same fun h => hi (Option.some.inj h)]
    · rw [timers.intervals, timers.usbPollTimer]
      exact h.timer
    · rw [timers.connecting, timers.usbPollTimer]
      exact h.pending

/-- A step of a manager, but for a call of `initialize` or `destroy`. -/
theorem Single.step {e : ManagerEvent} (h : Single m) (hi : e ≠ .init) (hd : e ≠ .destroy)
    (asks : m.destroyed = true → e.asks = false) (hs : m.step e = some m') :
    Single m' ∧ m'.destroyed = m.destroyed ∧ (m'.connecting = true → m.connecting = true) := by
  have formed := h.formed.step hs
  by_cases he : ∃ i outcome, e = .settle i outcome
  · obtain ⟨i, outcome, rfl⟩ := he
    obtain ⟨op, hop, -, mid, hs⟩ := settle_of_step hs
    exact h.turn hop mid formed (turn_of_settle (h.formed.sited op (List.mem_of_getElem? hop)) hs)
  have carries := (carries_step hs fun i outcome h => he ⟨i, outcome, h⟩).1
  have keeps : Keeps m m' none := carries.mono fun _ made => made.brief hi hd
  suffices Timers m m' ∧ (m.destroyed = true → m'.Idle ∧ m'.activeTransport = none) from
    h.carry formed keeps this.1 this.2
  cases effect_of_step hs with
  | init => exact absurd rfl hi
  | destroy => exact absurd rfl hd
  | @settle i op outcome m' hop quiet mid hs => exact absurd ⟨i, outcome, rfl⟩ he
  | selectTransport =>
    constructor
    · rw [Manager.selectTransport]
      split <;> exact ⟨rfl, rfl, rfl⟩
    · intro hd
      cases asks hd
  | switchTransport target =>
    refine ⟨timers_switchTransport m target false, ?_⟩
    intro hd
    cases asks hd
  | onMessage callback =>
    rw [Manager.onMessage]
    constructor
    · split
      · exact ⟨rfl, rfl, rfl⟩
      next t _ =>
        have same := timers_attach { m with messageCallback := some callback } t
        exact ⟨same.connecting, same.usbPollTimer, same.intervals⟩
    · intro hd
      obtain ⟨idle, none, -⟩ := h.gone hd
      split
      · exact ⟨idle, none⟩
      next active => cases none.symm.trans active
  | pollTick runs =>
    refine ⟨⟨rfl, rfl, rfl⟩, ?_⟩
    intro hd
    obtain ⟨-, -, intervals⟩ := h.gone hd
    omega
  | lost t target clears => exact h.cleanup t target clears

/-- `destroy` of a manager with no active transport and no call in flight. -/
theorem Single.destroy (h : Single m) (idle : m.Idle) (active : m.activeTransport = none) :
    Single m.destroy ∧ m.destroy.destroyed = true ∧ m.destroy.connecting = false := by
  have eq : m.destroy = m.clearPollTimer.start .destroy .ended := by
    simp [Manager.destroy, active]
  have fields : m.clearPollTimer.ops = m.ops ∧ m.clearPollTimer.connecting = m.connecting ∧
      m.clearPollTimer.intervals = 0 ∧ m.clearPollTimer.usbPollTimer = false := by
    have timer := h.timer
    rw [clearPollTimer]
    split at timer <;> simp_all
  obtain ⟨ops, connecting, intervals, usbPollTimer⟩ := fields
  have ops : m.destroy.ops = m.ops ++ [⟨.destroy, .ended⟩] := by rw [eq, start, ops]
  have stopped : m.destroy.connecting = false := by
    rw [eq]
    exact connecting.trans (h.idle idle)
  have none : m.destroy.activeTransport = none := by
    rw [eq]
    exact (clearPollTimer_fields m).1.trans active
  have formed := h.formed.destroy
  obtain ⟨op, hop, task, -⟩ := h.first
  refine ⟨⟨formed, ⟨op, ?_, task, ?_⟩, ?_, ?_, ?_, fun _ => ⟨?_, none, ?_⟩⟩, ?_,
    stopped⟩
  · rw [ops]
    exact Tasks.get_append_of_get hop _
  · simp [stopped, idle op (List.mem_of_getElem? hop)]
  · intro j op' hj ht
    rw [ops] at hj
    obtain hj | ⟨-, rfl⟩ := Tasks.get_append hj
    · exact h.only j op' hj ht
    · cases ht
  · rw [eq]
    exact intervals.trans (by rw [start, usbPollTimer, if_neg Bool.false_ne_true])
  · rw [stopped]
    rintro ⟨⟩
  · intro op' hop'
    rw [ops] at hop'
    obtain hop' | hop' := List.mem_append.mp hop'
    · exact idle op' hop'
    · rw [List.mem_singleton.mp hop']
  · rw [eq]
    exact intervals
  · simp [destroyed, ops]

end Manager

end SmartIdVault.Transport
