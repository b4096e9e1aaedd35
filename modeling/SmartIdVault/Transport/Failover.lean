import SmartIdVault.Transport.Switching

/-! The manager and the offscreen document, which has the peer connection and, where the background
opens no USB device of its own, the USB device too.  `webrtc-disconnect`, which either transport
sends in its `disconnect`, closes both. -/

namespace SmartIdVault.Transport

/-- What the offscreen document has open: `usbDevice` and `pc`. -/
structure OffscreenLinks where
  usbDevice : Bool := false
  pc : Bool := false
  deriving DecidableEq, Repr

namespace OffscreenLinks

/-- The case `webrtc-connect-usb`; `opened` tells whether `connectWebUsb` has opened a device. -/
def connectWebUsb (d : OffscreenLinks) (opened : Bool) : OffscreenLinks :=
  { d with usbDevice := d.usbDevice || opened }

/-- The case `webrtc-disconnect`. -/
def disconnect (_ : OffscreenLinks) : OffscreenLinks := { usbDevice := false, pc := false }

end OffscreenLinks

/-- The manager, the document, and what has become of the messages of call `i`: the document has
handled its `webrtc-connect-usb` (`asked`), and opened a device (`opened`), or its
`webrtc-disconnect` (`parted`), and closed a peer connection (`closers`).  `started` has the
switches that a USB disconnect has started. -/
structure Joint where
  manager : Manager := {}
  offscreen : OffscreenLinks := {}
  asked : List Nat := []
  opened : List Nat := []
  parted : List Nat := []
  closers : List Nat := []
  started : List Nat := []

/-- A step of the manager; the document handles the message that call `i` has sent; its USB device
is detached; its peer connection is set up or is gone. -/
inductive JointEvent where
  | manager (event : ManagerEvent)
  | handle (i : Nat) (opened : Bool)
  | detached
  | peerConnection (pc : Bool)
  deriving DecidableEq

namespace Joint

/-- The document handles the message that call `i` awaits the answer of. -/
def handle (j : Joint) (i : Nat) (opened : Bool) (at_ : Await) : Option Joint :=
  match at_ with
  | .usbRelaying =>
    if i ∈ j.asked then none
    else some { j with
      offscreen := j.offscreen.connectWebUsb opened
      asked := i :: j.asked
      opened := if opened then i :: j.opened else j.opened }
  | .messaging _ =>
    if i ∈ j.parted then none
    else some { j with
      offscreen := j.offscreen.disconnect
      parted := i :: j.parted
      closers := if j.offscreen.pc then i :: j.closers else j.closers }
  | _ => none

/-- The answer to `webrtc-connect-usb` is a success only after the document has opened a device. -/
def answers (j : Joint) : ManagerEvent → Bool
  | .settle i (.relayed true) => i ∈ j.opened
  | _ => true

def step (j : Joint) : JointEvent → Option Joint
  | .manager event =>
    if j.answers event then
      (j.manager.step event).map fun m =>
        { j with
          manager := m
          started :=
            if event = .usbReadError ∧ j.manager.ops.length < m.ops.length then
              j.manager.ops.length :: j.started
            else j.started }
    else none
  | .handle i opened => j.manager.ops[i]?.bind fun op => j.handle i opened op.at_
  | .detached => some { j with offscreen := { j.offscreen with usbDevice := false } }
  | .peerConnection pc => some { j with offscreen := { j.offscreen with pc } }

/-- The link of call `i`, a switch to `target`, is open: a USB device, or the peer connection, which
the switch has not closed. -/
def linkOpen (j : Joint) (i : Nat) : TransportType → Bool
  | .usb => j.manager.usb.device || j.offscreen.usbDevice
  | .webrtc => i ∉ j.closers

/-- When a switch returns `true` in the step to `j'`, the link it has switched to is open. -/
def ReturnsOpen (j j' : Joint) : JointEvent → Prop
  | .manager (.settle i _) =>
    (∃ r ∈ j'.manager.resolved.drop j.manager.resolved.length, r.result = true) →
      ∀ op ∈ j.manager.ops[i]?, ∀ target ∈ op.task.target, j'.linkOpen i target = true
  | _ => True

instance (j j' : Joint) : ∀ e, Decidable (j.ReturnsOpen j' e)
  | .manager (.settle ..) => inferInstanceAs (Decidable (_ → ∀ op ∈ _, ∀ target ∈ _, _))
  | .manager .init | .manager .selectTransport | .manager (.switchTransport _) | .manager .destroy
  | .manager (.onMessage _) | .manager .pollTick | .manager .usbReadError
  | .manager .webrtcDisconnected | .handle .. | .detached | .peerConnection _ => isTrue trivial

/-- A switch that returns `true` has its link, and no switch that a USB disconnect has started has
closed a peer connection. -/
def Spares (j : Joint) (event : JointEvent) : Prop :=
  ∀ j' ∈ j.step event, j.ReturnsOpen j' event ∧ ∀ i ∈ j'.closers, i ∉ j'.started

instance (j : Joint) (e : JointEvent) : Decidable (j.Spares e) :=
  inferInstanceAs (Decidable (∀ j' ∈ j.step e, j.ReturnsOpen j' e ∧ ∀ i ∈ j'.closers, _))

/-- Call `i` is a switch to USB that has its link, and has yet to return. -/
def holds (j : Joint) (i : Nat) (op : Op) : Bool :=
  op.task.target = some .usb &&
    (op.at_ = .messaging .webrtc || op.at_ = .usbRelaying && i ∈ j.opened)

/-- A switch to USB that has its link is under way. -/
def relies (j : Joint) : Bool := (j.manager.ops.mapIdx fun i op => j.holds i op).any id

/-- The document handles no `webrtc-disconnect` of a switch to WebRTC while it has a peer
connection; it loses its USB device, and the USB transport loses its own, only while no switch to
USB that has its link is under way or the other device is open. -/
def Careful (j : Joint) : JointEvent → Prop
  | .handle i _ => ∀ op ∈ j.manager.ops[i]?, op.at_.parting = true →
      (op.task.target = some .webrtc → j.offscreen.pc = false) ∧
      (j.relies = true → j.manager.usb.device = true)
  | .detached => j.relies = true → j.manager.usb.device = true
  | .manager .usbReadError => j.relies = true → j.offscreen.usbDevice = true
  | .manager (.settle i _) => ∀ op ∈ j.manager.ops[i]?,
      op.at_ = .closing ∨ op.at_ = .messaging .usb →
      j.relies = true → j.offscreen.usbDevice = true
  | _ => True

instance (j : Joint) : ∀ e, Decidable (j.Careful e)
  | .handle .. | .manager (.settle ..) => inferInstanceAs (Decidable (∀ op ∈ j.manager.ops[_]?, _))
  | .detached | .manager .usbReadError => inferInstanceAs (Decidable (_ → _ = true))
  | .manager .init | .manager .selectTransport | .manager (.switchTransport _) | .manager .destroy
  | .manager (.onMessage _) | .manager .pollTick | .manager .webrtcDisconnected
  | .peerConnection _ => isTrue trivial

/-! ### The invariant -/

open Manager in
/-- A switch to USB that has its link has it open; the document has handled the `webrtc-connect-usb`
of calls that have sent it; and a switch to WebRTC has closed no peer connection, while a USB
disconnect has started no other. -/
structure Kept (j : Joint) : Prop where
  formed : Formed j.manager
  linked : ∀ i op, j.manager.ops[i]? = some op → j.holds i op = true → j.linkOpen i .usb = true
  later : ∀ i ∈ j.opened, ∃ op, j.manager.ops[i]? = some op ∧ 2 ≤ op.at_.stage
  closers : ∀ i ∈ j.closers, ∃ op, j.manager.ops[i]? = some op ∧ op.task.target ≠ some .webrtc
  started : ∀ i ∈ j.started, ∃ op, j.manager.ops[i]? = some op ∧ op.task.target = some .webrtc

variable {j j' : Joint} {i : Nat} {op : Op} {outcome : Outcome} {m₁ m' : Manager}

theorem kept_init : Kept {} := ⟨Manager.formed_init, nofun, nofun, nofun, nofun⟩

theorem Kept.spares (h : Kept j) : ∀ i ∈ j.closers, i ∉ j.started := by
  intro i hc hs
  obtain ⟨op, hop, hne⟩ := h.closers i hc
  obtain ⟨op', hop', heq⟩ := h.started i hs
  obtain rfl := Option.some.inj (hop.symm.trans hop')
  exact hne heq

theorem relies_of_holds (hop : j.manager.ops[i]? = some op) (h : j.holds i op = true) :
    j.relies = true := by
  have mem : j.holds i op ∈ j.manager.ops.mapIdx fun i op => j.holds i op :=
    List.mem_of_getElem? (i := i) (by simp [hop])
  exact List.any_eq_true.mpr ⟨_, mem, h⟩

/-- The link that a step finds is open after it. -/
theorem Kept.open_of_linked (h : Kept j) (hop : j.manager.ops[i]? = some op)
    (target : op.task.target = some .usb) (answers : j.answers (.settle i outcome) = true)
    (linked : Manager.Linked j.manager op outcome m₁) :
    m₁.usb.device = true ∨ j.offscreen.usbDevice = true := by
  cases linked with
  | ready ha => exact .inl (h.formed.ready op (List.mem_of_getElem? hop) ha).1
  | opened =>
    by_cases hd : j.manager.usb.device = true <;>
      simp [Manager.openUsb, UsbTransport.connect, hd]
  | relayed ha =>
    have opened : i ∈ j.opened := of_decide_eq_true answers
    have holds : j.holds i op = true := by simp [Joint.holds, target, ha, opened]
    have device := h.linked i op hop holds
    rw [linkOpen, Bool.or_eq_true] at device
    exact device.imp_left fun hd => by simp [UsbTransport.connect, hd]

/-- What a step of the manager keeps, when what relies on a USB device still has one.  Call `k` is
the one that takes the step, if there is one. -/
theorem Kept.carry (h : Kept j) {P : Op → Prop} {k : Option Nat} (formed : Manager.Formed m')
    (carries : Manager.Carries P j.manager m' k)
    (stays : ∀ op, P op → op.task.target = some .usb → op.at_ ≠ .messaging .webrtc)
    (moves : ∀ i, k = some i → ∃ op op' outcome, j.manager.ops[i]? = some op ∧
      m'.ops[i]? = some op' ∧ op'.task.target = op.task.target ∧
      j.answers (.settle i outcome) = true ∧ Manager.GoesTo j.manager op outcome m' op'.at_)
    (device : j.relies = true → j.manager.usb.device = true →
      m'.usb.device = true ∨ j.offscreen.usbDevice = true) : Kept { j with manager := m' } := by
  refine ⟨formed, ?_, ?_, ?_, ?_⟩
  · intro i op' hop' holds
    have target : op'.task.target = some .usb := by
      simp only [Joint.holds, Bool.and_eq_true, decide_eq_true_eq] at holds
      exact holds.1
    have await : op'.at_ = .messaging .webrtc ∨ op'.at_ = .usbRelaying ∧ i ∈ j.opened := by
      simpa [Joint.holds, target] using holds
    have opens : m'.usb.device = true ∨ j.offscreen.usbDevice = true → linkOpen
        { j with manager := m' } i .usb = true := by simp [linkOpen]
    by_cases hi : i < j.manager.ops.length
    · obtain ⟨op, hop⟩ : ∃ op, j.manager.ops[i]? = some op := ⟨_, List.getElem?_eq_getElem hi⟩
      by_cases hk : k = some i
      · -- the call itself: it has just got its link, or has not been answered by the document yet
        obtain ⟨op₁, op₂, outcome, hop₁, hop₂, ht, answers, goes⟩ := moves i hk
        obtain rfl := Option.some.inj (hop'.symm.trans hop₂)
        obtain ended | ⟨m₁, linked, usb, -⟩ | ⟨connecting, order⟩ := goes
        · simp [ended] at await
        · exact opens (usb ▸ h.open_of_linked hop₁ (ht.symm.trans target) answers linked)
        · obtain ha | ⟨ha, opened⟩ := await
          · rw [ha] at connecting
            cases connecting
          · obtain ⟨op₃, hop₃, later⟩ := h.later i opened
            obtain rfl := Option.some.inj (hop₁.symm.trans hop₃)
            rw [ha, show Await.stage .usbRelaying = 2 from rfl] at order
            omega
      · obtain ⟨op₂, hop₂, root, ha⟩ := carries.keeps i op hop
        obtain rfl := Option.some.inj (hop'.symm.trans hop₂)
        have ht := Task.target_of_root root
        have holds : j.holds i op = true := by
          simpa [Joint.holds, ht, ha hk] using holds
        have open_ := h.linked i op hop holds
        rw [linkOpen, Bool.or_eq_true] at open_
        rcases open_ with own | offscreen
        · exact opens (device (relies_of_holds hop holds) own)
        · exact opens (.inr offscreen)
    · obtain ha | ⟨-, opened⟩ := await
      · exact absurd ha (stays op' (carries.fresh i op' hop' (by omega)) target)
      · obtain ⟨op, hop, -⟩ := h.later i opened
        exact absurd (List.getElem?_eq_some_iff.mp hop).1 hi
  · intro i hi
    obtain ⟨op, hop, later⟩ := h.later i hi
    obtain ⟨op', hop', -, ha⟩ := carries.keeps i op hop
    refine ⟨op', hop', ?_⟩
    by_cases hk : k = some i
    · obtain ⟨op₁, op₂, outcome, hop₁, hop₂, -, -, goes⟩ := moves i hk
      obtain rfl := Option.some.inj (hop'.symm.trans hop₂)
      obtain rfl := Option.some.inj (hop.symm.trans hop₁)
      obtain ended | ⟨-, -, -, messaging⟩ | ⟨-, order⟩ := goes
      · simp [ended, Await.stage]
      · simp [messaging, Await.stage]
      · omega
    · rw [ha hk]
      exact later
  · intro i hi
    obtain ⟨op, hop, hne⟩ := h.closers i hi
    obtain ⟨op', hop', root, -⟩ := carries.keeps i op hop
    exact ⟨op', hop', Task.target_of_root root ▸ hne⟩
  · intro i hi
    obtain ⟨op, hop, heq⟩ := h.started i hi
    obtain ⟨op', hop', root, -⟩ := carries.keeps i op hop
    exact ⟨op', hop', (Task.target_of_root root).trans heq⟩

/-- A USB disconnect starts a switch to WebRTC, if it starts one. -/
theorem Kept.start (h : Kept { j with manager := m' }) (hs : j.manager.step .usbReadError = some m')
    (hlen : j.manager.ops.length < m'.ops.length) :
    Kept { j with manager := m', started := j.manager.ops.length :: j.started } := by
  have started : ∃ op, m'.ops[j.manager.ops.length]? = some op ∧ op.task.target = some .webrtc := by
    rw [Manager.step] at hs
    split at hs
    next =>
      obtain rfl := Option.some.inj hs
      rw [Manager.usbReadError] at hlen ⊢
      split at hlen
      next active =>
        rw [if_pos active]
        cases hp : j.manager.cleanupUsb.switchPromise with
        | some i =>
          rw [Manager.switchTransport_joins hp, List.length_modify] at hlen
          exact absurd hlen (Nat.lt_irrefl _)
        | none =>
          obtain ⟨m₁, a, starts, eq⟩ := Manager.switchTransport_starts hp .webrtc false
          rw [eq]
          refine ⟨⟨.doSwitch .webrtc j.manager.activeTransport [.webrtc] false, a⟩, ?_, rfl⟩
          simp only [Manager.start, starts.frame.ops]
          exact Tasks.append_self _ _
      next => exact absurd hlen (Nat.lt_irrefl _)
    next => cases hs
  refine ⟨h.formed, h.linked, h.later, h.closers, ?_⟩
  intro i hi
  rcases List.mem_cons.mp hi with rfl | hi
  · exact started
  · exact h.started i hi

theorem Kept.manager {event : ManagerEvent} (h : Kept j) (careful : j.Careful (.manager event))
    (answers : j.answers event = true) (hs : j.manager.step event = some m') :
    Kept { j with manager := m' } := by
  have formed := h.formed.step hs
  by_cases he : ∃ i outcome, event = .settle i outcome
  · obtain ⟨i, outcome, rfl⟩ := he
    obtain ⟨op, hop, -, -, hs⟩ := Manager.settle_of_step hs
    have turn := Manager.turn_of_settle (h.formed.sited op (List.mem_of_getElem? hop)) hs
    obtain ⟨carries, op', hop', target, goes⟩ := turn.carries hop
    refine h.carry formed carries (fun _ light => light.stays) (?_)
      ?_
    · intro k hk
      obtain rfl := Option.some.inj hk
      exact ⟨op, op', outcome, hop, hop', target, answers, goes⟩
    · intro relies device
      exact (turn.device device).imp_right fun ha => careful op hop ha relies
  · obtain ⟨carries, device⟩ := Manager.carries_step hs fun i outcome h => he ⟨i, outcome, h⟩
    apply h.carry formed carries (fun _ made => made.stays) nofun
    intro relies own
    by_cases herr : event = .usbReadError
    · subst herr
      exact .inr (careful relies)
    · exact .inl (device own herr)

theorem Kept.handle {opened : Bool} (h : Kept j) (careful : j.Careful (.handle i opened))
    (hop : j.manager.ops[i]? = some op) (hs : j.handle i opened op.at_ = some j') : Kept j' := by
  have asks (ha : op.at_ = .usbRelaying) (hs : j.handle i opened op.at_ = some j') : Kept j' := by
    simp only [ha, Joint.handle] at hs
    split at hs
    · cases hs
    · obtain rfl := Option.some.inj hs
      refine ⟨h.formed, ?_, ?_, h.closers, h.started⟩
      · intro k op' hop' holds
        by_cases hj : j.holds k op' = true
        · have open_ := h.linked k op' hop' hj
          rw [linkOpen, Bool.or_eq_true] at open_
          rcases open_ with own | offscreen <;> simp [linkOpen, OffscreenLinks.connectWebUsb, *]
        · -- it has its link now, from this device
          have opens : opened = true := by
            by_contra ho
            exact hj (by simpa [Joint.holds, ho] using holds)
          simp [linkOpen, OffscreenLinks.connectWebUsb, opens]
      · intro k hk
        have hk : k = i ∨ k ∈ j.opened := by
          cases opened
          · exact .inr hk
          · exact List.mem_cons.mp hk
        rcases hk with rfl | hk
        · exact ⟨op, hop, by rw [ha]; exact Nat.le_refl 2⟩
        · exact h.later k hk
  have parts {t : TransportType} (ha : op.at_ = .messaging t)
      (hs : j.handle i opened op.at_ = some j') : Kept j' := by
    obtain ⟨pc, own⟩ := careful op hop (by rw [ha]; rfl)
    simp only [ha, Joint.handle] at hs
    split at hs
    · cases hs
    · obtain rfl := Option.some.inj hs
      refine ⟨h.formed, ?_, h.later, ?_, h.started⟩
      · intro k op' hop' holds
        simp [linkOpen, own (relies_of_holds hop' holds)]
      · intro k hk
        cases hpc : j.offscreen.pc with
        | false => exact h.closers k (by simpa [hpc] using hk)
        | true =>
          obtain rfl | hk := List.mem_cons.mp (show k ∈ i :: j.closers by simpa [hpc] using hk)
          · exact ⟨op, hop, fun ht => nomatch (pc ht).symm.trans hpc⟩
          · exact h.closers k hk
  cases ha : op.at_ with
  | usbRelaying => exact asks ha hs
  | messaging t => exact parts ha hs
  | _ => simp [ha, Joint.handle] at hs

theorem Kept.step {e : JointEvent} (h : Kept j) (careful : j.Careful e) (hs : j.step e = some j') :
    Kept j' := by
  cases e with
  | manager event =>
    rw [Joint.step] at hs
    split at hs
    next answers =>
      obtain ⟨m', hm, rfl⟩ := Option.map_eq_some_iff.mp hs
      have kept := h.manager careful answers hm
      split
      next started =>
        obtain ⟨rfl, hlen⟩ := started
        exact kept.start hm hlen
      next => exact kept
    next => cases hs
  | handle i opened =>
    obtain ⟨op, hop, hs⟩ := Option.bind_eq_some_iff.mp hs
    exact h.handle careful hop hs
  | detached =>
    obtain rfl := Option.some.inj hs
    refine ⟨h.formed, ?_, h.later, h.closers, h.started⟩
    intro i op hop holds
    have own := careful (relies_of_holds hop holds)
    simp [linkOpen, own]
  | peerConnection pc =>
    obtain rfl := Option.some.inj hs
    exact ⟨h.formed, h.linked, h.later, h.closers, h.started⟩

/-- A switch to USB that succeeds has just found its link, or has it since it found it. -/
theorem link_of_succeeds {m : Manager} (turn : m.Turn i op outcome m')
    (target : op.task.target = some .usb) (succeeds : op.succeeds outcome = true) :
    (∃ m₁, m.Linked op outcome m₁ ∧ m'.usb.device = m₁.usb.device) ∨
      op.at_ = .messaging .webrtc ∧ m'.usb.device = m.usb.device := by
  cases turn with
  | @goesOn _ m₁ a frame webrtc usb order pending connecting sited ready =>
    cases pending.symm.trans succeeds
  | found task | polled task | destroyed task => simp [task, Task.target] at target
  | parts _ current linked =>
    rw [linked.succeeds target, current] at succeeds
    cases succeeds
  | @usbUp _ m₁ _ current linked =>
    exact .inl ⟨m₁, linked, (Manager.ends_usbSwitched m₁ i target).1.device⟩
  | parted _ at_ =>
    refine .inr ⟨at_, (Manager.ends_usbSwitched _ i target).1.device.trans ?_⟩
    rw [at_]
    rfl
  | fails _ at_ =>
    obtain ⟨current, callers, clears, ht⟩ := Task.eq_of_target target
    obtain ⟨ha, rfl⟩ | ⟨ha, rfl⟩ | ⟨ha, rfl⟩ := at_ <;> simp [Op.succeeds, ht, ha] at succeeds
  | rejects target' => cases target.symm.trans target'
  | webrtcDone _ task =>
    obtain ⟨owner, ht⟩ | target' := task
    · simp [ht, Task.target] at target
    · cases target.symm.trans target'

theorem Kept.returnsOpen {e : JointEvent} (h : Kept j) (hs : j.step e = some j') :
    j.ReturnsOpen j' e := by
  unfold ReturnsOpen
  split
  next i outcome =>
    rw [Joint.step] at hs
    split at hs
    next answers =>
      obtain ⟨m', hm, rfl⟩ := Option.map_eq_some_iff.mp hs
      intro ⟨r, hr, htrue⟩ op hop target ht
      obtain ⟨op₁, hop₁, -, -, hm⟩ := Manager.settle_of_step hm
      obtain rfl := Option.some.inj (hop.symm.trans hop₁)
      have turn := Manager.turn_of_settle (h.formed.sited op (List.mem_of_getElem? hop)) hm
      have succeeds : op.succeeds outcome = true := by
        by_contra hlost
        obtain ⟨⟨new, resolved, hnew⟩, -⟩ := turn.outcomes.lost (by simpa using hlost)
        rw [resolved, List.drop_left] at hr
        cases (hnew r hr).symm.trans htrue
      cases target with
      | usb =>
        have holds (ha : op.at_ = .messaging .webrtc) : j.holds i op = true := by
          simp [Joint.holds, ha, show op.task.target = _ from ht]
        rw [linkOpen, Bool.or_eq_true]
        obtain ⟨m₁, linked, device⟩ | ⟨ha, device⟩ := link_of_succeeds turn ht succeeds
        · exact device ▸ h.open_of_linked hop ht answers linked
        · have open_ := h.linked i op hop (holds ha)
          rw [linkOpen, Bool.or_eq_true] at open_
          exact device ▸ open_
      | webrtc =>
        apply decide_eq_true
        intro hc
        obtain ⟨op₁, hop₁, hne⟩ := h.closers i hc
        obtain rfl := Option.some.inj (hop.symm.trans hop₁)
        exact hne ht
    next => cases hs
  next => trivial

/-- In a run in which no `webrtc-disconnect` and no detached device takes a link from under a
switch, a switch that returns `true` has its link open, and a USB disconnect alone closes no peer
connection. -/
theorem spares_of_careful {es : List JointEvent}
    (hcareful : Machine.Throughout Joint.step Careful {} es) :
    Machine.Throughout Joint.step Spares {} es :=
  hcareful.of_invariant kept_init (fun _ _ _ h careful hs => h.step careful hs)
    fun _ _ h careful _ hs => ⟨h.returnsOpen hs, (h.step careful hs).spares⟩

def connected : Settled := .ok (some { success := true, connectionState := some .connected })

/-- WebRTC is active over the peer connection of the document, and USB can be had. -/
def overWebRtc : List JointEvent :=
  [.peerConnection true, .manager .selectTransport, .manager (.settle 0 (.available true)),
   .manager (.settle 0 .notOpened), .manager (.settle 0 (.relayed false)),
   .manager (.settle 0 (.state connected false))]

/-- A switch to USB over a device of the background, and one back. -/
def overAndBack : List JointEvent :=
  overWebRtc ++ [.manager (.switchTransport .usb), .manager (.settle 1 (.opened true)),
    .handle 1 false, .manager (.settle 1 (.disconnected true)), .peerConnection true,
    .manager (.switchTransport .webrtc), .manager (.settle 2 .closed),
    .manager (.settle 2 (.state connected false))]

theorem overAndBack_spares : Machine.Throughout Joint.step Spares {} overAndBack ∧
    (Machine.exec Joint.step {} overAndBack).any (fun j => j.offscreen.pc &&
      j.manager.resolved = [⟨.usb, true, some .usb⟩, ⟨.webrtc, true, some .webrtc⟩]) = true :=
  ⟨spares_of_careful (by decide +kernel), by decide +kernel⟩

/-- A switch to USB over the document's device, which the `webrtc-disconnect` closes. -/
def overTheRelay : List JointEvent :=
  overWebRtc ++ [.manager (.switchTransport .usb), .manager (.settle 1 .notOpened),
    .handle 1 true, .manager (.settle 1 (.relayed true)), .handle 1 false,
    .manager (.settle 1 (.disconnected true))]

/-- USB is lost, and the switch to WebRTC closes the peer connection that it would go over to. -/
def usbLost : List JointEvent :=
  [.peerConnection true, .manager .selectTransport, .manager (.settle 0 (.available true)),
   .manager (.settle 0 (.opened true)), .manager .usbReadError, .handle 1 false]

/-- A switch to USB has its device in the document, and `destroy` closes that before it returns. -/
def destroyedUnderSwitch : List JointEvent :=
  [.manager .init, .manager (.settle 0 (.available true)), .manager (.settle 0 .notOpened),
   .handle 0 true, .manager (.settle 0 (.relayed true)), .manager (.switchTransport .usb),
   .manager (.settle 1 .notOpened), .handle 1 true, .manager .destroy, .handle 2 false,
   .manager (.settle 1 (.relayed true))]

/-- A USB disconnect closes a peer connection, and a switch to USB returns with no device.  Where
the state of the connection is answered, a switch returns without its link either way. -/
theorem failover_closes_its_link :
    ((∃ j, Machine.Run Joint.step {} usbLost j ∧ j.started = [1] ∧ j.closers = [1]) ∧
      ¬Machine.Throughout Joint.step Spares {} usbLost) ∧
    ((∃ j, Machine.Run Joint.step {} destroyedUnderSwitch j ∧
        j.manager.resolved = [⟨.usb, true, some .usb⟩] ∧ j.linkOpen 1 .usb = false) ∧
      ¬Machine.Throughout Joint.step Spares {} destroyedUnderSwitch) ∧
    (∃ j, Machine.Run Joint.step {} overTheRelay j ∧
      j.manager.resolved = [⟨.usb, true, some .usb⟩] ∧ j.linkOpen 1 .usb = false) ∧
    ∃ j, Machine.Run Joint.step {} (usbLost ++ [.manager (.settle 1 (.disconnected true)),
        .manager (.settle 1 (.state connected false))]) j ∧
      j.manager.resolved = [⟨.webrtc, true, some .webrtc⟩] ∧ j.linkOpen 1 .webrtc = false := by
  have closes {es : List JointEvent} (target : TransportType)
      (h : (Machine.exec Joint.step {} es).any (fun j =>
        j.manager.resolved = [⟨target, true, some target⟩] && !j.linkOpen 1 target) = true) :
      ∃ j, Machine.Run Joint.step {} es j ∧
        j.manager.resolved = [⟨target, true, some target⟩] ∧ j.linkOpen 1 target = false := by
    obtain ⟨j, run, hj⟩ := Machine.exists_run_with h
    simp only [Bool.and_eq_true, decide_eq_true_eq, Bool.not_eq_true'] at hj
    exact ⟨j, run, hj⟩
  have lost : (Machine.exec Joint.step {} usbLost).any (fun j =>
      j.started = [1] && j.closers = [1]) = true := by decide +kernel
  obtain ⟨j, run, hj⟩ := Machine.exists_run_with lost
  simp only [Bool.and_eq_true, decide_eq_true_eq] at hj
  exact ⟨⟨⟨j, run, hj⟩, by decide +kernel⟩, ⟨closes .usb (by decide +kernel), by decide +kernel⟩,
    closes .usb (by decide +kernel), closes .webrtc (by decide +kernel)⟩

end Joint

end SmartIdVault.Transport
