import SmartIdVault.Transport.Timers

/-! `messageHandlers.ts`: the transport manager of the background, which
`initializeTransportManager` makes and the handlers of `switch-device` and `revoke-device` destroy.
A manager that has been destroyed, and one that a handler has forgotten, go on with the calls they
have in flight. -/

namespace SmartIdVault.Transport

/-- `switch-device`, for a device with a static key or without one, and `revoke-device`, for the
active device or for another. -/
inductive Request where
  | switchDevice (hasKey : Bool)
  | revokeDevice (active : Bool)
  deriving DecidableEq, Repr

/-- Where a handler is: before it looks at `transportManager`; at the `destroy` of a manager, which
is call `op` of it; before it goes on with the device that is active now; or at its end. -/
inductive Stage where
  | looking
  | destroying (manager op : Nat)
  | setting
  | ended
  deriving DecidableEq, Repr

structure Handler where
  request : Request
  stage : Stage := .looking
  deriving DecidableEq, Repr

/-- The handler destroys the manager, if there is one. -/
def Request.tearsDown : Request → Bool
  | .switchDevice _ => true
  | .revokeDevice active => active

/-- Where the handler goes on after that. -/
def Request.next : Request → Stage
  | .switchDevice _ => .setting
  | .revokeDevice _ => .ended

/-- All managers there have been, `transportManager` and `transportManagerInitPromise`, which name
one of them, and the handlers.  `waiting` has, for each pending call of
`initializeTransportManager`, the manager whose promise it waits for, and `resolved`, for each one
that has resolved, whether `initialize()` of the manager then in `transportManager` had settled. -/
structure MessageHandlers where
  managers : List Manager := []
  transportManager : Option Nat := none
  transportManagerInitPromise : Option Nat := none
  handlers : List Handler := []
  waiting : List Nat := []
  resolved : List Bool := []

/-- A call of `initializeTransportManager`; a request arrives; handler `h` goes on, or ends because
the device registry throws or has no such device; a step of manager `k`. -/
inductive HandlerEvent where
  | initializeTransportManager
  | request (request : Request)
  | proceed (h : Nat)
  | abandon (h : Nat)
  | manager (k : Nat) (event : ManagerEvent)
  deriving DecidableEq

namespace MessageHandlers

/-- `initialize()` of the manager in `transportManager`, if there is one, has settled. -/
def settled (s : MessageHandlers) : Bool :=
  match s.transportManager with
  | none => true
  | some k => s.managers[k]?.all fun m => !m.connecting

def initializeTransportManager (s : MessageHandlers) : MessageHandlers :=
  match s.transportManagerInitPromise, s.transportManager with
  | some k, _ => { s with waiting := k :: s.waiting }
  | none, some _ => { s with resolved := s.settled :: s.resolved }
  | none, none =>
    let k := s.managers.length
    { s with
      managers := s.managers ++ [({} : Manager).initManager]
      transportManager := some k
      transportManagerInitPromise := some k
      waiting := k :: s.waiting }

/-- `initialize()` of manager `k` has settled: the `finally` of its promise, and those who wait. -/
def initialized (s : MessageHandlers) (k : Nat) : MessageHandlers :=
  { s with
    transportManagerInitPromise := none
    waiting := s.waiting.filter (· ≠ k)
    resolved := List.replicate (s.waiting.count k) s.settled ++ s.resolved }

def setStage (s : MessageHandlers) (h : Nat) (handler : Handler) (stage : Stage) :
    MessageHandlers :=
  { s with handlers := s.handlers.set h { handler with stage } }

/-- Handler `h` goes on. -/
def proceed (s : MessageHandlers) (h : Nat) (handler : Handler) : Option MessageHandlers :=
  match handler.stage with
  | .looking =>
    match s.transportManager with
    | some k =>
      if handler.request.tearsDown then
        s.managers[k]?.map fun m =>
          { s with managers := s.managers.set k m.destroy }.setStage h handler
            (.destroying k m.ops.length)
      else some (s.setStage h handler handler.request.next)
    | none => some (s.setStage h handler handler.request.next)
  | .destroying k op =>
    if (s.managers[k]?.bind fun m => m.ops[op]?).any (·.at_ = .ended) then
      some ({ s with
        transportManager := none
        transportManagerInitPromise := none }.setStage h handler handler.request.next)
    else none
  | .setting =>
    let s := s.setStage h handler .ended
    some (if handler.request = .switchDevice true then s.initializeTransportManager else s)
  | .ended => none

/-- What can happen to manager `k`: its awaits settle, and its timer, the USB transport and the
offscreen document come in, at any time; its methods are called while it is in `transportManager`.
-/
def accepts (s : MessageHandlers) (k : Nat) : ManagerEvent → Bool
  | .init | .destroy => false
  | .selectTransport | .switchTransport _ | .onMessage _ => s.transportManager = some k
  | .pollTick | .settle .. | .usbReadError | .webrtcDisconnected => true

def step (s : MessageHandlers) : HandlerEvent → Option MessageHandlers
  | .initializeTransportManager => some s.initializeTransportManager
  | .request request => some { s with handlers := s.handlers ++ [{ request }] }
  | .proceed h => s.handlers[h]?.bind fun handler => s.proceed h handler
  | .abandon h => s.handlers[h]?.bind fun handler =>
    if handler.stage = .looking ∨ handler.stage = .setting then
      some (s.setStage h handler .ended)
    else none
  | .manager k event =>
    if s.accepts k event then
      s.managers[k]?.bind fun m => (m.step event).map fun m' =>
        let s := { s with managers := s.managers.set k m' }
        if m.connecting && !m'.connecting then s.initialized k else s
    else none

end MessageHandlers

namespace Manager

/-- `destroy()` has been called and has ended. -/
def gone (m : Manager) : Bool := m.ops.any fun op => op.task = .destroy && op.at_ = .ended

/-- It has a running poll timer or an active transport. -/
def running (m : Manager) : Bool := 0 < m.intervals || m.activeTransport.isSome

end Manager

namespace MessageHandlers

/-- A call of `initializeTransportManager` has resolved only when `initialize()` of the manager then
in `transportManager` had settled; at most one manager that has not been destroyed is running; and
one whose `destroy()` has ended is not running. -/
structure Proper (s : MessageHandlers) : Prop where
  settled : ∀ b ∈ s.resolved, b = true
  one : ∀ (k k' : Nat) (m m' : Manager), s.managers[k]? = some m → s.managers[k']? = some m' →
    m.destroyed = false → m'.destroyed = false → m.running = true → m'.running = true → k = k'
  stopped : ∀ m ∈ s.managers, m.gone = true → m.running = false

/-- When the handler goes on, it destroys a manager that has no active transport and no call in
flight, or forgets no other manager than the one it has destroyed. -/
def OrderlyAt (s : MessageHandlers) (handler : Handler) : Prop :=
  match handler.stage with
  | .looking => handler.request.tearsDown = true → ∀ k ∈ s.transportManager,
      ∀ m ∈ s.managers[k]?, m.Idle ∧ m.activeTransport = none
  | .destroying k _ => ∀ k' ∈ s.transportManager, k' = k
  | .setting | .ended => True

instance (s : MessageHandlers) : ∀ handler, Decidable (s.OrderlyAt handler)
  | ⟨_, .looking⟩ =>
    inferInstanceAs (Decidable (_ → ∀ k ∈ s.transportManager, ∀ m ∈ s.managers[k]?, m.Idle ∧ _))
  | ⟨_, .destroying ..⟩ => inferInstanceAs (Decidable (∀ k ∈ s.transportManager, _))
  | ⟨_, .setting⟩ | ⟨_, .ended⟩ => isTrue trivial

/-- Handlers go on in that way, and a destroyed manager is not asked for a transport. -/
def Orderly (s : MessageHandlers) : HandlerEvent → Prop
  | .proceed h => ∀ handler ∈ s.handlers[h]?, s.OrderlyAt handler
  | .manager k event => ∀ m ∈ s.managers[k]?, m.destroyed = true → event.asks = false
  | _ => True

instance (s : MessageHandlers) : ∀ e, Decidable (s.Orderly e)
  | .proceed h => inferInstanceAs (Decidable (∀ handler ∈ s.handlers[h]?, s.OrderlyAt handler))
  | .manager k _ => inferInstanceAs (Decidable (∀ m ∈ s.managers[k]?, _))
  | .initializeTransportManager | .request _ | .abandon _ => isTrue trivial

end MessageHandlers

namespace MessageHandlers

variable {s s' : MessageHandlers} {handler : Handler} {i k : Nat}

/-- A manager that has not been destroyed is in `transportManager`, and one whose `initialize()` is
under way has the promise. -/
structure Kept (s : MessageHandlers) : Prop where
  single : ∀ m ∈ s.managers, m.Single
  current : ∀ (k : Nat) (m : Manager), s.managers[k]? = some m → m.destroyed = false →
    s.transportManager = some k
  pending : ∀ (k : Nat) (m : Manager), s.managers[k]? = some m → m.connecting = true →
    s.transportManagerInitPromise = some k
  handlers : ∀ handler ∈ s.handlers, ∀ k op, handler.stage = .destroying k op →
    ∃ m, s.managers[k]? = some m ∧ m.destroyed = true
  resolved : ∀ b ∈ s.resolved, b = true

theorem kept_init : Kept {} where
  single _ hm := absurd hm List.not_mem_nil
  current _ _ hk := by simp at hk
  pending _ _ hk := by simp at hk
  handlers _ hh := absurd hh List.not_mem_nil
  resolved _ hb := absurd hb List.not_mem_nil

theorem Kept.single_get (h : Kept s) {m : Manager} (hk : s.managers[k]? = some m) : m.Single :=
  h.single m (List.mem_of_getElem? hk)

theorem Kept.proper (h : Kept s) : s.Proper := by
  refine ⟨h.resolved, ?_, ?_⟩
  · intro k k' m m' hk hk' live live' _ _
    exact Option.some.inj ((h.current k m hk live).symm.trans (h.current k' m' hk' live'))
  · intro m hm gone
    have destroyed : m.destroyed = true := by
      obtain ⟨op, hop, task⟩ := List.any_eq_true.mp gone
      exact List.any_eq_true.mpr ⟨op, hop, (Bool.and_eq_true_iff.mp task).1⟩
    obtain ⟨-, active, intervals⟩ := (h.single m hm).gone destroyed
    simp [Manager.running, active, intervals]

/-- When no promise is there, `initialize()` of every manager has settled. -/
theorem Kept.settled (h : Kept s) (none : s.transportManagerInitPromise = none) :
    s.settled = true := by
  unfold MessageHandlers.settled
  split
  · rfl
  next k _ =>
    rw [Option.all_eq_true]
    intro m hk
    rw [Bool.not_eq_true', ← Bool.not_eq_true]
    intro connecting
    cases none.symm.trans (h.pending k m hk connecting)

theorem Kept.initializeTransportManager (h : Kept s) : Kept s.initializeTransportManager := by
  unfold MessageHandlers.initializeTransportManager
  split
  · exact ⟨h.single, h.current, h.pending, h.handlers, h.resolved⟩
  next none _ =>
    refine ⟨h.single, h.current, h.pending, h.handlers, ?_⟩
    intro b hb
    obtain rfl | hb := List.mem_cons.mp hb
    · exact h.settled none
    · exact h.resolved b hb
  next none absent =>
    refine ⟨?_, ?_, ?_,
      ?_, h.resolved⟩
    · intro m hm
      obtain hm | hm := List.mem_append.mp hm
      · exact h.single m hm
      · exact List.mem_singleton.mp hm ▸ Manager.single_init
    · intro k m hk live
      obtain hk | ⟨rfl, -⟩ := Tasks.get_append hk
      · cases absent.symm.trans (h.current k m hk live)
      · rfl
    · intro k m hk connecting
      obtain hk | ⟨rfl, -⟩ := Tasks.get_append hk
      · cases none.symm.trans (h.pending k m hk connecting)
      · rfl
    · intro handler hh k op hs
      obtain ⟨m, hk, destroyed⟩ := h.handlers handler hh k op hs
      exact ⟨m, Tasks.get_append_of_get hk _, destroyed⟩

/-- A handler goes on to a stage that is not the destruction of a manager. -/
theorem Kept.setStage (h : Kept s) (i : Nat) (handler : Handler) {stage : Stage}
    (other : ∀ k op, stage ≠ .destroying k op) : Kept (s.setStage i handler stage) := by
  refine ⟨h.single, h.current, h.pending, ?_, h.resolved⟩
  intro handler' hh k op hs
  obtain hh | rfl := List.mem_or_eq_of_mem_set hh
  · exact h.handlers handler' hh k op hs
  · exact absurd hs (other k op)

/-- A manager is replaced by what it is after a step, in which `initialize()` has not begun. -/
theorem Kept.replace (h : Kept s) {m m' : Manager} (hk : s.managers[k]? = some m)
    (single : m'.Single) (live : m'.destroyed = false → m.destroyed = false)
    (destroyed : m.destroyed = true → m'.destroyed = true)
    (connecting : m'.connecting = true → m.connecting = true) :
    Kept { s with managers := s.managers.set k m' } := by
  refine ⟨?_, ?_, ?_,
    ?_, h.resolved⟩
  · intro m₁ hm
    obtain rfl | ⟨j, -, hj⟩ := Tasks.mem_set hm
    · exact single
    · exact h.single_get hj
  · intro j m₁ hj live₁
    obtain ⟨rfl, rfl⟩ | ⟨-, hj⟩ := Tasks.get_set hj
    · exact h.current j m hk (live live₁)
    · exact h.current j m₁ hj live₁
  · intro j m₁ hj connecting₁
    obtain ⟨rfl, rfl⟩ | ⟨-, hj⟩ := Tasks.get_set hj
    · exact h.pending j m hk (connecting connecting₁)
    · exact h.pending j m₁ hj connecting₁
  · intro handler hh j op hs
    obtain ⟨m₁, hj, gone⟩ := h.handlers handler hh j op hs
    by_cases hjk : j = k
    · subst hjk
      obtain rfl := Option.some.inj (hk.symm.trans hj)
      exact ⟨m', Tasks.set_self hk m', destroyed gone⟩
    · exact ⟨m₁, Tasks.get_set_of_ne hjk hj, gone⟩

/-- When every manager has been destroyed, `transportManager` and its promise can be forgotten. -/
theorem Kept.forget (h : Kept s) (all : ∀ m ∈ s.managers, m.destroyed = true) :
    Kept { s with transportManager := none, transportManagerInitPromise := none } := by
  refine ⟨h.single, ?_, ?_, h.handlers, h.resolved⟩
  · intro k m hk live
    cases (all m (List.mem_of_getElem? hk)).symm.trans live
  · intro k m hk connecting
    have single := h.single_get hk
    obtain ⟨idle, -, -⟩ := single.gone (all m (List.mem_of_getElem? hk))
    cases (single.idle idle).symm.trans connecting

theorem Kept.proceed (h : Kept s) (hi : s.handlers[i]? = some handler)
    (orderly : s.OrderlyAt handler) (hs : s.proceed i handler = some s') : Kept s' := by
  have next : ∀ k op, handler.request.next ≠ .destroying k op := by
    intro k op
    cases handler.request <;> nofun
  unfold MessageHandlers.proceed at hs
  unfold OrderlyAt at orderly
  split at hs
  next looking =>
    rw [looking] at orderly
    split at hs
    next k current =>
      split at hs
      next tearsDown =>
        obtain ⟨m, hk, rfl⟩ := Option.map_eq_some_iff.mp hs
        obtain ⟨idle, active⟩ := orderly tearsDown k current m hk
        obtain ⟨single, destroyed, settled⟩ := (h.single_get hk).destroy idle active
        have h := h.replace hk single (fun live => by cases destroyed.symm.trans live)
          (fun _ => destroyed) (fun connecting => by cases settled.symm.trans connecting)
        refine ⟨h.single, h.current, h.pending, ?_, h.resolved⟩
        intro handler' hh j op hs
        obtain hh | rfl := List.mem_or_eq_of_mem_set hh
        · exact h.handlers handler' hh j op hs
        · obtain ⟨rfl, rfl⟩ := Stage.destroying.inj hs
          exact ⟨m.destroy, Tasks.set_self hk _, destroyed⟩
      next =>
        obtain rfl := Option.some.inj hs
        exact h.setStage i handler next
    next =>
      obtain rfl := Option.some.inj hs
      exact h.setStage i handler next
  next k op destroying =>
    rw [destroying] at orderly
    split at hs
    next =>
      obtain rfl := Option.some.inj hs
      refine Kept.setStage (h.forget ?_) i handler next
      intro m hm
      obtain ⟨j, hj⟩ := List.mem_iff_getElem?.mp hm
      rw [← Bool.not_eq_false]
      intro live
      obtain rfl := orderly j (h.current j m hj live)
      obtain ⟨m₁, hj₁, destroyed⟩ := h.handlers handler (List.mem_of_getElem? hi) j op destroying
      obtain rfl := Option.some.inj (hj.symm.trans hj₁)
      cases destroyed.symm.trans live
    next => cases hs
  next =>
    obtain rfl := Option.some.inj hs
    have h : Kept (s.setStage i handler .ended) := h.setStage i handler nofun
    split
    · exact h.initializeTransportManager
    · exact h
  next => cases hs

theorem accepts_ne {e : ManagerEvent} (h : s.accepts k e = true) : e ≠ .init ∧ e ≠ .destroy := by
  constructor <;> rintro rfl <;> cases h

theorem Kept.manager (h : Kept s) {e : ManagerEvent} {m m' : Manager}
    (hk : s.managers[k]? = some m) (accepts : s.accepts k e = true)
    (orderly : m.destroyed = true → e.asks = false) (hm : m.step e = some m') :
    Kept (let s := { s with managers := s.managers.set k m' }
      if m.connecting && !m'.connecting then s.initialized k else s) := by
  obtain ⟨hinit, hdestroy⟩ := accepts_ne accepts
  obtain ⟨single, destroyed, connecting⟩ := (h.single_get hk).step hinit hdestroy orderly hm
  have h' := h.replace hk single (fun live => destroyed ▸ live) (fun gone => destroyed ▸ gone)
    connecting
  dsimp only
  split
  next settles =>
    rw [Bool.and_eq_true, Bool.not_eq_true'] at settles
    have promise := h.pending k m hk settles.1
    have none : ∀ (j : Nat) (m₁ : Manager), (s.managers.set k m')[j]? = some m₁ →
        m₁.connecting = false := by
      intro j m₁ hj
      rw [← Bool.not_eq_true]
      intro connecting₁
      obtain rfl := Option.some.inj (promise.symm.trans (h'.pending j m₁ hj connecting₁))
      obtain rfl := Option.some.inj ((Tasks.set_self hk m').symm.trans hj)
      cases settles.2.symm.trans connecting₁
    have forgotten : Kept { s with
        managers := s.managers.set k m'
        transportManagerInitPromise := Option.none } :=
      ⟨h'.single, h'.current, fun j m₁ hj connecting₁ =>
        absurd ((none j m₁ hj).symm.trans connecting₁) nofun, h'.handlers, h'.resolved⟩
    refine ⟨forgotten.single, forgotten.current, forgotten.pending, forgotten.handlers,
      ?_⟩
    intro b hb
    obtain hb | hb := List.mem_append.mp hb
    · exact (List.eq_of_mem_replicate hb).trans (forgotten.settled rfl)
    · exact h.resolved b hb
  · exact h'

theorem Kept.step {e : HandlerEvent} (h : Kept s) (orderly : s.Orderly e)
    (hs : s.step e = some s') : Kept s' := by
  cases e with
  | initializeTransportManager =>
    obtain rfl := Option.some.inj hs
    exact h.initializeTransportManager
  | request request =>
    obtain rfl := Option.some.inj hs
    refine ⟨h.single, h.current, h.pending, ?_, h.resolved⟩
    intro handler hh k op destroying
    obtain hh | hh := List.mem_append.mp hh
    · exact h.handlers handler hh k op destroying
    · rw [List.mem_singleton.mp hh] at destroying
      cases destroying
  | proceed i =>
    obtain ⟨handler, hi, hs⟩ := Option.bind_eq_some_iff.mp hs
    exact h.proceed hi (orderly handler hi) hs
  | abandon i =>
    obtain ⟨handler, hi, hs⟩ := Option.bind_eq_some_iff.mp hs
    split at hs
    next =>
      obtain rfl := Option.some.inj hs
      exact h.setStage i handler nofun
    next => cases hs
  | manager k e =>
    rw [MessageHandlers.step] at hs
    split at hs
    next accepts =>
      obtain ⟨m, hk, hs⟩ := Option.bind_eq_some_iff.mp hs
      obtain ⟨m', hm, rfl⟩ := Option.map_eq_some_iff.mp hs
      exact h.manager hk accepts (orderly m hk) hm
    next => cases hs

/-- In a run in which handlers destroy a manager only when it has no active transport and no call in
flight, forget only the one they have destroyed, and nothing asks a destroyed manager for a
transport, the life of the managers is a proper one. -/
theorem proper_of_orderly {es : List HandlerEvent}
    (horderly : Machine.Throughout MessageHandlers.step Orderly {} es) :
    Machine.Everywhere MessageHandlers.step Proper {} es :=
  (Machine.everywhere_of_throughout kept_init horderly fun _ _ _ h orderly hs =>
    h.step orderly hs).mono fun _ h => h.proper

/-- `initialize()` of manager `k` finds no USB device, and WebRTC does not answer. -/
def initializesAlone (k : Nat) : List HandlerEvent :=
  [.manager k (.settle 0 (.available false)), .manager k (.settle 0 (.state (.ok none) false))]

/-- `initialize()` of manager `k` finds a USB device. -/
def initializesUsb (k : Nat) : List HandlerEvent :=
  [.manager k (.settle 0 (.available true)), .manager k (.settle 0 (.opened true))]

/-- A switch of devices at a manager that has found no transport. -/
def switchedAlone : List HandlerEvent :=
  .initializeTransportManager :: initializesAlone 0 ++
    [.request (.switchDevice true), .proceed 0, .proceed 0, .proceed 0] ++ initializesUsb 1

theorem switchedAlone_proper : Machine.Everywhere MessageHandlers.step Proper {} switchedAlone ∧
    (Machine.exec MessageHandlers.step {} switchedAlone).any (fun s =>
      s.resolved = [true, true] && s.managers.map (·.running) = [false, true]) = true :=
  ⟨proper_of_orderly (by decide +kernel), by decide +kernel⟩

/-- The device in use is revoked. -/
def destroyedInUse : List HandlerEvent :=
  .initializeTransportManager :: initializesUsb 0 ++
    [.request (.revokeDevice true), .proceed 0, .manager 0 (.settle 1 .closed), .proceed 0]

/-- A switch of devices while `initialize()` is under way, which then settles. -/
def destroyedMidway : List HandlerEvent :=
  [.initializeTransportManager, .request (.switchDevice true), .proceed 0, .proceed 0,
   .proceed 0] ++ initializesAlone 0 ++ [.initializeTransportManager]

/-- Two switches of devices that both wait for the destruction of the same manager. -/
def forgotten : List HandlerEvent :=
  .initializeTransportManager :: initializesUsb 0 ++
    [.request (.switchDevice true), .request (.switchDevice true), .proceed 0, .proceed 1,
     .manager 0 (.settle 1 .closed), .proceed 0, .proceed 0] ++ initializesAlone 1 ++
    [.manager 0 (.settle 2 .closed), .proceed 1, .proceed 1] ++ initializesAlone 2

/-- A destroyed manager keeps its transport; or its `initialize()` starts the timer and takes the
promise from the manager that has come after it; or the second of two handlers forgets that one. -/
theorem destroyed_manager_goes_on :
    (∃ s, Machine.Run MessageHandlers.step {} destroyedInUse s ∧
      s.managers.map (fun m => (m.gone, m.running)) = [(true, true)] ∧ ¬s.Proper) ∧
    (∃ s, Machine.Run MessageHandlers.step {} destroyedMidway s ∧
      s.managers.map (fun m => (m.gone, m.running)) = [(true, true), (false, false)] ∧
      false ∈ s.resolved ∧ ¬s.Proper) ∧
    (∃ s, Machine.Run MessageHandlers.step {} forgotten s ∧
      s.managers.map (fun m => (m.destroyed, m.running)) =
        [(true, true), (false, true), (false, true)] ∧ ¬s.Proper) := by
  refine ⟨?_, ?_, ?_⟩
  · obtain ⟨s, run, hs⟩ := Machine.exists_run_with
      (p := fun s => s.managers.map (fun m => (m.gone, m.running)) = [(true, true)])
      (show (Machine.exec MessageHandlers.step {} destroyedInUse).any _ = true by decide +kernel)
    have hs := of_decide_eq_true hs
    refine ⟨s, run, hs, ?_⟩
    intro proper
    obtain ⟨m, eq, hm⟩ := List.map_eq_singleton_iff.mp hs
    have stopped := proper.stopped m (by simp [eq])
    simp_all
  · obtain ⟨s, run, hs⟩ := Machine.exists_run_with
      (p := fun s => s.managers.map (fun m => (m.gone, m.running)) =
        [(true, true), (false, false)] ∧ false ∈ s.resolved)
      (show (Machine.exec MessageHandlers.step {} destroyedMidway).any _ = true by decide +kernel)
    obtain ⟨running, resolved⟩ := of_decide_eq_true hs
    exact ⟨s, run, running, resolved, fun proper => nomatch proper.settled false resolved⟩
  · obtain ⟨s, run, hs⟩ := Machine.exists_run_with
      (p := fun s => s.managers.map (fun m => (m.destroyed, m.running)) =
        [(true, true), (false, true), (false, true)])
      (show (Machine.exec MessageHandlers.step {} forgotten).any _ = true by decide +kernel)
    have hs := of_decide_eq_true hs
    refine ⟨s, run, hs, ?_⟩
    intro proper
    have live (k : Nat) (hk : ((s.managers.map fun m => (m.destroyed, m.running))[k]?) =
        some (false, true)) : ∃ m, s.managers[k]? = some m ∧ m.destroyed = false ∧
        m.running = true := by
      rw [List.getElem?_map] at hk
      obtain ⟨m, hm, eq⟩ := Option.map_eq_some_iff.mp hk
      exact ⟨m, hm, congrArg Prod.fst eq, congrArg Prod.snd eq⟩
    obtain ⟨m, hm, hl, hr⟩ := live 1 (by rw [hs]; rfl)
    obtain ⟨m', hm', hl', hr'⟩ := live 2 (by rw [hs]; rfl)
    cases proper.one 1 2 m m' hm hm' hl hl' hr hr'

end MessageHandlers

end SmartIdVault.Transport
