import SmartIdVault.DeviceRegistry.Restarts
import SmartIdVault.Lib.Tasks

/-! The calls of the registry as they interleave at their awaits of storage.  The mutators run one
after the other, in the order in which they have been called, but `reconcileDeviceRegistry` and the
readers load from storage whenever the cache is not there.  As long as no load is in flight while a
mutator writes, and no call finds the cache taken away when it goes on, what comes out is what the
mutators do one after the other. -/

namespace SmartIdVault.DeviceRegistry

/-- A call: of a mutator, of `reconcileDeviceRegistry`, or of a reader, which awaits `ensureLoaded`
and looks into the cached list, or only at the active id. -/
inductive Kind where
  | mutate (m : Mutation)
  | reconcile
  | read
  | readActive
  deriving DecidableEq

/-- Where a call stands: in the queue of the lock; at a read of session or local storage, with the
reply once storage has it; about to go on after `ensureLoaded`; at a write, which storage has made
or not; or at its end.  A `revokeDevice` at its first write has its list of devices, and the others
have what they persist. -/
inductive Pc where
  | queued
  | loadingSession (reply : Option (Option (List StoredDevice) × Option Utf16))
  | loadingLocal (reply : Option (Option (List DeviceMeta)))
  | loaded
  | writingPairing (devices : List DeviceRecord) (made : Bool)
  | writingSession (devices : List DeviceRecord) (activeId : Option Utf16) (made : Bool)
  | writingLocal (devices : List DeviceRecord) (activeId : Option Utf16) (made : Bool)
  | removingClient (devices : List DeviceRecord) (activeId : Option Utf16) (made : Bool)
  | finished (result : Except Failure Unit)
  deriving DecidableEq

namespace Pc

/-- A load from storage is in flight. -/
def loading : Pc → Bool
  | .loadingSession _ | .loadingLocal _ => true
  | _ => false

/-- A mutator is between its first write and its end. -/
def writing : Pc → Bool
  | .writingPairing .. | .writingSession .. | .writingLocal .. | .removingClient .. => true
  | _ => false

def ended : Pc → Bool
  | .finished _ => true
  | _ => false

/-- Past the queue, and not at its end. -/
def underWay : Pc → Bool
  | .queued | .finished _ => false
  | _ => true

def failed : Pc → Bool
  | .finished (.error _) => true
  | _ => false

end Pc

structure Call where
  kind : Kind
  pc : Pc
  deriving DecidableEq

/-- `queue` has the mutators that have not settled, in the order of their calls, and `settled` those
that have, with their results. -/
structure System where
  cache : Cache := {}
  storage : Storage := {}
  calls : List Call := []
  queue : List Nat := []
  settled : List (Mutation × Except Failure Unit) := []

/-- A call is made; the lock comes to call `i`; storage takes up the request of call `i`; its reply
reaches the call; the call goes on after `ensureLoaded`. -/
inductive SystemEvent where
  | call (kind : Kind)
  | begin (i : Nat)
  | serve (i : Nat)
  | reply (i : Nat)
  | resume (i : Nat)
  deriving DecidableEq

namespace System

def put (s : System) (i : Nat) (c : Call) (pc : Pc) : System :=
  { s with calls := s.calls.set i { c with pc } }

/-- A mutator settles and leaves the lock to the next one. -/
def settle (s : System) (i : Nat) (c : Call) (m : Mutation) (result : Except Failure Unit) :
    System :=
  { s.put i c (.finished result) with
    queue := s.queue.tail
    settled := s.settled ++ [(m, result)] }

/-- Call `i` after `ensureLoaded`. -/
def goOn (s : System) (i : Nat) (c : Call) : System :=
  match c.kind with
  | .reconcile | .readActive => s.put i c (.finished (.ok ()))
  | .read =>
    s.put i c (.finished (if s.cache.devices.isSome then .ok () else .error .nullCache))
  | .mutate m =>
    match s.cache.devices with
    | none => s.settle i c m (.error .nullCache)
    | some devices =>
      match m.plan devices s.cache.activeId with
      | .error failure => s.settle i c m (.error failure)
      | .ok none => s.settle i c m (.ok ())
      | .ok (some (newDevices, newActive)) =>
        match m with
        | .revokeDevice .. => s.put i c (.writingPairing devices false)
        | _ => s.put i c (.writingSession newDevices newActive false)

/-- `ensureLoaded`, in call `i`. -/
def ensureLoaded (s : System) (i : Nat) (c : Call) : System :=
  s.put i c (if s.cache.initialized then .loaded else .loadingSession none)

/-- The end of `loadFromStorage`, which is all that `reconcileDeviceRegistry` waits for. -/
def loadEnds (s : System) (i : Nat) (c : Call) (cache : Cache) : System :=
  put { s with cache } i c (if c.kind = .reconcile then .finished (.ok ()) else .loaded)

def call (s : System) (kind : Kind) : System :=
  let c : Call := { kind, pc := .queued }
  let i := s.calls.length
  match kind with
  | .mutate _ => { s with calls := s.calls ++ [c], queue := s.queue ++ [i] }
  | .reconcile => put { s with cache := {}, calls := s.calls ++ [c] } i c (.loadingSession none)
  | .read | .readActive => { s with calls := s.calls ++ [c] }.ensureLoaded i c

/-- Storage takes up the request of call `i`. -/
def serve (s : System) (i : Nat) (c : Call) : Option System :=
  match c.pc, c.kind with
  | .loadingSession none, _ =>
    some (s.put i c (.loadingSession (some (s.storage.sessionDevices, s.storage.sessionActive))))
  | .loadingLocal none, _ => some (s.put i c (.loadingLocal (some s.storage.localMetas)))
  | .writingPairing devices false, .mutate m =>
    some { s.put i c (.writingPairing devices true) with storage := m.writePairing s.storage }
  | .writingSession devices activeId false, .mutate _ =>
    some { s.put i c (.writingSession devices activeId true) with
      storage := persistSession s.storage devices activeId }
  | .writingLocal devices activeId false, .mutate _ =>
    some { s.put i c (.writingLocal devices activeId true) with
      storage := persistLocal s.storage devices }
  | .removingClient devices activeId false, .mutate m =>
    some { s.put i c (.removingClient devices activeId true) with
      storage := m.removeClient s.storage }
  | _, _ => none

/-- The end of a mutator that has persisted. -/
def complete (s : System) (i : Nat) (c : Call) (m : Mutation) (devices : List DeviceRecord)
    (activeId : Option Utf16) : System :=
  { s with cache := m.assign s.cache devices activeId }.settle i c m (.ok ())

/-- The reply of storage reaches call `i`. -/
def reply (s : System) (i : Nat) (c : Call) : Option System :=
  match c.pc, c.kind with
  | .loadingSession (some (raw, activeId)), _ =>
    match ofSession raw activeId with
    | some cache => some (s.loadEnds i c cache)
    | none => some (s.put i c (.loadingLocal none))
  | .loadingLocal (some metas), _ => some (s.loadEnds i c (ofLocal metas))
  | .writingPairing devices true, .mutate m =>
    match m.plan devices s.cache.activeId with
    | .ok (some (newDevices, newActive)) =>
      some (s.put i c (.writingSession newDevices newActive false))
    | _ => none
  | .writingSession devices activeId true, .mutate _ =>
    some (s.put i c (.writingLocal devices activeId false))
  | .writingLocal devices activeId true, .mutate m =>
    match m with
    | .revokeDevice .. => some (s.put i c (.removingClient devices activeId false))
    | _ => some (s.complete i c m devices activeId)
  | .removingClient devices activeId true, .mutate m => some (s.complete i c m devices activeId)
  | _, _ => none

def step (s : System) : SystemEvent → Option System
  | .call kind => some (s.call kind)
  | .begin i =>
    s.calls[i]?.bind fun c =>
      if c.pc = .queued ∧ s.queue.head? = some i then some (s.ensureLoaded i c) else none
  | .serve i => s.calls[i]?.bind (s.serve i)
  | .reply i => s.calls[i]?.bind (s.reply i)
  | .resume i => s.calls[i]?.bind fun c => if c.pc = .loaded then some (s.goOn i c) else none

/-- The service worker between calls. -/
def of (w : Worker) : System := { cache := w.cache, storage := w.storage }

/-- No load is in flight while a mutator writes. -/
def NoOverlap (s : System) : Prop :=
  (∃ c ∈ s.calls, c.pc.writing = true) → ∀ c ∈ s.calls, c.pc.loading = false

instance (s : System) : Decidable s.NoOverlap :=
  inferInstanceAs (Decidable (_ → ∀ c ∈ s.calls, _))

/-- No load is in flight while a mutator writes, and a call that goes on after `ensureLoaded` finds
the cache, unless it does not look into the list. -/
def Sound (s : System) (e : SystemEvent) : Prop :=
  s.NoOverlap ∧
    match e with
    | .resume i => s.cache.initialized = true ∨ s.calls[i]?.map Call.kind = some .readActive
    | _ => True

instance (s : System) : ∀ e, Decidable (s.Sound e)
  | .resume _ => inferInstanceAs (Decidable (s.NoOverlap ∧ (_ ∨ _)))
  | .call _ | .begin _ | .serve _ | .reply _ => inferInstanceAs (Decidable (s.NoOverlap ∧ True))

def Idle (s : System) : Prop := ∀ c ∈ s.calls, c.pc.ended = true

instance (s : System) : Decidable s.Idle := inferInstanceAs (Decidable (∀ c ∈ s.calls, _))

end System

/-! ### What the mutators do one after the other -/

/-- The results `settled` are those of the mutators run one after the other from `r` on, which leads
to `r'`. -/
def Explains : Registry → List (Mutation × Except Failure Unit) → Registry → Prop
  | r, [], r' => r = r'
  | r, (m, result) :: rest, r' =>
    (result = (m.plan r.devices r.activeId).map fun _ => ()) ∧ Explains (r.perform m) rest r'

theorem Explains.snoc {r r' : Registry} {settled : List (Mutation × Except Failure Unit)}
    (h : Explains r settled r') (m : Mutation) :
    Explains r (settled ++ [(m, (m.plan r'.devices r'.activeId).map fun _ => ())])
      (r'.perform m) := by
  induction settled generalizing r with
  | nil =>
    cases h
    exact ⟨rfl, rfl⟩
  | cons e rest ih => exact ⟨h.1, ih h.2⟩

/-- Whether a device is listed after the settled calls, given that it was before: the last call that
added, removed or revoked it decides. -/
def present (deviceId : Utf16) : Bool → List (Mutation × Except Failure Unit) → Bool
  | before, [] => before
  | before, (.addDevice record, .ok ()) :: rest =>
    present deviceId (before || deviceId = record.deviceId) rest
  | before, (.removeDevice id, .ok ()) :: rest | before, (.revokeDevice id _, .ok ()) :: rest =>
    present deviceId (before && deviceId ≠ id) rest
  | before, _ :: rest => present deviceId before rest

/-- How a call of a kind fails, if it does. -/
def Kind.Expects : Kind → Failure → Prop
  | .mutate (.addDevice _), failure => failure = .thrown limitReached
  | .mutate (.removeDevice id), failure | .mutate (.setActiveDevice id _), failure
  | .mutate (.revokeDevice id _), failure => failure = .thrown (notFound id)
  | .mutate (.updateDeviceLastSeen ..), _ | .reconcile, _ | .read, _ | .readActive, _ => False

theorem expects_of_plan {m : Mutation} {devices : List DeviceRecord} {activeId : Option Utf16}
    {failure : Failure} (h : m.plan devices activeId = .error failure) :
    (Kind.mutate m).Expects failure := by
  have hdoc := documented_plan m devices activeId
  rw [h] at hdoc
  cases m with
  | addDevice | removeDevice | setActiveDevice | revokeDevice => exact hdoc.1
  | updateDeviceLastSeen => exact hdoc

end SmartIdVault.DeviceRegistry
