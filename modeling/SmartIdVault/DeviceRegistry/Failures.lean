import SmartIdVault.Lib.Faults
import SmartIdVault.DeviceRegistry.Restarts

/-! The mutators of `deviceRegistry.ts` when storage calls inside them fail.  A mutator makes two to
four writes and takes none of them back, so a call that fails leaves what the calls before it have
done: the registry is as before only where these wrote what was there already. -/

namespace SmartIdVault.DeviceRegistry

open Faults (Result call andThen)
open Pairing (toCachedPairing)

/-- The storage calls of a mutator: the two reads of `loadFromStorage`, the two writes of `persist`,
and the first and the last write of `revokeDevice`. -/
inductive StorageCall where
  | sessionGet | localGet
  | pairingSet | sessionSet | localSet | clientRemove
  deriving DecidableEq, Repr

inductive Rejection where
  | failure (f : Failure)
  | storage (c : StorageCall)
  deriving DecidableEq, Repr

/-- The storage calls that fail. -/
abbrev Faulty := StorageCall → Bool

namespace Faulty

variable (fails : Faulty)

def storageCall (c : StorageCall) (effect : Worker → Worker) : Worker → Result Rejection Worker :=
  call fails c (.storage c) effect

def loadFromStorage (w : Worker) : Result Rejection Worker :=
  andThen (storageCall fails .sessionGet id w) fun w =>
    match ofSession w.storage.sessionDevices w.storage.sessionActive with
    | some cache => (.ok (), { w with cache })
    | none =>
      storageCall fails .localGet (fun w => { w with cache := ofLocal w.storage.localMetas }) w

def ensureLoaded (w : Worker) : Result Rejection Worker :=
  if w.cache.initialized then (.ok (), w) else loadFromStorage fails w

def persist (devices : List DeviceRecord) (activeId : Option Utf16) (w : Worker) :
    Result Rejection Worker :=
  andThen (storageCall fails .sessionSet
      (fun w => { w with storage := persistSession w.storage devices activeId }) w)
    (storageCall fails .localSet fun w => { w with storage := persistLocal w.storage devices })

/-- The writes of a mutator. -/
def write (m : Mutation) (devices : List DeviceRecord) (activeId : Option Utf16) (w : Worker) :
    Result Rejection Worker :=
  match m with
  | .revokeDevice .. =>
    andThen (storageCall fails .pairingSet
        (fun w => { w with storage := m.writePairing w.storage }) w) fun w =>
      andThen (persist fails devices activeId w)
        (storageCall fails .clientRemove fun w => { w with storage := m.removeClient w.storage })
  | .addDevice _ | .removeDevice _ | .setActiveDevice .. | .updateDeviceLastSeen .. =>
    persist fails devices activeId w

/-- A mutator from its first line to its last. -/
def perform (m : Mutation) (w : Worker) : Result Rejection Worker :=
  andThen (ensureLoaded fails w) fun w =>
    match w.cache.devices with
    | none => (.error (.failure .nullCache), w)
    | some devices =>
      match m.plan devices w.cache.activeId with
      | .error f => (.error (.failure f), w)
      | .ok none => (.ok (), w)
      | .ok (some (newDevices, newActive)) =>
        andThen (write fails m newDevices newActive w) fun w =>
          (.ok (), { w with cache := m.assign w.cache newDevices newActive })

end Faulty

namespace Worker

/-! ### The calls that a mutator makes -/

def loadCalls (w : Worker) : List StorageCall :=
  if w.cache.initialized then []
  else
    match ofSession w.storage.sessionDevices w.storage.sessionActive with
    | some _ => [.sessionGet]
    | none => [.sessionGet, .localGet]

/-- The list and the active id that the mutator is going to store. -/
def planned (w : Worker) (m : Mutation) : Option (List DeviceRecord × Option Utf16) :=
  match w.ensureLoaded.cache.devices with
  | none => none
  | some devices =>
    match m.plan devices w.ensureLoaded.cache.activeId with
    | .error _ | .ok none => none
    | .ok (some plan) => some plan

def writeCalls : Mutation → List StorageCall
  | .revokeDevice .. => [.pairingSet, .sessionSet, .localSet, .clientRemove]
  | .addDevice _ | .removeDevice _ | .setActiveDevice .. | .updateDeviceLastSeen .. =>
    [.sessionSet, .localSet]

/-- The storage calls that the mutator makes when none of them fails. -/
def calls (w : Worker) (m : Mutation) : List StorageCall :=
  w.loadCalls ++ if (w.planned m).isSome then writeCalls m else []

/-- `pairing:device` has the key pair that `revokeDevice` is called with, and no remote key. -/
def PairingStored (w : Worker) : Mutation → Prop
  | .revokeDevice _ newKeyPair => w.storage.pairing = some (toCachedPairing newKeyPair [])
  | .addDevice _ | .removeDevice _ | .setActiveDevice .. | .updateDeviceLastSeen .. => True

/-- Session storage lists these devices, and this one as active. -/
def Lists (w : Worker) (devices : List DeviceRecord) (activeId : Option Utf16) : Prop :=
  w.storage.sessionDevices = some (devices.map deviceToSerializable) ∧
    w.storage.sessionActive = activeId

/-- Session storage has the cached devices as the call wants them: with the record in the place of
the first that has its id or at the end, without the device, or with the device seen now. -/
def SessionStored (w : Worker) (devices : List DeviceRecord) : Mutation → Prop
  | .addDevice record =>
    w.Lists (devices.takeWhile (·.deviceId ≠ record.deviceId) ++
      record :: (devices.dropWhile (·.deviceId ≠ record.deviceId)).tail) w.cache.activeId
  | .removeDevice deviceId | .revokeDevice deviceId _ =>
    let rest := devices.filter (·.deviceId ≠ deviceId)
    if w.cache.activeId = some deviceId then w.Lists rest (rest.head?.map DeviceRecord.deviceId)
    else w.Lists rest w.cache.activeId
  | .setActiveDevice deviceId now =>
    w.Lists (devices.map fun d => if d.deviceId = deviceId then { d with lastSeen := now } else d)
      (some deviceId)
  | .updateDeviceLastSeen deviceId now =>
    w.Lists (devices.map fun d => if d.deviceId = deviceId then { d with lastSeen := now } else d)
      w.cache.activeId

/-- Local storage lists the cached devices without the one that is revoked. -/
def LocalStored (w : Worker) (devices : List DeviceRecord) : Mutation → Prop
  | .revokeDevice deviceId _ =>
    w.storage.localMetas = some ((devices.filter (·.deviceId ≠ deviceId)).map toMeta)
  | .addDevice _ | .removeDevice _ | .setActiveDevice .. | .updateDeviceLastSeen .. => True

/-- The storage call that fails is a read, or the cache was loaded and storage has already what the
call wants of the writes before. -/
def Anticipated (w : Worker) (m : Mutation) : StorageCall → Prop
  | .sessionGet | .localGet => True
  | .pairingSet => w.cache.initialized = true
  | .sessionSet => w.cache.initialized = true ∧ w.PairingStored m
  | .localSet => w.cache.initialized = true ∧ w.PairingStored m ∧
      ∀ devices ∈ w.cache.devices, w.SessionStored devices m
  | .clientRemove => w.cache.initialized = true ∧ w.PairingStored m ∧
      ∀ devices ∈ w.cache.devices, w.SessionStored devices m ∧ w.LocalStored devices m

/-- The call changes nothing in the list: it adds the record that the list has, or sees the device
at the time at which it was seen last. -/
def Idles (w : Worker) (devices : List DeviceRecord) : Mutation → Prop
  | .addDevice record => devices.find? (·.deviceId = record.deviceId) = some record
  | .removeDevice _ | .revokeDevice .. => False
  | .setActiveDevice deviceId now =>
    w.cache.activeId = some deviceId ∧ ∀ d ∈ devices, d.deviceId = deviceId → d.lastSeen = now
  | .updateDeviceLastSeen deviceId now => ∀ d ∈ devices, d.deviceId = deviceId → d.lastSeen = now

/-- The mutator rejects when the storage call fails, and leaves all as it was. -/
def FailsCleanly (w : Worker) (m : Mutation) (c : StorageCall) : Prop :=
  Faulty.perform (fun c' => c' = c) m w = (.error (.storage c), w)

instance (w : Worker) (m : Mutation) (c : StorageCall) : Decidable (w.FailsCleanly m c) :=
  decEq (Faulty.perform (fun c' => c' = c) m w) (.error (.storage c), w)

end Worker

/-! ### Without a failing call -/

theorem initialized_loadFromStorage (storage : Storage) :
    (loadFromStorage storage).initialized = true := by
  rw [loadFromStorage]
  cases hs : ofSession storage.sessionDevices storage.sessionActive with
  | some cache =>
    unfold ofSession at hs
    split at hs
    · cases hs
    · cases hs
    · cases hs
      rfl
  | none =>
    rw [Option.getD_none]
    unfold ofLocal
    split <;> rfl

theorem initialized_ensureLoaded (w : Worker) : w.ensureLoaded.cache.initialized = true := by
  rw [Worker.ensureLoaded]
  split
  · rename_i hi
    exact hi
  · exact initialized_loadFromStorage w.storage

theorem ensureLoaded_of_initialized {w : Worker} (h : w.cache.initialized = true) :
    w.ensureLoaded = w := if_pos h

theorem worker_eq {v w : Worker} (hc : v.cache = w.cache) (hs : v.storage = w.storage) : v = w := by
  cases v
  cases w
  simp_all

section

variable {w : Worker} {m : Mutation} {fails : Faulty}

theorem ensureLoaded_of_not_fails (h : ∀ c ∈ w.loadCalls, fails c = false) :
    Faulty.ensureLoaded fails w = (.ok (), w.ensureLoaded) := by
  rw [Faulty.ensureLoaded, Worker.ensureLoaded]
  rw [Worker.loadCalls] at h
  split
  · rfl
  · rename_i hi
    rw [if_neg hi] at h
    rw [Faulty.loadFromStorage, Faulty.storageCall, DeviceRegistry.loadFromStorage]
    cases hs : ofSession w.storage.sessionDevices w.storage.sessionActive with
    | some cache =>
      rw [hs] at h
      rw [Faults.call_of_not_fails (h _ (by simp))]
      simp [hs]
    | none =>
      rw [hs] at h
      rw [Faults.call_of_not_fails (h _ (by simp))]
      simp [hs, Faulty.storageCall, h]

theorem write_of_not_fails (h : ∀ c ∈ Worker.writeCalls m, fails c = false)
    (devices : List DeviceRecord) (activeId : Option Utf16) :
    Faulty.write fails m devices activeId w = (.ok (), { w with
      storage := m.removeClient (persist (m.writePairing w.storage) devices activeId) }) := by
  cases m with
  | revokeDevice deviceId newKeyPair =>
    simp only [Worker.writeCalls, List.forall_mem_cons] at h
    obtain ⟨h1, h2, h3, h4, -⟩ := h
    simp [Faulty.write, Faulty.persist, Faulty.storageCall, h1, h2, h3, h4, persist]
  | addDevice | removeDevice | setActiveDevice | updateDeviceLastSeen =>
    simp only [Worker.writeCalls, List.forall_mem_cons] at h
    obtain ⟨h1, h2, -⟩ := h
    simp [Faulty.write, Faulty.persist, Faulty.storageCall, h1, h2, persist,
      Mutation.writePairing, Mutation.removeClient]

/-- When none of its calls fails, a mutator does what it does with nothing in between. -/
theorem perform_of_not_fails (h : ∀ c ∈ w.calls m, fails c = false) :
    Faulty.perform fails m w = ((w.perform m).1.mapError .failure, (w.perform m).2) := by
  have hload : ∀ c ∈ w.loadCalls, fails c = false := fun c hc => h c (List.mem_append_left _ hc)
  rw [Faulty.perform, ensureLoaded_of_not_fails hload, Faults.andThen_ok, Worker.perform]
  cases hd : w.ensureLoaded.cache.devices with
  | none => rfl
  | some devices =>
    simp only
    cases hp : m.plan devices w.ensureLoaded.cache.activeId with
    | error failure => rfl
    | ok plan =>
      cases plan with
      | none => rfl
      | some plan =>
        have hplanned : w.planned m = some plan := by simp [Worker.planned, hd, hp]
        have hwrite : ∀ c ∈ Worker.writeCalls m, fails c = false := by
          intro c hc
          exact h c (List.mem_append_right _ (by simpa [hplanned] using hc))
        obtain ⟨newDevices, newActive⟩ := plan
        simp only [write_of_not_fails hwrite, Faults.andThen_ok]
        rfl

/-- A mutator on a loaded cache. -/
theorem perform_of_loaded {devices newDevices : List DeviceRecord} {newActive : Option Utf16}
    (hi : w.cache.initialized = true) (hd : w.cache.devices = some devices)
    (hp : m.plan devices w.cache.activeId = .ok (some (newDevices, newActive))) :
    Faulty.perform fails m w = andThen (Faulty.write fails m newDevices newActive w) fun w =>
      (.ok (), { w with cache := m.assign w.cache newDevices newActive }) := by
  simp only [Faulty.perform, Faulty.ensureLoaded, hi, if_true, Faults.andThen_ok, hd, hp]

theorem persist_eq (devices : List DeviceRecord) (activeId : Option Utf16) :
    Faulty.persist fails devices activeId w =
      if fails .sessionSet then (.error (.storage .sessionSet), w)
      else if fails .localSet then (.error (.storage .localSet),
        { w with storage := persistSession w.storage devices activeId })
      else (.ok (), { w with storage := persist w.storage devices activeId }) := by
  rw [Faulty.persist, Faulty.storageCall, call]
  split
  · rfl
  · rw [Faults.andThen_ok, Faulty.storageCall, call]
    split
    · rfl
    · rfl

/-! ### With one -/

variable {c : StorageCall}

/-- An unloaded cache stays as it is when one of the reads fails. -/
theorem exists_ensureLoaded_eq_error (h : ¬∀ c ∈ w.loadCalls, fails c = false) :
    ∃ c, fails c = true ∧ Faulty.ensureLoaded fails w = (.error (.storage c), w) := by
  rw [Worker.loadCalls] at h
  rw [Faulty.ensureLoaded]
  split at h
  · simp at h
  · rename_i hi
    rw [if_neg hi, Faulty.loadFromStorage, Faulty.storageCall]
    by_cases hget : fails .sessionGet = true
    · exact ⟨.sessionGet, hget, by simp [hget]⟩
    · rw [Bool.not_eq_true] at hget
      cases hs : ofSession w.storage.sessionDevices w.storage.sessionActive with
      | some cache => simp [hs, hget] at h
      | none =>
        have hlocal : fails .localGet = true := by simpa [hs, hget] using h
        exact ⟨.localGet, hlocal, by simp [hs, hget, hlocal, Faulty.storageCall]⟩

theorem ensureLoaded_of_fails (hc : c ∈ w.loadCalls) :
    Faulty.ensureLoaded (fun c' => c' = c) w = (.error (.storage c), w) := by
  have hnot : ¬∀ c' ∈ w.loadCalls, decide (c' = c) = false := by
    intro h
    exact absurd (h c hc) (by simp)
  obtain ⟨c', hc', hload⟩ := exists_ensureLoaded_eq_error hnot
  obtain rfl := of_decide_eq_true hc'
  exact hload

/-- What is in storage when the write `c` of a mutator fails. -/
def storedBefore (m : Mutation) (devices : List DeviceRecord) (activeId : Option Utf16)
    (storage : Storage) : StorageCall → Storage
  | .sessionGet | .localGet | .pairingSet => storage
  | .sessionSet => m.writePairing storage
  | .localSet => persistSession (m.writePairing storage) devices activeId
  | .clientRemove => persist (m.writePairing storage) devices activeId

theorem write_of_fails (hc : c ∈ Worker.writeCalls m) (devices : List DeviceRecord)
    (activeId : Option Utf16) :
    Faulty.write (fun c' => c' = c) m devices activeId w = (.error (.storage c),
      { w with storage := storedBefore m devices activeId w.storage c }) := by
  cases m with
  | revokeDevice deviceId newKeyPair =>
    simp only [Worker.writeCalls, List.mem_cons, List.not_mem_nil, or_false] at hc
    rcases hc with rfl | rfl | rfl | rfl <;>
      simp [Faulty.write, Faulty.persist, Faulty.storageCall, storedBefore, persist]
  | addDevice | removeDevice | setActiveDevice | updateDeviceLastSeen =>
    simp only [Worker.writeCalls, List.mem_cons, List.not_mem_nil, or_false] at hc
    rcases hc with rfl | rfl <;>
      simp [Faulty.write, Faulty.persist, Faulty.storageCall, storedBefore, Mutation.writePairing]

theorem writePairing_eq_iff : m.writePairing w.storage = w.storage ↔ w.PairingStored m := by
  cases m with
  | revokeDevice deviceId newKeyPair =>
    constructor
    · intro h
      exact (congrArg Storage.pairing h).symm
    · intro h
      rw [Mutation.writePairing, ← h]
  | addDevice | removeDevice | setActiveDevice | updateDeviceLastSeen =>
    exact ⟨fun _ => trivial, fun _ => rfl⟩

/-- The other writes do not put the pairing back. -/
theorem write_after_writePairing_eq_iff {f : Storage → Storage}
    (hf : ∀ storage, (f storage).pairing = storage.pairing) :
    f (m.writePairing w.storage) = w.storage ↔ w.PairingStored m ∧ f w.storage = w.storage := by
  rw [← writePairing_eq_iff]
  constructor
  · intro h
    have hpairing : m.writePairing w.storage = w.storage := by
      have hkept : (m.writePairing w.storage).pairing = w.storage.pairing := by rw [← hf, h]
      cases m with
      | revokeDevice deviceId newKeyPair => exact writePairing_eq_iff.mpr hkept.symm
      | addDevice | removeDevice | setActiveDevice | updateDeviceLastSeen => rfl
    exact ⟨hpairing, by rwa [hpairing] at h⟩
  · rintro ⟨hpairing, h⟩
    rw [hpairing, h]

theorem persistSession_eq_iff (devices : List DeviceRecord) (activeId : Option Utf16) :
    persistSession w.storage devices activeId = w.storage ↔ w.Lists devices activeId := by
  constructor
  · intro h
    exact ⟨(congrArg Storage.sessionDevices h).symm, (congrArg Storage.sessionActive h).symm⟩
  · rintro ⟨hdevices, hactive⟩
    rw [persistSession, ← hdevices, ← hactive]

theorem persist_eq_iff (devices : List DeviceRecord) (activeId : Option Utf16) :
    DeviceRegistry.persist w.storage devices activeId = w.storage ↔
      w.Lists devices activeId ∧ w.storage.localMetas = some (devices.map toMeta) := by
  constructor
  · intro h
    exact ⟨⟨(congrArg Storage.sessionDevices h).symm, (congrArg Storage.sessionActive h).symm⟩,
      (congrArg Storage.localMetas h).symm⟩
  · rintro ⟨hlists, hmetas⟩
    rw [DeviceRegistry.persist, (persistSession_eq_iff devices activeId).mpr hlists, persistLocal,
      ← hmetas]

/-- The list with the record is the cached one up to the first device of its id, and after it. -/
theorem withRecord_eq (devices : List DeviceRecord) (record : DeviceRecord) :
    withRecord devices record = devices.takeWhile (·.deviceId ≠ record.deviceId) ++
      record :: (devices.dropWhile (·.deviceId ≠ record.deviceId)).tail := by
  rw [withRecord]
  induction devices with
  | nil => rfl
  | cons d devices ih =>
    by_cases hd : d.deviceId = record.deviceId
    · simp [List.findIdx?_cons, hd]
    · simp only [List.findIdx?_cons, hd, decide_false, Bool.false_eq_true, if_false, ne_eq,
        not_false_eq_true, decide_true, List.takeWhile_cons_of_pos, List.dropWhile_cons_of_pos,
        List.cons_append, ← ih]
      cases devices.findIdx? (·.deviceId = record.deviceId) with
      | none => rfl
      | some k => rfl

theorem sessionStored_iff {devices : List DeviceRecord} {plan : List DeviceRecord × Option Utf16}
    (hp : m.plan devices w.cache.activeId = .ok (some plan)) :
    w.SessionStored devices m ↔ w.Lists plan.1 plan.2 := by
  cases m with
  | addDevice record =>
    simp only [Mutation.plan] at hp
    split at hp
    · cases hp
    · cases hp
      rw [Worker.SessionStored, withRecord_eq]
  | removeDevice deviceId | revokeDevice deviceId newKeyPair =>
    simp only [Mutation.plan] at hp
    split at hp
    · cases hp
      simp only [Worker.SessionStored, nextActive, without]
      split <;> rfl
    · cases hp
  | setActiveDevice deviceId now | updateDeviceLastSeen deviceId now =>
    simp only [Mutation.plan] at hp
    split at hp
    · cases hp
      rfl
    · cases hp

theorem localStored_iff {devices : List DeviceRecord} {plan : List DeviceRecord × Option Utf16}
    (hp : m.plan devices w.cache.activeId = .ok (some plan))
    (hc : .clientRemove ∈ Worker.writeCalls m) :
    w.LocalStored devices m ↔ w.storage.localMetas = some (plan.1.map toMeta) := by
  cases m with
  | revokeDevice deviceId newKeyPair =>
    simp only [Mutation.plan] at hp
    split at hp
    · cases hp
      rfl
    · cases hp
  | addDevice | removeDevice | setActiveDevice | updateDeviceLastSeen =>
    simp [Worker.writeCalls] at hc

/-- Loading the cache is a change. -/
theorem ensureLoaded_with_eq_iff (storage : Storage) :
    { w.ensureLoaded with storage } = w ↔
      w.cache.initialized = true ∧ storage = w.storage := by
  constructor
  · intro h
    refine ⟨?_, congrArg Worker.storage h⟩
    rw [← initialized_ensureLoaded w]
    exact (congrArg (·.cache.initialized) h).symm
  · rintro ⟨hi, rfl⟩
    rw [ensureLoaded_of_initialized hi]

theorem planned_eq_some {plan : List DeviceRecord × Option Utf16} (h : w.planned m = some plan) :
    ∃ devices, w.ensureLoaded.cache.devices = some devices ∧
      m.plan devices w.ensureLoaded.cache.activeId = .ok (some plan) := by
  rw [Worker.planned] at h
  split at h
  · cases h
  · rename_i devices hd
    split at h
    · cases h
    · cases h
    · rename_i plan' hp
      cases h
      exact ⟨devices, hd, hp⟩

theorem eq_get_of_mem_loadCalls (hc : c ∈ w.loadCalls) : c = .sessionGet ∨ c = .localGet := by
  rw [Worker.loadCalls] at hc
  split at hc
  · contradiction
  split at hc
  · exact .inl (List.mem_singleton.mp hc)
  · simpa using hc

theorem not_get_of_mem_writeCalls (hc : c ∈ Worker.writeCalls m) :
    c ≠ .sessionGet ∧ c ≠ .localGet := by
  cases m with
  | revokeDevice deviceId newKeyPair =>
    simp only [Worker.writeCalls, List.mem_cons, List.not_mem_nil, or_false] at hc
    rcases hc with rfl | rfl | rfl | rfl <;> simp
  | addDevice | removeDevice | setActiveDevice | updateDeviceLastSeen =>
    simp only [Worker.writeCalls, List.mem_cons, List.not_mem_nil, or_false] at hc
    rcases hc with rfl | rfl <;> simp

theorem ensureLoaded_of_write (hc : c ∈ Worker.writeCalls m) :
    Faulty.ensureLoaded (fun c' => c' = c) w = (.ok (), w.ensureLoaded) := by
  apply ensureLoaded_of_not_fails
  intro c' hc'
  rw [decide_eq_false_iff_not]
  rintro rfl
  rcases eq_get_of_mem_loadCalls hc' with rfl | rfl
  · exact (not_get_of_mem_writeCalls hc).1 rfl
  · exact (not_get_of_mem_writeCalls hc).2 rfl

@[simp] theorem ensureLoaded_storage : w.ensureLoaded.storage = w.storage := by
  rw [Worker.ensureLoaded]
  split <;> rfl

/-- When the write `c` fails, the cache has been loaded and the writes before `c` are made. -/
theorem perform_of_write_fails {plan : List DeviceRecord × Option Utf16}
    (hplan : w.planned m = some plan) (hc : c ∈ Worker.writeCalls m) :
    Faulty.perform (fun c' => c' = c) m w = (.error (.storage c),
      { w.ensureLoaded with storage := storedBefore m plan.1 plan.2 w.storage c }) := by
  obtain ⟨devices, hdevices, hp⟩ := planned_eq_some hplan
  obtain ⟨newDevices, newActive⟩ := plan
  rw [Faulty.perform, ensureLoaded_of_write hc]
  simp only [Faults.andThen_ok, hdevices, hp, write_of_fails hc, Faults.andThen_error,
    ensureLoaded_storage]

theorem anticipated_iff {plan : List DeviceRecord × Option Utf16} (hplan : w.planned m = some plan)
    (hc : c ∈ Worker.writeCalls m) : w.Anticipated m c ↔
      w.cache.initialized = true ∧ storedBefore m plan.1 plan.2 w.storage c = w.storage := by
  obtain ⟨devices, hdevices, hp⟩ := planned_eq_some hplan
  have hloaded (hi : w.cache.initialized = true) :
      w.cache.devices = some devices ∧ m.plan devices w.cache.activeId = .ok (some plan) := by
    rw [ensureLoaded_of_initialized hi] at hdevices hp
    exact ⟨hdevices, hp⟩
  cases c with
  | sessionGet => exact absurd rfl (not_get_of_mem_writeCalls hc).1
  | localGet => exact absurd rfl (not_get_of_mem_writeCalls hc).2
  | pairingSet => simp [Worker.Anticipated, storedBefore]
  | sessionSet => exact and_congr_right fun _ => writePairing_eq_iff.symm
  | localSet =>
    refine and_congr_right fun hi => ?_
    obtain ⟨hd, hp⟩ := hloaded hi
    rw [storedBefore, write_after_writePairing_eq_iff (f := (persistSession · plan.1 plan.2)),
      persistSession_eq_iff, ← sessionStored_iff hp]
    · simp [hd]
    · exact fun _ => rfl
  | clientRemove =>
    refine and_congr_right fun hi => ?_
    obtain ⟨hd, hp⟩ := hloaded hi
    rw [storedBefore, write_after_writePairing_eq_iff (f := (persist · plan.1 plan.2)),
      persist_eq_iff, ← sessionStored_iff hp, ← localStored_iff hp hc]
    · simp [hd]
    · exact fun _ => rfl

/-- A mutator in which the storage call `c` fails leaves all as it was if and only if `c` is a read,
or the cache was loaded and storage had already what the writes before `c` store. -/
theorem failsCleanly_iff (hc : c ∈ w.calls m) : w.FailsCleanly m c ↔ w.Anticipated m c := by
  rw [Worker.FailsCleanly]
  rcases List.mem_append.mp hc with hload | hwrite
  · rw [Faulty.perform, ensureLoaded_of_fails hload, Faults.andThen_error, eq_self_iff_true,
      true_iff]
    rcases eq_get_of_mem_loadCalls hload with rfl | rfl
    · trivial
    · trivial
  · split at hwrite
    · rename_i hplanned
      obtain ⟨plan, hplan⟩ := Option.isSome_iff_exists.mp hplanned
      rw [perform_of_write_fails hplan hwrite, Prod.mk.injEq, eq_self_iff_true, true_and,
        ensureLoaded_with_eq_iff, anticipated_iff hplan hwrite]
    · contradiction

/-! ### In a registry that storage agrees with -/

theorem lists_iff {devices devices' : List DeviceRecord} {activeId activeId' : Option Utf16}
    (h : w.Lists devices activeId) :
    w.Lists devices' activeId' ↔ devices' = devices ∧ activeId' = activeId := by
  obtain ⟨hdevices, hactive⟩ := h
  rw [Worker.Lists, hdevices, hactive, Option.some.injEq, eq_comm, eq_comm (a := activeId)]
  refine and_congr_left fun _ => List.map_inj_right fun d d' heq => ?_
  rw [← fromSerializable_toSerializable d, heq, fromSerializable_toSerializable]

theorem withRecord_eq_self_iff (devices : List DeviceRecord) (record : DeviceRecord) :
    devices.takeWhile (·.deviceId ≠ record.deviceId) ++
        record :: (devices.dropWhile (·.deviceId ≠ record.deviceId)).tail = devices ↔
      devices.find? (·.deviceId = record.deviceId) = some record := by
  induction devices with
  | nil => simp
  | cons d devices ih =>
    by_cases hd : d.deviceId = record.deviceId
    · simp [hd, eq_comm]
    · simpa [hd] using ih

theorem seen_eq_self_iff (devices : List DeviceRecord) (deviceId : Utf16) (now : Int) :
    (devices.map fun d => if d.deviceId = deviceId then { d with lastSeen := now } else d) =
        devices ↔ ∀ d ∈ devices, d.deviceId = deviceId → d.lastSeen = now := by
  induction devices with
  | nil => simp
  | cons d devices ih =>
    rw [List.map_cons, List.cons.injEq, ih, List.forall_mem_cons]
    refine and_congr_left fun _ => ?_
    split
    · rename_i hd
      constructor
      · intro h _
        exact (congrArg DeviceRecord.lastSeen h).symm
      · intro h
        rw [← h hd]
    · rename_i hd
      exact ⟨fun _ h => absurd h hd, fun _ => rfl⟩

theorem filter_ne_self {devices : List DeviceRecord} {deviceId : Utf16}
    (h : listed devices deviceId = true) : devices.filter (·.deviceId ≠ deviceId) ≠ devices := by
  intro heq
  obtain ⟨d, hd, hid⟩ := List.any_eq_true.mp h
  rw [List.filter_eq_self] at heq
  exact absurd (of_decide_eq_true hid) (of_decide_eq_true (heq d hd))

/-- Where session storage agrees with the cache, the second write of a mutator leaves all as it was,
when it fails, only if the mutator would not have changed the list. -/
theorem failsCleanly_localSet_iff {devices : List DeviceRecord}
    (hi : w.cache.initialized = true) (hd : w.cache.devices = some devices)
    (hlists : w.Lists devices w.cache.activeId) (hc : .localSet ∈ w.calls m) :
    w.FailsCleanly m .localSet ↔ w.Idles devices m := by
  have hplanned : (w.planned m).isSome := by
    rcases List.mem_append.mp hc with hload | hwrite
    · rw [Worker.loadCalls, if_pos hi] at hload
      contradiction
    · split at hwrite
      · assumption
      · contradiction
  obtain ⟨plan, hplan⟩ := Option.isSome_iff_exists.mp hplanned
  obtain ⟨devices', hdevices, hp⟩ := planned_eq_some hplan
  rw [ensureLoaded_of_initialized hi] at hdevices hp
  obtain rfl := Option.some.inj (hd.symm.trans hdevices)
  have hstored : w.FailsCleanly m .localSet ↔ w.PairingStored m ∧ w.SessionStored devices m := by
    rw [failsCleanly_iff hc]
    simp [Worker.Anticipated, hi, hd]
  rw [hstored]
  cases m with
  | addDevice record =>
    simp only [Worker.PairingStored, Worker.SessionStored, true_and, lists_iff hlists, and_true]
    exact withRecord_eq_self_iff devices record
  | removeDevice deviceId | revokeDevice deviceId newKeyPair =>
    simp only [Mutation.plan] at hp
    split at hp
    · rename_i hlisted
      have hshorter := filter_ne_self hlisted
      simp only [Worker.SessionStored, lists_iff hlists, hshorter, false_and, ite_self, and_false]
      rfl
    · cases hp
  | setActiveDevice deviceId now =>
    simp only [Worker.PairingStored, Worker.SessionStored, true_and, lists_iff hlists,
      seen_eq_self_iff]
    rw [Worker.Idles, and_comm, eq_comm]
  | updateDeviceLastSeen deviceId now =>
    simp only [Worker.PairingStored, Worker.SessionStored, true_and, lists_iff hlists,
      seen_eq_self_iff, and_true]
    rfl

end

/-! ### A phone that is added while local storage is full -/

def emptyWorker : Worker := { cache := .of [] none }

/-- The cache lists no phone after the rejection, and session storage lists it. -/
theorem full_storage_leaves_half_a_device :
    StorageCall.localSet ∈ emptyWorker.calls (.addDevice (phone 1)) ∧
      ¬emptyWorker.FailsCleanly (.addDevice (phone 1)) .localSet ∧
      Faulty.perform (fun c => c = .localSet) (.addDevice (phone 1)) emptyWorker =
        (.error (.storage .localSet), { emptyWorker with
          storage := { sessionDevices := some [deviceToSerializable (phone 1)] } }) := by
  decide +kernel

theorem full_session_storage_changes_nothing :
    emptyWorker.FailsCleanly (.addDevice (phone 1)) .sessionSet := by
  have hcall : StorageCall.sessionSet ∈ emptyWorker.calls (.addDevice (phone 1)) := by
    decide +kernel
  exact (failsCleanly_iff hcall).mpr ⟨rfl, trivial⟩

end SmartIdVault.DeviceRegistry
