import SmartIdVault.DeviceRegistry.Storage

/-! The registry over the life of the service worker: calls one after the other, restarts of the
worker, which lose the cache, and of the browser, which lose session storage as well.  What the
cache and the two storages say is one registry all along: unique ids, at most five devices, and an
active one that is listed. -/

namespace SmartIdVault.DeviceRegistry

open Transport (uint8Array_arrayFrom)

/-! ### The registry -/

def ids (devices : List DeviceRecord) : List Utf16 := devices.map DeviceRecord.deviceId

structure WellFormed (devices : List DeviceRecord) (activeId : Option Utf16) : Prop where
  unique : (ids devices).Nodup
  limit : devices.length ≤ maxDevices
  active : ∀ id ∈ activeId, id ∈ ids devices

/-- A registry: the list and the active device that cache and storage keep. -/
structure Registry where
  devices : List DeviceRecord
  activeId : Option Utf16
  wellFormed : WellFormed devices activeId

def Registry.empty : Registry := ⟨[], none, by simp [ids], by simp, nofun⟩

section Mutations

variable {devices newDevices : List DeviceRecord} {activeId newActive : Option Utf16}
  {deviceId : Utf16}

@[simp] theorem length_ids : (ids devices).length = devices.length := List.length_map ..

theorem listed_iff : listed devices deviceId = true ↔ deviceId ∈ ids devices := by
  simp [listed, ids]

theorem ids_seen (now : Int) : ids (seen devices deviceId now) = ids devices := by
  simp only [ids, seen, List.map_map]
  apply List.map_congr_left
  intro d _
  by_cases h : d.deviceId = deviceId <;> simp [h]

theorem ids_without : ids (without devices deviceId) = (ids devices).filter (· ≠ deviceId) := by
  simp only [ids, without, List.filter_map]
  rfl

theorem ids_withRecord (record : DeviceRecord) : ids (withRecord devices record) =
    if record.deviceId ∈ ids devices then ids devices else ids devices ++ [record.deviceId] := by
  simp only [withRecord]
  split
  next i hi =>
    obtain ⟨hlt, hid, -⟩ := List.findIdx?_eq_some_iff_getElem.mp hi
    have hid : devices[i].deviceId = record.deviceId := by simpa using hid
    have hmem : record.deviceId ∈ ids devices :=
      List.mem_map.mpr ⟨devices[i], List.getElem_mem hlt, hid⟩
    have hlt' : i < (ids devices).length := by simpa [ids] using hlt
    have hget : (ids devices)[i] = record.deviceId := by simpa [ids] using hid
    rw [if_pos hmem, ids, List.map_set, ← hget]
    exact List.set_getElem_self hlt'
  next hnone =>
    have hnot : record.deviceId ∉ ids devices := by
      simpa [ids, List.findIdx?_eq_none_iff] using hnone
    rw [if_neg hnot]
    simp [ids]

theorem length_withRecord (record : DeviceRecord) : (withRecord devices record).length =
    if record.deviceId ∈ ids devices then devices.length else devices.length + 1 := by
  rw [← length_ids, ids_withRecord]
  split <;> simp

theorem nextActive_listed {newDevices : List DeviceRecord}
    (hnew : ids newDevices = (ids devices).filter (· ≠ deviceId))
    (h : ∀ id ∈ activeId, id ∈ ids devices) :
    ∀ id ∈ nextActive newDevices activeId deviceId, id ∈ ids newDevices := by
  intro id hid
  rw [nextActive] at hid
  split at hid
  next =>
    obtain ⟨d, hd, rfl⟩ := Option.map_eq_some_iff.mp hid
    exact List.mem_map_of_mem (List.mem_of_mem_head? hd)
  next hne =>
    rw [hnew]
    refine List.mem_filter.mpr ⟨h id hid, decide_eq_true ?_⟩
    rintro rfl
    exact hne hid

/-- What a mutator persists is a registry again. -/
theorem plan_wellFormed {m : Mutation} (h : WellFormed devices activeId)
    (hm : m.plan devices activeId = .ok (some (newDevices, newActive))) :
    WellFormed newDevices newActive := by
  cases m with
  | addDevice record =>
    simp only [Mutation.plan] at hm
    split at hm
    · cases hm
    next hroom =>
      cases hm
      refine ⟨?_, ?_, ?_⟩
      · rw [ids_withRecord]
        split
        · exact h.unique
        next hnot =>
          have hnew : ∀ id ∈ ids devices, id ≠ record.deviceId := by
            rintro _ hid rfl
            exact hnot hid
          exact List.nodup_append.mpr ⟨h.unique, by simp, by simpa using hnew⟩
      · rw [length_withRecord]
        split
        · exact h.limit
        next hnot =>
          have hlisted : listed devices record.deviceId = false := by
            rwa [← Bool.not_eq_true, listed_iff]
          by_contra hfull
          exact hroom ⟨by omega, hlisted⟩
      · intro id hid
        rw [ids_withRecord]
        split
        · exact h.active id hid
        · exact List.mem_append_left _ (h.active id hid)
  | removeDevice deviceId | revokeDevice deviceId _ =>
    simp only [Mutation.plan] at hm
    split at hm
    · cases hm
      refine ⟨?_, ?_, nextActive_listed ids_without h.active⟩
      · rw [ids_without]
        exact h.unique.filter _
      · exact (List.length_filter_le ..).trans h.limit
    · cases hm
  | setActiveDevice deviceId now =>
    simp only [Mutation.plan] at hm
    split at hm
    next hl =>
      cases hm
      refine ⟨by rw [ids_seen]; exact h.unique, by simpa [seen] using h.limit, fun id hid => ?_⟩
      cases hid
      rw [ids_seen]
      exact listed_iff.mp hl
    next => cases hm
  | updateDeviceLastSeen deviceId now =>
    simp only [Mutation.plan] at hm
    split at hm
    · cases hm
      exact ⟨by rw [ids_seen]; exact h.unique, by simpa [seen] using h.limit,
        fun id hid => by rw [ids_seen]; exact h.active id hid⟩
    · cases hm

end Mutations

def forgetKey (d : DeviceRecord) : DeviceRecord := { d with phoneStaticKey := [] }

theorem ids_map_forgetKey (devices : List DeviceRecord) :
    ids (devices.map forgetKey) = ids devices := by
  simp [ids, forgetKey, Function.comp_def]

namespace Registry

/-- What a call makes of the registry: nothing where it fails or returns early. -/
def perform (r : Registry) (m : Mutation) : Registry :=
  match h : m.plan r.devices r.activeId with
  | .ok (some (devices, activeId)) => ⟨devices, activeId, plan_wellFormed r.wellFormed h⟩
  | .ok none | .error _ => r

theorem perform_of_plan {r : Registry} {m : Mutation} {devices : List DeviceRecord}
    {activeId : Option Utf16} (h : m.plan r.devices r.activeId = .ok (some (devices, activeId))) :
    r.perform m = ⟨devices, activeId, plan_wellFormed r.wellFormed h⟩ := by
  unfold perform
  split
  next h' =>
    rw [h] at h'
    cases h'
    rfl
  next h' => cases h.symm.trans h'
  next h' => cases h.symm.trans h'

theorem perform_of_not_plan {r : Registry} {m : Mutation}
    (h : ∀ p, m.plan r.devices r.activeId ≠ .ok (some p)) : r.perform m = r := by
  unfold perform
  split
  next h' => exact absurd h' (h _)
  next => rfl
  next => rfl

/-- What is left of the registry without session storage. -/
def forgetKeys (r : Registry) : Registry where
  devices := r.devices.map forgetKey
  activeId := none
  wellFormed := ⟨by rw [ids_map_forgetKey]; exact r.wellFormed.unique,
    by rw [List.length_map]; exact r.wellFormed.limit, nofun⟩

def toCache (r : Registry) : Cache := .of r.devices r.activeId

end Registry

/-! ### Storage keeps the registry -/

theorem fromSerializable_toSerializable (d : DeviceRecord) :
    deviceFromSerializable (deviceToSerializable d) = d := by
  simp only [deviceFromSerializable, deviceToSerializable, uint8Array_arrayFrom]

theorem fromMeta_toMeta (d : DeviceRecord) : fromMeta (toMeta d) = forgetKey d := rfl

theorem ofSession_persisted (devices : List DeviceRecord) (activeId : Option Utf16) :
    ofSession (some (devices.map deviceToSerializable)) activeId =
      if devices = [] then none else some (.of devices activeId) := by
  cases devices with
  | nil => rfl
  | cons d ds =>
    simp [ofSession, fromSerializable_toSerializable, Function.comp_def]

theorem ofLocal_persisted (devices : List DeviceRecord) :
    ofLocal (some (devices.map toMeta)) = .of (devices.map forgetKey) none := by
  cases devices with
  | nil => rfl
  | cons d ds => simp [ofLocal, fromMeta_toMeta, Function.comp_def]

/-- An empty list is loaded by way of local storage, without an active device; a registry without
devices has none. -/
theorem loadFromStorage_persisted (r : Registry) {storage : Storage}
    (hsession : storage.sessionDevices = some (r.devices.map deviceToSerializable))
    (hactive : storage.sessionActive = r.activeId)
    (hlocal : storage.localMetas = some (r.devices.map toMeta)) :
    loadFromStorage storage = r.toCache := by
  rw [loadFromStorage, hsession, hactive, hlocal, ofSession_persisted, ofLocal_persisted]
  by_cases hd : r.devices = []
  · have hnone : r.activeId = none := by
      apply Option.eq_none_iff_forall_not_mem.mpr
      intro id hid
      simpa [hd, ids] using r.wellFormed.active id hid
    simp [Registry.toCache, hd, hnone]
  · simp [Registry.toCache, hd]

/-! ### The worker -/

structure Worker where
  cache : Cache := {}
  storage : Storage := {}
  deriving DecidableEq, Repr

namespace Worker

def ensureLoaded (w : Worker) : Worker :=
  if w.cache.initialized then w else { w with cache := loadFromStorage w.storage }

def listDevices (w : Worker) : List DeviceRecord := w.ensureLoaded.cache.devices.getD []

def getActiveDeviceId (w : Worker) : Option Utf16 := w.ensureLoaded.cache.activeId

/-- A mutator from its first line to its last. -/
def perform (w : Worker) (m : Mutation) : Except Failure Unit × Worker :=
  let w := w.ensureLoaded
  match w.cache.devices with
  | none => (.error .nullCache, w)
  | some devices =>
    match m.plan devices w.cache.activeId with
    | .error failure => (.error failure, w)
    | .ok none => (.ok (), w)
    | .ok (some (newDevices, newActive)) =>
      (.ok (), {
        cache := m.assign w.cache newDevices newActive
        storage := m.removeClient (persist (m.writePairing w.storage) newDevices newActive) })

/-- The service worker restarts. -/
def restart (w : Worker) : Worker := { w with cache := {} }

/-- The browser restarts, which clears session storage. -/
def browserRestart (w : Worker) : Worker := { storage := { localMetas := w.storage.localMetas } }

end Worker

inductive Event where
  | call (m : Mutation)
  | restart
  | browserRestart

def Worker.step (w : Worker) : Event → Option Worker
  | .call m => some (w.perform m).2
  | .restart => some w.restart
  | .browserRestart => some w.browserRestart

/-- The calls that do not assign `cachedActiveId` persist it as it is. -/
theorem assign_of_plan {m : Mutation} {devices newDevices : List DeviceRecord}
    {activeId newActive : Option Utf16}
    (h : m.plan devices activeId = .ok (some (newDevices, newActive))) :
    m.assign (.of devices activeId) newDevices newActive = .of newDevices newActive := by
  cases m with
  | addDevice record | updateDeviceLastSeen deviceId now =>
    simp only [Mutation.plan] at h
    split at h <;> cases h
    rfl
  | removeDevice | setActiveDevice | revokeDevice => rfl

theorem persisted_fields (m : Mutation) (storage : Storage) (devices : List DeviceRecord)
    (activeId : Option Utf16) :
    let stored := m.removeClient (persist (m.writePairing storage) devices activeId)
    stored.sessionDevices = some (devices.map deviceToSerializable) ∧
      stored.sessionActive = activeId ∧ stored.localMetas = some (devices.map toMeta) := by
  cases m <;> exact ⟨rfl, rfl, rfl⟩

/-- The cache, if there is one, and the two storages keep the registry `r`. -/
structure Represents (w : Worker) (r : Registry) : Prop where
  cached : w.cache.initialized = true → w.cache = r.toCache
  stored : loadFromStorage w.storage = r.toCache
  kept : ofLocal w.storage.localMetas = r.forgetKeys.toCache

namespace Represents

variable {w : Worker} {r : Registry}

theorem init : Represents {} .empty := ⟨nofun, rfl, rfl⟩

theorem ensureLoaded (h : Represents w r) : w.ensureLoaded = { w with cache := r.toCache } := by
  rw [Worker.ensureLoaded]
  split
  next hi => rw [← h.cached hi]
  next => rw [h.stored]

theorem listDevices (h : Represents w r) : w.listDevices = r.devices := by
  rw [Worker.listDevices, h.ensureLoaded]
  rfl

theorem getActiveDeviceId (h : Represents w r) : w.getActiveDeviceId = r.activeId := by
  rw [Worker.getActiveDeviceId, h.ensureLoaded]
  rfl

theorem restart (h : Represents w r) : Represents w.restart r := ⟨nofun, h.stored, h.kept⟩

theorem browserRestart (h : Represents w r) : Represents w.browserRestart r.forgetKeys where
  cached := nofun
  stored := h.kept
  kept := by
    apply h.kept.trans
    simp only [Registry.toCache, Registry.forgetKeys, List.map_map]
    rfl

/-- A call does to cache and storages what it does to the registry. -/
theorem perform (h : Represents w r) (m : Mutation) :
    Represents (w.perform m).2 (r.perform m) ∧
      (w.perform m).1 = (m.plan r.devices r.activeId).map fun _ => () := by
  have hloaded : Represents { w with cache := r.toCache } r := ⟨fun _ => rfl, h.stored, h.kept⟩
  have hdevices : r.toCache.devices = some r.devices := rfl
  have hactive : r.toCache.activeId = r.activeId := rfl
  simp only [Worker.perform, h.ensureLoaded, hdevices, hactive]
  cases hplan : m.plan r.devices r.activeId with
  | error failure =>
    rw [Registry.perform_of_not_plan (by simp [hplan])]
    exact ⟨hloaded, rfl⟩
  | ok p =>
    cases p with
    | none =>
      rw [Registry.perform_of_not_plan (by simp [hplan])]
      exact ⟨hloaded, rfl⟩
    | some p =>
      obtain ⟨newDevices, newActive⟩ := p
      obtain ⟨hsession, hact, hlocal⟩ :=
        persisted_fields m w.storage newDevices newActive
      rw [Registry.perform_of_plan hplan]
      refine ⟨⟨fun _ => assign_of_plan hplan, ?_, ?_⟩, rfl⟩
      · exact loadFromStorage_persisted ⟨newDevices, newActive, _⟩ hsession hact hlocal
      · rw [hlocal, ofLocal_persisted]
        rfl

theorem step {e : Event} {t : Worker} (h : Represents w r) (hs : w.step e = some t) :
    ∃ r', Represents t r' := by
  cases e with
  | call m =>
    obtain rfl := Option.some.inj hs
    exact ⟨_, (h.perform m).1⟩
  | restart =>
    obtain rfl := Option.some.inj hs
    exact ⟨_, h.restart⟩
  | browserRestart =>
    obtain rfl := Option.some.inj hs
    exact ⟨_, h.browserRestart⟩

end Represents

theorem represents_of_run {es : List Event} {w : Worker} (run : Machine.Run Worker.step {} es w) :
    ∃ r, Represents w r :=
  run.invariant_all (I := fun w => ∃ r, Represents w r) ⟨_, .init⟩ fun _ _ _ ⟨_, h⟩ => h.step

/-- A call succeeds, or fails for want of room or of the device. -/
def Documented (devices : List DeviceRecord) : Mutation → Except Failure Unit → Prop
  | _, .ok () => True
  | .addDevice record, .error failure => failure = .thrown limitReached ∧
      maxDevices ≤ devices.length ∧ record.deviceId ∉ ids devices
  | .removeDevice deviceId, .error failure | .setActiveDevice deviceId _, .error failure
  | .revokeDevice deviceId _, .error failure =>
      failure = .thrown (notFound deviceId) ∧ deviceId ∉ ids devices
  | .updateDeviceLastSeen .., .error _ => False

theorem documented_plan (m : Mutation) (devices : List DeviceRecord) (activeId : Option Utf16) :
    Documented devices m ((m.plan devices activeId).map fun _ => ()) := by
  cases m with
  | addDevice record =>
    simp only [Mutation.plan]
    split
    next h =>
      refine ⟨rfl, h.1, ?_⟩
      intro hmem
      rw [← listed_iff, h.2] at hmem
      cases hmem
    next => trivial
  | removeDevice deviceId | setActiveDevice deviceId now | revokeDevice deviceId newKeyPair =>
    simp only [Mutation.plan]
    split
    next => trivial
    next h => exact ⟨rfl, fun hmem => h (listed_iff.mpr hmem)⟩
  | updateDeviceLastSeen deviceId now =>
    simp only [Mutation.plan]
    split <;> trivial

/-- The ids are unique and at most five, the active one is listed, a restart loads what is cached
(without the keys and the active device if it is one of the browser), and calls fail for the
documented reasons only. -/
structure Kept (w : Worker) : Prop where
  unique : (ids w.listDevices).Nodup
  limit : w.listDevices.length ≤ maxDevices
  active : ∀ id ∈ w.getActiveDeviceId, id ∈ ids w.listDevices
  reload : w.cache.initialized = true → loadFromStorage w.storage = w.cache
  restart : w.restart.ensureLoaded.cache = w.ensureLoaded.cache
  browserRestart : w.browserRestart.ensureLoaded.cache = .of (w.listDevices.map forgetKey) none
  documented : ∀ m, Documented w.listDevices m (w.perform m).1

theorem Represents.toKept {w : Worker} {r : Registry} (h : Represents w r) : Kept w where
  unique := by rw [h.listDevices]; exact r.wellFormed.unique
  limit := by rw [h.listDevices]; exact r.wellFormed.limit
  active := by rw [h.listDevices, h.getActiveDeviceId]; exact r.wellFormed.active
  reload hi := by rw [h.stored, h.cached hi]
  restart := by rw [h.restart.ensureLoaded, h.ensureLoaded]
  browserRestart := by rw [h.browserRestart.ensureLoaded, h.listDevices]; rfl
  documented m := by
    rw [h.listDevices, (h.perform m).2]
    exact documented_plan m r.devices r.activeId

/-- From empty storage on, whatever calls and restarts follow one another. -/
theorem registry_kept {es : List Event} {w : Worker} (run : Machine.Run Worker.step {} es w) :
    Kept w := by
  obtain ⟨r, h⟩ := represents_of_run run
  exact h.toKept

def phone (n : UInt16) : DeviceRecord where
  deviceId := [n]
  name := [n]
  phoneStaticKey := [UInt8.ofNat n.toNat]
  lastSeen := 0
  pairedAt := 0
  isPrimary := true

/-- Two phones, the first of them active; one of them is left after a restart of the browser. -/
def twoPhones : List Event :=
  [.call (.addDevice (phone 1)), .call (.addDevice (phone 2)), .call (.setActiveDevice [1] 7),
   .browserRestart, .call (.removeDevice [1]), .restart]

theorem two_phones_kept : ∃ w, Machine.Run Worker.step {} twoPhones w ∧ Kept w := by
  have run : Machine.Run Worker.step {} twoPhones _ := Machine.run_of_exec rfl
  exact ⟨_, run, registry_kept run⟩

end SmartIdVault.DeviceRegistry
