import Mathlib.Data.List.Nodup
import SmartIdVault.DeviceRegistry.Failures
import SmartIdVault.Lib.Numbering
import SmartIdVault.Lib.Sha256
import SmartIdVault.Pairing.Background

/-! `confirmSasMatch` of `pairingCoordinator.ts` from its first line to its last, with any of its
calls failing.  It stores the pairing, adds the device and makes it the active one, and only a
failure of the second of these is rolled back, by removing the pairing altogether. -/

namespace SmartIdVault.Pairing

open Faults (Result call andThen)
open DeviceRegistry (DeviceRecord Storage Worker Faulty StorageCall Rejection maxDevices
  persistSession withRecord)
open Utf16 (ofString)

/-! ### Ids and names of devices -/

def hexDigit (n : Nat) : UInt16 := UInt16.ofNat (if n < 10 then 48 + n else 87 + n)

/-- `deriveDeviceId`: the first eight bytes of the hash in hexadecimal. -/
def deriveDeviceId (sha256 : Bytes → Bytes) (phoneStaticKey : Bytes) : Utf16 :=
  ((sha256 phoneStaticKey).take 8).flatMap fun b =>
    [hexDigit (b.toNat / 16), hexDigit (b.toNat % 16)]

def phoneName (counter : Nat) : Utf16 := ofString ("Phone " ++ toString counter)

/-- The loop of `resolveDeviceName`; `fuel` is as many turns as there are names. -/
def firstFree (names : List Utf16) : Nat → Nat → Nat
  | 0, counter => counter
  | fuel + 1, counter =>
    if names.contains (phoneName counter) then firstFree names fuel (counter + 1) else counter

/-- `resolveDeviceName` without the name of a phone. -/
def resolveDeviceName (devices : List DeviceRecord) : Utf16 :=
  let names := devices.map DeviceRecord.name
  phoneName (firstFree names names.length (devices.length + 1))

theorem phoneName_injective : Function.Injective phoneName := by
  intro m n h
  have hname : "Phone " ++ toString m = "Phone " ++ toString n := Utf16.ofString_inj h
  have hdigits : toString m = toString n := by
    simpa [← String.toList_inj] using congrArg String.toList hname
  exact Utf16.decimal_inj (congrArg ofString hdigits)

/-- The turns that are counted are enough. -/
theorem firstFree_eq {names : List Utf16} {fuel counter n : Nat}
    (h : Numbering.countUp (fun counter => names.contains (phoneName counter)) fuel counter =
      some n) :
    firstFree names fuel counter = n := by
  induction fuel generalizing counter with
  | zero =>
    rw [Numbering.countUp] at h
    split at h
    · cases h
    · exact Option.some.inj h
  | succ fuel ih =>
    rw [Numbering.countUp] at h
    rw [firstFree]
    split at h
    · rename_i htaken
      rw [if_pos htaken]
      exact ih h
    · rename_i hfree
      rw [if_neg hfree]
      exact Option.some.inj h

theorem resolveDeviceName_not_mem (devices : List DeviceRecord) :
    resolveDeviceName devices ∉ devices.map DeviceRecord.name := by
  obtain ⟨n, hn, hfree⟩ := Numbering.exists_countUp_names phoneName_injective
    (devices.map DeviceRecord.name) (devices.length + 1)
  rw [resolveDeviceName, firstFree_eq (hn _ le_rfl)]
  exact hfree

/-! ### The state and the calls -/

/-- The awaited calls of `confirmSasMatch`: the hash of `deriveDeviceId`, the reads of `getDevice`,
the write of `completePairing`, the calls of `addDevice` and of `setActiveDevice`, the two calls of
`clearPairing`, and those after the device has been registered.  `encrypt` is the one call among
them that throws at once. -/
inductive ConfirmCall
  | digest
  | load (c : StorageCall)
  | completeSet
  | add (c : StorageCall)
  | activate (c : StorageCall)
  | clearRemove
  | closeDocument
  | emojiRemove
  | encrypt
  | createTab
  | prfDigest
  | createPrfTab
  deriving DecidableEq, Repr

/-- The pages that `confirmSasMatch` opens. -/
inductive Page
  | passkeyCreate
  | prfCreate (remoteStaticPk : Bytes)
  deriving DecidableEq, Repr

/-- What `confirmSasMatch` works on: the registry with the two storages, the module-level variables,
the emoji in session storage, the offscreen document, and what has been sent and opened. -/
structure Pairer where
  registry : Worker := {}
  activeSession : Option PairingSession := none
  currentSession : Option NoiseSession := none
  commandClient : Bool := false
  pendingRemoteStaticPk : Option Bytes := none
  negotiatedCaps : Option ProtocolCapabilities := none
  emojiSas : Bool := false
  offscreenDocument : Bool := false
  usbActive : Bool := false
  sent : List Message := []
  pages : List Page := []

/-- What a call finds outside of the worker's state. -/
structure Surroundings where
  sha256 : Bytes → Bytes
  prfSupport : Bool
  lastSeen : Int
  pairedAt : Int
  activatedAt : Int

/-- Where `confirmSasMatch` ends with `false`. -/
inductive Stop
  | limitReached
  | rolledBack
  | thrown
  deriving DecidableEq, Repr

def withPairing (storage : Storage) (pairing : Option CachedPairing) (commandClient : Bool) :
    Storage :=
  { storage with pairing, commandClient }

namespace Pairer

variable (fails : ConfirmCall → Bool) (env : Surroundings)

def setPairing (s : Pairer) (pairing : Option CachedPairing) (client : Bool) : Pairer :=
  { s with registry.storage := withPairing s.registry.storage pairing client }

/-- `startPairing` is refused with `Pairing session already in progress`. -/
def refusesPairing (s : Pairer) : Bool := s.activeSession.isSome

def completePairing (remoteStaticPk : Bytes) (s : Pairer) : Result Stop Pairer :=
  match s.activeSession with
  | none => (.error .thrown, s)
  | some active =>
    andThen (call fails .completeSet .thrown
        (·.setPairing (some (toCachedPairing active.localStaticKey remoteStaticPk)) true) s)
      fun s => (.ok (), { s with activeSession := none })

def closeOffscreenDocument (s : Pairer) : Pairer :=
  if s.usbActive then s else { s with offscreenDocument := false }

@[simp] theorem closeOffscreenDocument_registry (s : Pairer) :
    s.closeOffscreenDocument.registry = s.registry := by
  rw [closeOffscreenDocument]
  split <;> rfl

def clearPairing (s : Pairer) : Result Stop Pairer :=
  andThen (call fails .clearRemove .thrown (·.setPairing none false) s) fun s =>
    andThen (call fails .closeDocument .thrown closeOffscreenDocument s) fun s =>
      (.ok (), { s with activeSession := none })

/-- A call of the device registry. -/
def onRegistry (f : Worker → Result Rejection Worker) (s : Pairer) : Result Stop Pairer :=
  match f s.registry with
  | (.ok (), registry) => (.ok (), { s with registry })
  | (.error _, registry) => (.error .thrown, { s with registry })

/-- The message `pairing-confirmed`. -/
def notify (s : Pairer) : Pairer :=
  if s.commandClient && !fails .encrypt then
    { s with sent := s.sent ++ [.pairingConfirmed s.negotiatedCaps] }
  else s

def fallbackToPrfOnly (remoteStaticPk : Bytes) (s : Pairer) : Pairer :=
  if env.prfSupport && !fails .prfDigest && !fails .createPrfTab then
    { s with pages := s.pages ++ [.prfCreate remoteStaticPk] }
  else s

def openPage (remoteStaticPk : Bytes) (s : Pairer) : Pairer :=
  if fails .createTab then
    { s.fallbackToPrfOnly fails env remoteStaticPk with pendingRemoteStaticPk := none }
  else { s with pages := s.pages ++ [.passkeyCreate] }

/-- The record of the new device, made when `devices` are listed. -/
def deviceRecord (remoteStaticPk : Bytes) (devices : List DeviceRecord) : DeviceRecord where
  deviceId := deriveDeviceId env.sha256 remoteStaticPk
  name := resolveDeviceName devices
  phoneStaticKey := remoteStaticPk
  lastSeen := env.lastSeen
  pairedAt := env.pairedAt
  isPrimary := devices.length = 0

/-- From the lookup of the device to the write of the pairing. -/
def prepare (remoteStaticPk : Bytes) (s : Pairer) : Result Stop Pairer :=
  andThen (call fails .digest .thrown id s) fun s =>
    andThen (s.onRegistry (Faulty.ensureLoaded fun c => fails (.load c))) fun s =>
      match s.registry.cache.devices with
      | none => (.error .thrown, s)
      | some devices =>
        if !DeviceRegistry.listed devices (deriveDeviceId env.sha256 remoteStaticPk) &&
            maxDevices ≤ devices.length then (.error .limitReached, s)
        else completePairing fails remoteStaticPk s

/-- `addDevice`, and `clearPairing` if that fails. -/
def add (remoteStaticPk : Bytes) (s : Pairer) : Result Stop Pairer :=
  let record := deviceRecord env remoteStaticPk (s.registry.cache.devices.getD [])
  match Faulty.perform (fun c => fails (.add c)) (.addDevice record) s.registry with
  | (.ok (), registry) => (.ok (), { s with registry })
  | (.error _, registry) =>
    andThen (clearPairing fails { s with registry }) fun s => (.error .rolledBack, s)

def finish (remoteStaticPk : Bytes) (s : Pairer) : Result Stop Pairer :=
  if s.currentSession.isSome then
    andThen (call fails .emojiRemove .thrown (fun s => { s with emojiSas := false }) s) fun s =>
      (.ok (), (s.notify fails).openPage fails env remoteStaticPk)
  else (.ok (), { s with pendingRemoteStaticPk := none })

def confirm (remoteStaticPk : Bytes) (s : Pairer) : Result Stop Pairer :=
  andThen (s.prepare fails env remoteStaticPk) fun s =>
    andThen (s.add fails env remoteStaticPk) fun s =>
      andThen (s.onRegistry (Faulty.perform (fun c => fails (.activate c))
          (.setActiveDevice (deriveDeviceId env.sha256 remoteStaticPk) env.activatedAt)))
        (finish fails env remoteStaticPk)

def confirmSasMatch (s : Pairer) : Bool × Pairer :=
  match s.pendingRemoteStaticPk with
  | none => (false, s)
  | some remoteStaticPk =>
    match s.confirm fails env remoteStaticPk with
    | (.ok (), s) => (true, s)
    | (.error _, s) => (false, s)

/-! ### What a failed confirmation leaves -/

/-- The registry, the pairing and the flag are as they were in `s`, an unloaded cache apart that has
been loaded, and `startPairing` is not refused. -/
structure RolledBack (s t : Pairer) : Prop where
  registry : t.registry.ensureLoaded = s.registry.ensureLoaded
  startable : t.refusesPairing = false

/-- The confirmation gets as far as `addDevice`. -/
structure Paired (remoteStaticPk : Bytes) (s : Pairer) (active : PairingSession)
    (devices : List DeviceRecord) : Prop where
  digest : fails .digest = false
  load : ∀ c ∈ s.registry.loadCalls, fails (.load c) = false
  listed : s.registry.ensureLoaded.cache.devices = some devices
  room : DeviceRegistry.listed devices (deriveDeviceId env.sha256 remoteStaticPk) = true ∨
    devices.length < maxDevices
  active : s.activeSession = some active
  completeSet : fails .completeSet = false

/-- The state in which `addDevice` is called. -/
def paired (remoteStaticPk : Bytes) (s : Pairer) (active : PairingSession) : Pairer :=
  { setPairing { s with registry := s.registry.ensureLoaded }
      (some (toCachedPairing active.localStaticKey remoteStaticPk)) true with
    activeSession := none }

/-- `addDevice` fails, at its second write only if session storage lists the new record already, and
the pairing and the flag are what the rollback leaves of them. -/
structure PutBack (remoteStaticPk : Bytes) (s : Pairer) (active : PairingSession)
    (devices : List DeviceRecord) : Prop where
  added : fails (.add .sessionSet) = true ∨ fails (.add .localSet) = true ∧
    s.registry.ensureLoaded.SessionStored devices
      (.addDevice (deviceRecord env remoteStaticPk devices))
  pairing : s.registry.storage.pairing = if fails .clearRemove then
    some (toCachedPairing active.localStaticKey remoteStaticPk) else none
  client : s.registry.storage.commandClient = fails .clearRemove

/-- No call fails that can make the confirmation return `false` once `addDevice` is called. -/
structure Completes (s : Pairer) : Prop where
  add : fails (.add .sessionSet) = false ∧ fails (.add .localSet) = false
  activate : fails (.activate .sessionSet) = false ∧ fails (.activate .localSet) = false
  emojiRemove : s.currentSession.isSome = true → fails .emojiRemove = false

section Prepare

variable {fails env} {remoteStaticPk : Bytes} {s : Pairer} {active : PairingSession}
  {devices : List DeviceRecord}

theorem prepare_of_paired (h : Paired fails env remoteStaticPk s active devices) :
    s.prepare fails env remoteStaticPk = (.ok (), s.paired remoteStaticPk active) := by
  have hload : Faulty.ensureLoaded (fun c => fails (.load c)) s.registry =
      (.ok (), s.registry.ensureLoaded) := DeviceRegistry.ensureLoaded_of_not_fails h.load
  have hroom : (!DeviceRegistry.listed devices (deriveDeviceId env.sha256 remoteStaticPk) &&
      decide (maxDevices ≤ devices.length)) = false := by
    rcases h.room with hl | hl
    · simp [hl]
    · simp [Nat.not_le.mpr hl]
  simp only [prepare, Faults.call_of_not_fails h.digest, Faults.andThen_ok, onRegistry, id_eq,
    hload, h.listed, hroom, completePairing, h.active, Faults.call_of_not_fails h.completeSet]
  rfl

/-- Before `addDevice` nothing but the cache changes. -/
theorem prepare_of_not_paired (h : ∀ active devices,
    ¬Paired fails env remoteStaticPk s active devices) :
    ∃ e t, s.prepare fails env remoteStaticPk = (.error e, t) ∧
      t.registry.ensureLoaded = s.registry.ensureLoaded ∧ t.activeSession = s.activeSession := by
  by_cases hdigest : fails .digest = true
  · exact ⟨.thrown, s, by simp [prepare, hdigest], rfl, rfl⟩
  rw [Bool.not_eq_true] at hdigest
  by_cases hload : ∀ c ∈ s.registry.loadCalls, fails (.load c) = false
  · have hloaded : Faulty.ensureLoaded (fun c => fails (.load c)) s.registry =
        (.ok (), s.registry.ensureLoaded) := DeviceRegistry.ensureLoaded_of_not_fails hload
    have hsame : s.registry.ensureLoaded.ensureLoaded = s.registry.ensureLoaded :=
      DeviceRegistry.ensureLoaded_of_initialized (DeviceRegistry.initialized_ensureLoaded _)
    simp only [prepare, Faults.call_of_not_fails hdigest, Faults.andThen_ok, onRegistry, id_eq,
      hloaded]
    split
    · exact ⟨_, _, rfl, hsame, rfl⟩
    · rename_i devices hdevices
      split
      · exact ⟨_, _, rfl, hsame, rfl⟩
      · rename_i hroom
        rw [completePairing]
        split
        · exact ⟨_, _, rfl, hsame, rfl⟩
        · rename_i active hactive
          by_cases hset : fails .completeSet = true
          · rw [Faults.call_of_fails hset, Faults.andThen_error]
            exact ⟨_, _, rfl, hsame, rfl⟩
          · rw [Bool.not_eq_true] at hset
            refine absurd ⟨hdigest, hload, hdevices, ?_, hactive, hset⟩ (h active devices)
            simpa [or_iff_not_imp_left] using hroom
  · obtain ⟨c, -, hfail⟩ := DeviceRegistry.exists_ensureLoaded_eq_error hload
    refine ⟨.thrown, s, ?_, rfl, rfl⟩
    simp only [prepare, Faults.call_of_not_fails hdigest, Faults.andThen_ok, onRegistry, id_eq,
      hfail, Faults.andThen_error]

end Prepare

section Register

variable {fails env} {remoteStaticPk : Bytes} {s : Pairer} {active : PairingSession}
  {devices : List DeviceRecord}

theorem withPairing_eq_iff {x storage : Storage} {pairing : Option CachedPairing} {client : Bool}
    (hp : x.pairing = storage.pairing) (hc : x.commandClient = storage.commandClient) :
    withPairing x pairing client = storage ↔
      x = storage ∧ storage.pairing = pairing ∧ storage.commandClient = client := by
  constructor
  · rintro rfl
    have hx : withPairing x pairing client = x := by
      rw [withPairing]
      rw [withPairing] at hp hc
      simp only at hp hc
      rw [← hp, ← hc]
    exact ⟨hx.symm, rfl, rfl⟩
  · rintro ⟨rfl, rfl, rfl⟩
    rfl

/-- The end of `addDevice` that has failed: the pairing is removed, or that fails too. -/
theorem rollback_eq (hs : s.activeSession = none) :
    ∃ e t, andThen (clearPairing fails s) (fun s => (.error .rolledBack, s)) = (.error e, t) ∧
      t.activeSession = none ∧ t.registry = if fails .clearRemove then s.registry else
        { s.registry with storage := withPairing s.registry.storage none false } := by
  by_cases hremove : fails .clearRemove = true
  · refine ⟨.thrown, s, ?_, hs, by rw [if_pos hremove]⟩
    rw [clearPairing, Faults.call_of_fails hremove, Faults.andThen_error, Faults.andThen_error]
  · rw [Bool.not_eq_true] at hremove
    by_cases hclose : fails .closeDocument = true
    · refine ⟨.thrown, s.setPairing none false, ?_, hs, ?_⟩
      · simp only [clearPairing, Faults.call_of_not_fails hremove, Faults.andThen_ok,
          Faults.call_of_fails hclose, Faults.andThen_error]
      · simp [hremove, setPairing]
    · rw [Bool.not_eq_true] at hclose
      refine ⟨.rolledBack, { (s.setPairing none false).closeOffscreenDocument with
        activeSession := none }, ?_, rfl, ?_⟩
      · simp only [clearPairing, Faults.call_of_not_fails hremove, Faults.andThen_ok,
          Faults.call_of_not_fails hclose]
      · simp [hremove, setPairing]

theorem plan_addDevice (h : Paired fails env remoteStaticPk s active devices)
    (activeId : Option Utf16) :
    DeviceRegistry.Mutation.plan devices activeId
        (.addDevice (deviceRecord env remoteStaticPk devices)) =
      .ok (some (withRecord devices (deviceRecord env remoteStaticPk devices), activeId)) := by
  have hroom := h.room
  rw [DeviceRegistry.Mutation.plan, if_neg]
  rintro ⟨hfull, hnew⟩
  rcases hroom with hl | hl
  · rw [deviceRecord, hl] at hnew
    cases hnew
  · omega

/-- `addDevice` as `confirmSasMatch` calls it. -/
theorem perform_addDevice (h : Paired fails env remoteStaticPk s active devices) :
    Faulty.perform (fun c => fails (.add c))
        (.addDevice (deviceRecord env remoteStaticPk devices))
        (s.paired remoteStaticPk active).registry =
      andThen (Faulty.persist (fun c => fails (.add c))
        (withRecord devices (deviceRecord env remoteStaticPk devices))
        s.registry.ensureLoaded.cache.activeId (s.paired remoteStaticPk active).registry) fun w =>
        (.ok (), { w with cache := { w.cache with
          devices := some (withRecord devices (deviceRecord env remoteStaticPk devices)) } }) := by
  exact DeviceRegistry.perform_of_loaded (w := (s.paired remoteStaticPk active).registry)
    (DeviceRegistry.initialized_ensureLoaded s.registry) h.listed (plan_addDevice h _)

theorem rolledBack_iff {t : Pairer} (hc : t.registry.cache = s.registry.ensureLoaded.cache)
    (ha : t.activeSession = none) :
    RolledBack s t ↔ t.registry.storage = s.registry.storage := by
  have hi : t.registry.cache.initialized = true := by
    rw [hc]
    exact DeviceRegistry.initialized_ensureLoaded _
  have ht := DeviceRegistry.ensureLoaded_of_initialized hi
  constructor
  · intro h
    have hsame := congrArg Worker.storage h.registry
    rwa [DeviceRegistry.ensureLoaded_storage, DeviceRegistry.ensureLoaded_storage] at hsame
  · intro h
    refine ⟨?_, by rw [refusesPairing, ha]; rfl⟩
    rw [ht]
    exact DeviceRegistry.worker_eq hc (by rw [DeviceRegistry.ensureLoaded_storage, h])

/-- `addDevice` has failed when `x` was in storage, apart from the pairing. -/
theorem failed_add {x : Storage} {registry : Worker}
    (hp : x.pairing = s.registry.storage.pairing)
    (hc : x.commandClient = s.registry.storage.commandClient)
    (hw : registry = { s.registry.ensureLoaded with
      storage :=
        withPairing x (some (toCachedPairing active.localStaticKey remoteStaticPk)) true }) :
    ∃ e t, andThen (clearPairing fails { s.paired remoteStaticPk active with registry })
        (fun s => (.error .rolledBack, s)) = (.error e, t) ∧
      (RolledBack s t ↔ x = s.registry.storage ∧
        s.registry.storage.pairing = (if fails .clearRemove then
          some (toCachedPairing active.localStaticKey remoteStaticPk) else none) ∧
        s.registry.storage.commandClient = fails .clearRemove) := by
  obtain ⟨e, t, heq, ha, hr⟩ :=
    @rollback_eq fails { s.paired remoteStaticPk active with registry } rfl
  refine ⟨e, t, heq, ?_⟩
  by_cases hremove : fails .clearRemove = true
  · rw [if_pos hremove] at hr
    rw [rolledBack_iff (by rw [hr, hw]) ha, hr, if_pos hremove, hremove, hw]
    exact withPairing_eq_iff hp hc
  · rw [if_neg hremove] at hr
    rw [Bool.not_eq_true] at hremove
    rw [rolledBack_iff (by rw [hr, hw]) ha, hr, hremove, hw]
    exact withPairing_eq_iff hp hc

theorem persistSession_record_iff (h : Paired fails env remoteStaticPk s active devices) :
    persistSession s.registry.storage (withRecord devices (deviceRecord env remoteStaticPk devices))
        s.registry.ensureLoaded.cache.activeId = s.registry.storage ↔
      s.registry.ensureLoaded.SessionStored devices
        (.addDevice (deviceRecord env remoteStaticPk devices)) := by
  rw [DeviceRegistry.sessionStored_iff (plan_addDevice h _), ← DeviceRegistry.persistSession_eq_iff,
    DeviceRegistry.ensureLoaded_storage]

theorem add_cases (h : Paired fails env remoteStaticPk s active devices) :
    ((fails (.add .sessionSet) = false ∧ fails (.add .localSet) = false) ∧
      ∃ t, (s.paired remoteStaticPk active).add fails env remoteStaticPk = (.ok (), t) ∧
        t.registry.cache = { s.registry.ensureLoaded.cache with
          devices := some (withRecord devices (deviceRecord env remoteStaticPk devices)) } ∧
        t.currentSession = s.currentSession) ∨
    (¬(fails (.add .sessionSet) = false ∧ fails (.add .localSet) = false) ∧
      ∃ e t, (s.paired remoteStaticPk active).add fails env remoteStaticPk = (.error e, t) ∧
        (RolledBack s t ↔ PutBack fails env remoteStaticPk s active devices)) := by
  have hdevices : (s.paired remoteStaticPk active).registry.cache.devices = some devices := h.listed
  simp only [add, hdevices, Option.getD_some, perform_addDevice h, DeviceRegistry.persist_eq]
  by_cases hsession : fails (.add .sessionSet) = true
  · right
    obtain ⟨e, t, heq, hiff⟩ :=
      @failed_add fails remoteStaticPk s active s.registry.storage
        (s.paired remoteStaticPk active).registry rfl rfl
        (by rw [paired, setPairing, DeviceRegistry.ensureLoaded_storage])
    simp only [hsession, if_true, Faults.andThen_error]
    refine ⟨by simp, e, t, heq, hiff.trans ?_⟩
    constructor
    · rintro ⟨-, hp, hc⟩
      exact ⟨.inl hsession, hp, hc⟩
    · rintro ⟨-, hp, hc⟩
      exact ⟨rfl, hp, hc⟩
  · rw [Bool.not_eq_true] at hsession
    by_cases hlocal : fails (.add .localSet) = true
    · right
      obtain ⟨e, t, heq, hiff⟩ := @failed_add fails remoteStaticPk s active
        (persistSession s.registry.storage
          (withRecord devices (deviceRecord env remoteStaticPk devices))
          s.registry.ensureLoaded.cache.activeId) _ rfl rfl rfl
      simp only [hsession, hlocal, if_true, Bool.false_eq_true, if_false, Faults.andThen_error]
      refine ⟨by simp, e, t, ?_, hiff.trans ?_⟩
      · rw [← heq]
        simp only [paired, setPairing, DeviceRegistry.ensureLoaded_storage]
        rfl
      constructor
      · rintro ⟨hx, hp, hc⟩
        exact ⟨.inr ⟨hlocal, (persistSession_record_iff h).mp hx⟩, hp, hc⟩
      · rintro ⟨hadded, hp, hc⟩
        refine ⟨?_, hp, hc⟩
        rcases hadded with h' | ⟨-, hx⟩
        · rw [hsession] at h'
          cases h'
        · exact (persistSession_record_iff h).mpr hx
    · left
      rw [Bool.not_eq_true] at hlocal
      simp only [hsession, hlocal, Bool.false_eq_true, if_false, Faults.andThen_ok]
      exact ⟨⟨trivial, trivial⟩, _, rfl, rfl, rfl⟩

theorem mem_withRecord (record : DeviceRecord) : record ∈ withRecord devices record := by
  rw [withRecord]
  split
  · rename_i i hi
    obtain ⟨hlt, -⟩ := List.findIdx?_eq_some_iff_getElem.mp hi
    exact List.mem_set hlt record
  · exact List.mem_append_right _ (List.mem_singleton_self record)

theorem map_name_seen (deviceId : Utf16) (now : Int) :
    (DeviceRegistry.seen devices deviceId now).map DeviceRecord.name =
      devices.map DeviceRecord.name := by
  rw [DeviceRegistry.seen, List.map_map]
  apply List.map_congr_left
  intro d _
  rw [Function.comp]
  split <;> rfl

/-- A registry that lists the new name is not the one from before. -/
theorem not_rolledBack {t : Pairer} {ds : List DeviceRecord}
    (hs : s.registry.ensureLoaded.cache.devices = some devices)
    (hi : t.registry.cache.initialized = true) (hd : t.registry.cache.devices = some ds)
    (hname : resolveDeviceName devices ∈ ds.map DeviceRecord.name) : ¬RolledBack s t := by
  intro h
  have hsame := congrArg (·.cache.devices) h.registry
  simp only [DeviceRegistry.ensureLoaded_of_initialized hi, hd, hs, Option.some.injEq] at hsame
  rw [hsame] at hname
  exact resolveDeviceName_not_mem devices hname

theorem finish_cases :
    ((s.currentSession.isSome = true → fails .emojiRemove = false) ∧
      ∃ t, s.finish fails env remoteStaticPk = (.ok (), t)) ∨
    ((s.currentSession.isSome = true ∧ fails .emojiRemove = true) ∧
      s.finish fails env remoteStaticPk = (.error .thrown, s)) := by
  rw [finish]
  split
  · rename_i hs
    by_cases he : fails .emojiRemove = true
    · refine .inr ⟨⟨hs, he⟩, ?_⟩
      rw [Faults.call_of_fails he, Faults.andThen_error]
    · rw [Bool.not_eq_true] at he
      refine .inl ⟨fun _ => he, ?_⟩
      rw [Faults.call_of_not_fails he, Faults.andThen_ok]
      exact ⟨_, rfl⟩
  · rename_i hs
    exact .inl ⟨fun h => absurd h hs, _, rfl⟩

/-- The device is added, and becomes the active one or does not. -/
theorem activate_cases {u : Pairer} {ds : List DeviceRecord}
    (hi : u.registry.cache.initialized = true) (hd : u.registry.cache.devices = some ds)
    (hl : DeviceRegistry.listed ds (deriveDeviceId env.sha256 remoteStaticPk) = true) :
    ((fails (.activate .sessionSet) = false ∧ fails (.activate .localSet) = false) ∧
      ∃ t, u.onRegistry (Faulty.perform (fun c => fails (.activate c)) (.setActiveDevice
          (deriveDeviceId env.sha256 remoteStaticPk) env.activatedAt)) = (.ok (), t) ∧
        t.registry.cache.initialized = true ∧
        t.registry.cache.devices = some (DeviceRegistry.seen ds
          (deriveDeviceId env.sha256 remoteStaticPk) env.activatedAt) ∧
        t.currentSession = u.currentSession) ∨
    (¬(fails (.activate .sessionSet) = false ∧ fails (.activate .localSet) = false) ∧
      ∃ e t, u.onRegistry (Faulty.perform (fun c => fails (.activate c)) (.setActiveDevice
          (deriveDeviceId env.sha256 remoteStaticPk) env.activatedAt)) = (.error e, t) ∧
        t.registry.cache = u.registry.cache) := by
  have hplan : DeviceRegistry.Mutation.plan ds u.registry.cache.activeId (.setActiveDevice
      (deriveDeviceId env.sha256 remoteStaticPk) env.activatedAt) =
      .ok (some (DeviceRegistry.seen ds (deriveDeviceId env.sha256 remoteStaticPk)
        env.activatedAt, some (deriveDeviceId env.sha256 remoteStaticPk))) := by
    rw [DeviceRegistry.Mutation.plan, if_pos hl]
  rw [onRegistry, DeviceRegistry.perform_of_loaded hi hd hplan, Faulty.write,
    DeviceRegistry.persist_eq]
  by_cases hsession : fails (.activate .sessionSet) = true
  · refine .inr ⟨by simp [hsession], ?_⟩
    rw [if_pos hsession, Faults.andThen_error]
    exact ⟨_, _, rfl, rfl⟩
  · rw [if_neg hsession]
    by_cases hlocal : fails (.activate .localSet) = true
    · refine .inr ⟨by simp [hlocal], ?_⟩
      rw [if_pos hlocal, Faults.andThen_error]
      exact ⟨_, _, rfl, rfl⟩
    · rw [if_neg hlocal, Faults.andThen_ok]
      rw [Bool.not_eq_true] at hsession hlocal
      exact .inl ⟨⟨hsession, hlocal⟩, _, rfl, hi, rfl, rfl⟩

/-- From `addDevice` on the confirmation completes, or what it leaves is not what was there, unless
it was `addDevice` that failed and its rollback put things back. -/
theorem confirm_cases (h : Paired fails env remoteStaticPk s active devices) :
    (Completes fails s ∧ ∃ t, s.confirm fails env remoteStaticPk = (.ok (), t)) ∨
    (¬Completes fails s ∧ ∃ e t, s.confirm fails env remoteStaticPk = (.error e, t) ∧
      (RolledBack s t ↔ PutBack fails env remoteStaticPk s active devices)) := by
  rw [confirm, prepare_of_paired h, Faults.andThen_ok]
  rcases add_cases h with ⟨hadd, u, heq, hcache, hsession⟩ |
    ⟨hadd, e, t, heq, hiff⟩
  · have hnot : ¬PutBack fails env remoteStaticPk s active devices := by
      intro hput
      rcases hput.added with h' | ⟨h', -⟩
      · simp [hadd.1] at h'
      · simp [hadd.2] at h'
    have hi : u.registry.cache.initialized = true := by
      rw [hcache]
      exact DeviceRegistry.initialized_ensureLoaded s.registry
    have hd : u.registry.cache.devices =
        some (withRecord devices (deviceRecord env remoteStaticPk devices)) := by rw [hcache]
    have hmem := @mem_withRecord devices (deviceRecord env remoteStaticPk devices)
    have hname : resolveDeviceName devices ∈ (withRecord devices
        (deviceRecord env remoteStaticPk devices)).map DeviceRecord.name :=
      List.mem_map_of_mem hmem
    have hlisted : DeviceRegistry.listed (withRecord devices
        (deviceRecord env remoteStaticPk devices)) (deriveDeviceId env.sha256 remoteStaticPk) =
          true := DeviceRegistry.listed_iff.mpr (List.mem_map_of_mem hmem)
    rw [heq, Faults.andThen_ok]
    rcases activate_cases hi hd hlisted with ⟨hactivate, t, heq', hi', hd', hsession'⟩ |
      ⟨hactivate, e, t, heq', hcache'⟩
    · rw [heq', Faults.andThen_ok]
      rcases finish_cases with ⟨hemoji, t', hfinish⟩ | ⟨⟨hsome, hemoji⟩, hfinish⟩
      · rw [hsession', hsession] at hemoji
        exact .inl ⟨⟨hadd, hactivate, hemoji⟩, t', hfinish⟩
      · refine .inr ⟨?_, _, t, hfinish, ?_⟩
        · intro hcompletes
          have := hcompletes.emojiRemove (by rwa [← hsession, ← hsession'])
          simp [hemoji] at this
        · refine iff_of_false (not_rolledBack h.listed hi' hd' ?_) hnot
          rw [map_name_seen]
          exact hname
    · rw [heq', Faults.andThen_error]
      refine .inr ⟨fun hcompletes => hactivate hcompletes.activate, e, t, rfl, ?_⟩
      exact iff_of_false (not_rolledBack h.listed (hcache' ▸ hi) (hcache' ▸ hd) hname) hnot
  · rw [heq, Faults.andThen_error]
    exact .inr ⟨fun hcompletes => hadd hcompletes.add, e, t, rfl, hiff⟩

end Register

/-- The confirmation can roll back: there is no pairing in progress, or the confirmation gets as far
as `addDevice` and completes, or `addDevice` fails and its rollback puts things back. -/
def CanRollBack (s : Pairer) : Prop :=
  s.activeSession = none ∨ ∃ remoteStaticPk active devices,
    s.pendingRemoteStaticPk = some remoteStaticPk ∧
      Paired fails env remoteStaticPk s active devices ∧
      (Completes fails s ∨ PutBack fails env remoteStaticPk s active devices)

variable {fails env} {s : Pairer}

theorem RolledBack.of_same {t : Pairer} (hr : t.registry.ensureLoaded = s.registry.ensureLoaded)
    (ha : t.activeSession = none) : RolledBack s t := ⟨hr, by rw [refusesPairing, ha]; rfl⟩

/-- A confirmation that returns false has rolled back completely if and only if there was no pairing
in progress, or it was `addDevice` that failed and the rollback put back what had been there. -/
theorem rolledBack_of_false_iff :
    ((s.confirmSasMatch fails env).1 = false → RolledBack s (s.confirmSasMatch fails env).2) ↔
      CanRollBack fails env s := by
  rcases hpending : s.pendingRemoteStaticPk with _ | remoteStaticPk
  · simp only [confirmSasMatch, hpending, true_implies]
    constructor
    · intro h
      exact .inl (by simpa [refusesPairing] using h.startable)
    · rintro (ha | ⟨_, _, _, hsome, -⟩)
      · exact .of_same rfl ha
      · rw [hpending] at hsome
        cases hsome
  · simp only [confirmSasMatch, hpending]
    by_cases hpaired : ∃ active devices, Paired fails env remoteStaticPk s active devices
    · obtain ⟨active, devices, hpaired⟩ := hpaired
      rcases confirm_cases hpaired with ⟨hcompletes, t, heq⟩ | ⟨hcompletes, e, t, heq, hiff⟩
      · rw [heq]
        refine iff_of_true (fun h => by cases h) ?_
        exact .inr ⟨_, active, devices, hpending, hpaired, .inl hcompletes⟩
      · rw [heq]
        simp only [true_implies, hiff]
        constructor
        · intro hput
          exact .inr ⟨_, active, devices, hpending, hpaired, .inr hput⟩
        · rintro (ha | ⟨pk, active', devices', hpk, hpaired', hor⟩)
          · rw [hpaired.active] at ha
            cases ha
          · obtain rfl := Option.some.inj (hpending.symm.trans hpk)
            obtain rfl := Option.some.inj (hpaired.active.symm.trans hpaired'.active)
            obtain rfl := Option.some.inj (hpaired.listed.symm.trans hpaired'.listed)
            exact hor.resolve_left hcompletes
    · simp only [not_exists] at hpaired
      obtain ⟨e, t, heq, hr, ha⟩ := prepare_of_not_paired hpaired
      have hconfirm : s.confirm fails env remoteStaticPk = (.error e, t) := by
        rw [confirm, heq, Faults.andThen_error]
      rw [hconfirm]
      simp only [true_implies]
      constructor
      · intro h
        exact .inl (by simpa [refusesPairing, ha] using h.startable)
      · rintro (hnone | ⟨pk, active, devices, hpk, hpaired', -⟩)
        · exact .of_same hr (ha.trans hnone)
        · obtain rfl := Option.some.inj (hpending.symm.trans hpk)
          exact absurd hpaired' (hpaired active devices)

/-! ### A sixth phone, and a second one while session storage is full -/

def sampleKeyPair : NoiseKeyPair :=
  ⟨List.replicate 32 1, List.replicate 32 2, List.length_replicate, List.length_replicate⟩

def sampleSurroundings : Surroundings where
  sha256 := Sha256.sha256
  prfSupport := false
  lastSeen := 7
  pairedAt := 7
  activatedAt := 7

/-- `n` phones are listed, one of them with the cached pairing, and a handshake has been completed
with another one. -/
def afterHandshake (n : Nat) : Pairer where
  registry :=
    { cache := .of ((List.range n).map fun i => DeviceRegistry.phone (UInt16.ofNat i)) none
      storage := { pairing := some (toCachedPairing sampleKeyPair []), commandClient := true } }
  activeSession := some ⟨[], [], sampleKeyPair⟩
  pendingRemoteStaticPk := some [9]

/-- The limit leaves the pairing in progress; the rollback of `addDevice` takes the pairing of the
first phone with it. -/
theorem failed_confirmations_change_state :
    (((afterHandshake 5).confirmSasMatch (fun _ => false) sampleSurroundings).1 = false ∧
      ¬RolledBack (afterHandshake 5)
        ((afterHandshake 5).confirmSasMatch (fun _ => false) sampleSurroundings).2) ∧
    ((afterHandshake 1).confirmSasMatch (fun c => c = .add .sessionSet) sampleSurroundings).1 =
        false ∧
      ¬RolledBack (afterHandshake 1)
        ((afterHandshake 1).confirmSasMatch (fun c => c = .add .sessionSet)
          sampleSurroundings).2 := by
  refine ⟨⟨by decide +kernel, ?_⟩, by decide +kernel, ?_⟩
  · intro h
    have hstartable := h.startable
    revert hstartable
    decide +kernel
  · intro h
    have hpairing := congrArg (·.storage.pairing) h.registry
    revert hpairing
    decide +kernel

end Pairer

end SmartIdVault.Pairing
