import SmartIdVault.Lib.Machine
import SmartIdVault.Pairing.Channel
import SmartIdVault.Transport.WebRtc

/-! The device registry of `deviceRegistry.ts`: the records of the paired phones, in a cache of the
service worker, in session storage and, without their static keys, in local storage.  A call here
runs from its first line to its last with nothing in between. -/

namespace SmartIdVault.DeviceRegistry

open Pairing (NoiseKeyPair CachedPairing toCachedPairing)
open Transport (arrayFrom uint8Array uint8Array_arrayFrom)
open Utf16 (ofString)

def maxDevices : Nat := 5

structure DeviceMeta where
  deviceId : Utf16
  name : Utf16
  lastSeen : Int
  pairedAt : Int
  isPrimary : Bool
  deriving DecidableEq, Repr

structure DeviceRecord where
  deviceId : Utf16
  name : Utf16
  phoneStaticKey : Bytes
  lastSeen : Int
  pairedAt : Int
  isPrimary : Bool
  deriving DecidableEq, Repr

/-- A record in session storage, where the key is an array of numbers. -/
structure StoredDevice where
  deviceId : Utf16
  name : Utf16
  phoneStaticKey : List Nat
  lastSeen : Int
  pairedAt : Int
  isPrimary : Bool
  deriving DecidableEq, Repr

def deviceToSerializable (d : DeviceRecord) : StoredDevice where
  deviceId := d.deviceId
  name := d.name
  phoneStaticKey := arrayFrom d.phoneStaticKey
  lastSeen := d.lastSeen
  pairedAt := d.pairedAt
  isPrimary := d.isPrimary

def deviceFromSerializable (s : StoredDevice) : DeviceRecord where
  deviceId := s.deviceId
  name := s.name
  phoneStaticKey := uint8Array s.phoneStaticKey
  lastSeen := s.lastSeen
  pairedAt := s.pairedAt
  isPrimary := s.isPrimary

def toMeta (d : DeviceRecord) : DeviceMeta where
  deviceId := d.deviceId
  name := d.name
  lastSeen := d.lastSeen
  pairedAt := d.pairedAt
  isPrimary := d.isPrimary

/-- The record that `loadFromStorage` makes of local metadata. -/
def fromMeta (m : DeviceMeta) : DeviceRecord where
  deviceId := m.deviceId
  name := m.name
  phoneStaticKey := []
  lastSeen := m.lastSeen
  pairedAt := m.pairedAt
  isPrimary := m.isPrimary

/-- What the registry has in storage: `pairing:devices`, `pairing:activeDevice`, `deviceMetadata`,
and what `revokeDevice` writes besides, `pairing:device` and `cmd:commandClient`. -/
structure Storage where
  sessionDevices : Option (List StoredDevice) := none
  sessionActive : Option Utf16 := none
  localMetas : Option (List DeviceMeta) := none
  pairing : Option CachedPairing := none
  commandClient : Bool := false
  deriving DecidableEq, Repr

/-- `cachedDevices`, `cachedActiveId` and `initialized`. -/
structure Cache where
  devices : Option (List DeviceRecord) := none
  activeId : Option Utf16 := none
  initialized : Bool := false
  deriving DecidableEq, Repr

def Cache.of (devices : List DeviceRecord) (activeId : Option Utf16) : Cache :=
  { devices := some devices, activeId, initialized := true }

/-! ### Loading and persisting -/

/-- The first branch of `loadFromStorage`, which takes a list that is not empty. -/
def ofSession (raw : Option (List StoredDevice)) (activeId : Option Utf16) : Option Cache :=
  match raw with
  | none | some [] => none
  | some (d :: ds) => some (.of ((d :: ds).map deviceFromSerializable) activeId)

/-- The other branches. -/
def ofLocal : Option (List DeviceMeta) → Cache
  | none | some [] => .of [] none
  | some (m :: ms) => .of ((m :: ms).map fromMeta) none

def loadFromStorage (storage : Storage) : Cache :=
  (ofSession storage.sessionDevices storage.sessionActive).getD (ofLocal storage.localMetas)

/-- The two writes of `persist`. -/
def persistSession (storage : Storage) (devices : List DeviceRecord) (activeId : Option Utf16) :
    Storage :=
  { storage with
    sessionDevices := some (devices.map deviceToSerializable)
    sessionActive := activeId }

def persistLocal (storage : Storage) (devices : List DeviceRecord) : Storage :=
  { storage with localMetas := some (devices.map toMeta) }

def persist (storage : Storage) (devices : List DeviceRecord) (activeId : Option Utf16) : Storage :=
  persistLocal (persistSession storage devices activeId) devices

/-! ### The mutators -/

/-- The calls that take the lock.  `setActiveDevice` and `updateDeviceLastSeen` have the time,
`revokeDevice` the new key pair. -/
inductive Mutation where
  | addDevice (record : DeviceRecord)
  | removeDevice (deviceId : Utf16)
  | setActiveDevice (deviceId : Utf16) (now : Int)
  | updateDeviceLastSeen (deviceId : Utf16) (now : Int)
  | revokeDevice (deviceId : Utf16) (newKeyPair : NoiseKeyPair)
  deriving DecidableEq

/-- Why a call throws: with a text of its own, or at a cache that is `null`. -/
inductive Failure where
  | thrown (message : Utf16)
  | nullCache
  deriving DecidableEq, Repr

def limitReached : Utf16 := ofString "Maximum of 5 devices reached. Remove a device first."

def notFound (deviceId : Utf16) : Utf16 := ofString "Device " ++ deviceId ++ ofString " not found"

def listed (devices : List DeviceRecord) (deviceId : Utf16) : Bool :=
  devices.any (·.deviceId = deviceId)

/-- The list with the record in the place of the one with its id, or at the end. -/
def withRecord (devices : List DeviceRecord) (record : DeviceRecord) : List DeviceRecord :=
  match devices.findIdx? (·.deviceId = record.deviceId) with
  | some existing => devices.set existing record
  | none => devices ++ [record]

def without (devices : List DeviceRecord) (deviceId : Utf16) : List DeviceRecord :=
  devices.filter (·.deviceId ≠ deviceId)

/-- The active device after a removal: the first of those that are left, if it was the one. -/
def nextActive (newDevices : List DeviceRecord) (activeId : Option Utf16) (deviceId : Utf16) :
    Option Utf16 :=
  if activeId = some deviceId then newDevices.head?.map DeviceRecord.deviceId else activeId

def seen (devices : List DeviceRecord) (deviceId : Utf16) (now : Int) : List DeviceRecord :=
  devices.map fun d => if d.deviceId = deviceId then { d with lastSeen := now } else d

/-- What a mutator persists, given the cached list and active id: nothing in the early return of
`updateDeviceLastSeen`. -/
def Mutation.plan (devices : List DeviceRecord) (activeId : Option Utf16) :
    Mutation → Except Failure (Option (List DeviceRecord × Option Utf16))
  | .addDevice record =>
    if maxDevices ≤ devices.length ∧ listed devices record.deviceId = false then
      .error (.thrown limitReached)
    else .ok (some (withRecord devices record, activeId))
  | .removeDevice deviceId | .revokeDevice deviceId _ =>
    if listed devices deviceId then
      .ok (some (without devices deviceId,
        nextActive (without devices deviceId) activeId deviceId))
    else .error (.thrown (notFound deviceId))
  | .setActiveDevice deviceId now =>
    if listed devices deviceId then .ok (some (seen devices deviceId now, some deviceId))
    else .error (.thrown (notFound deviceId))
  | .updateDeviceLastSeen deviceId now =>
    if listed devices deviceId then .ok (some (seen devices deviceId now, activeId))
    else .ok none

/-- Whether the call assigns `cachedActiveId` at its end. -/
def Mutation.assignsActive : Mutation → Bool
  | .addDevice _ | .updateDeviceLastSeen .. => false
  | .removeDevice _ | .setActiveDevice .. | .revokeDevice .. => true

/-- The first write of `revokeDevice`. -/
def Mutation.writePairing (storage : Storage) : Mutation → Storage
  | .revokeDevice _ newKeyPair => { storage with pairing := some (toCachedPairing newKeyPair []) }
  | _ => storage

/-- The last write of `revokeDevice`. -/
def Mutation.removeClient (storage : Storage) : Mutation → Storage
  | .revokeDevice .. => { storage with commandClient := false }
  | _ => storage

/-- The assignments at the end of a mutator. -/
def Mutation.assign (m : Mutation) (cache : Cache) (devices : List DeviceRecord)
    (activeId : Option Utf16) : Cache :=
  { cache with
    devices := some devices
    activeId := if m.assignsActive then activeId else cache.activeId }

end SmartIdVault.DeviceRegistry
