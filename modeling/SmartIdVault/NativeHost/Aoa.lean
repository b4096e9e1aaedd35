import SmartIdVault.Lib.Bytes

/-! What the native host's package `aoa` decides: which of the enumerated USB devices is the
accessory, and when a bulk write is refused before it reaches the endpoint. -/

namespace SmartIdVault.NativeHost

/-! ### Discovery (`aoa/discovery.go`) -/

structure UsbDevice where
  vendor : UInt16
  product : UInt16
  serial : Option String := none
  deriving DecidableEq, Repr

def knownVIDs : List UInt16 := [0x18D1, 0x04E8, 0x2A70]
def accessoryVID : UInt16 := 0x18D1
def accessoryPID : UInt16 := 0x2D01

structure DiscoveredDevice where
  device : UsbDevice
  serial : String
  isAccessory : Bool
  deriving DecidableEq, Repr

/-- The devices of a known vendor, less those whose serial number the filter excludes. -/
def discoverDevices (devs : List UsbDevice) (serialFilter : String) : List DiscoveredDevice :=
  (devs.filter fun d => knownVIDs.contains d.vendor).filterMap fun d =>
    let serial := d.serial.getD ""
    if serialFilter ≠ "" ∧ serial ≠ serialFilter then none
    else some ⟨d, serial, d.vendor == accessoryVID && d.product == accessoryPID⟩

/-- The first discovered device in accessory mode; the loop closes the handles of all others. -/
def findAccessoryDevice (devs : List UsbDevice) (serialFilter : String) : Option DiscoveredDevice :=
  (discoverDevices devs serialFilter).find? (·.isAccessory)

/-- A device that discovery returns is in accessory mode already. -/
theorem isAccessory_of_findAccessoryDevice {devs : List UsbDevice} {filter : String}
    {d : DiscoveredDevice} (h : findAccessoryDevice devs filter = some d) :
    d.isAccessory = true :=
  List.find?_some h

/-! ### Bulk transfers (`aoa/transfer.go`) -/

def maxTransferSize : Nat := 65536

/-- How a write to the OUT endpoint ends.  A write that returns an error may have put the bytes on
the wire before it failed. -/
inductive UsbWrite
  | ok
  | failed (error : String) (onWire : Bool)
  deriving DecidableEq, Repr

/-- `WriteBulk`: a payload over the limit is refused, and otherwise the endpoint decides. -/
def writeBulk (data : Bytes) : UsbWrite → Except String Unit
  | outcome =>
    if maxTransferSize < data.length then
      .error s!"transfer error (2): payload too large: {data.length} bytes (max 65536): <nil>"
    else
      match outcome with
      | .ok => .ok ()
      | .failed error _ => .error error

/-- How a read from the IN endpoint ends, with the error classes of `classifyError`. -/
inductive UsbRead
  | data (packet : Bytes)
  | timeout
  | disconnect
  | permanent (error : String)
  deriving DecidableEq, Repr

end SmartIdVault.NativeHost
