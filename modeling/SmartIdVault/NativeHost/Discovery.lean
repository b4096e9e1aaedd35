import Mathlib.Data.List.Count
import Mathlib.Data.List.Nodup
import SmartIdVault.NativeHost.Session

/-! Discovery with its device handles: what `OpenDevices` opens, what `DiscoverDevices` and
`FindAccessoryDevice` close, and what their callers, `connect` and the shim, do with the device that
is returned.  A device that still has to be negotiated with is never returned. -/

namespace SmartIdVault.NativeHost

/-- A device that is enumerated, and the error of opening it if that fails. -/
structure BusDevice where
  desc : UsbDevice
  openError : Option String := none
  deriving DecidableEq, Repr

/-- A `*gousb.Device`. -/
structure OpenDevice where
  handle : Handle
  desc : UsbDevice
  deriving DecidableEq, Repr

inductive UsbCall
  | opened (handle : Handle)
  | closed (handle : Handle)
  | negotiated (dev : OpenDevice)
  -- `FindAccessoryDevice` hands the device to its caller
  | returned (handle : Handle)
  deriving DecidableEq, Repr

/-- The calls so far, and how many handles there have been. -/
structure Bus where
  handles : Nat := 0
  calls : List UsbCall := []
  deriving DecidableEq, Repr

def isKnown (d : UsbDevice) : Bool := knownVIDs.contains d.vendor

def inAccessoryMode (d : UsbDevice) : Bool := d.vendor == accessoryVID && d.product == accessoryPID

/-- A `DiscoveredDevice` with its handle. -/
structure FoundDevice where
  device : OpenDevice
  serial : String
  isAccessory : Bool
  deriving DecidableEq, Repr

/-- How `OpenAoaDevice` ends.  On every error after `Config` it closes the device itself. -/
inductive AoaOpen
  | ok
  | configFailed (error : String)
  | setupFailed (error : String)
  deriving DecidableEq, Repr

namespace Bus

def call (b : Bus) (c : UsbCall) : Bus := { b with calls := b.calls ++ [c] }

def close (b : Bus) (handle : Handle) : Bus := b.call (.closed handle)

/-- `gousb`'s `OpenDevices`: it opens every device that `opener` wants, and returns those that it
could open together with the last error. -/
def openDevices (opener : UsbDevice → Bool) :
    Bus → List BusDevice → (List OpenDevice × Option String) × Bus
  | b, [] => (([], none), b)
  | b, d :: ds =>
    if opener d.desc then
      match d.openError with
      | some err =>
        let rest := openDevices opener b ds
        ((rest.1.1, some (rest.1.2.getD err)), rest.2)
      | none =>
        let dev : OpenDevice := ⟨b.handles, d.desc⟩
        let rest := openDevices opener { b with handles := b.handles + 1, calls := b.calls ++
          [.opened b.handles] } ds
        ((dev :: rest.1.1, rest.1.2), rest.2)
    else openDevices opener b ds

/-- The loop of `DiscoverDevices`. -/
def discover (serialFilter : String) : Bus → List OpenDevice → List FoundDevice × Bus
  | b, [] => ([], b)
  | b, dev :: devs =>
    let serial := dev.desc.serial.getD ""
    if serialFilter ≠ "" ∧ serial ≠ serialFilter then
      discover serialFilter (b.close dev.handle) devs
    else
      let rest := discover serialFilter b devs
      (⟨dev, serial, inAccessoryMode dev.desc⟩ :: rest.1, rest.2)

def discoverDevices (b : Bus) (devs : List BusDevice) (serialFilter : String) :
    Except String (List FoundDevice) × Bus :=
  match openDevices isKnown b devs with
  | ((_, some err), b) => (.error ("enumerate USB devices: " ++ err), b)
  | ((opened, none), b) =>
    let found := discover serialFilter b opened
    (.ok found.1, found.2)

/-- The loop of `FindAccessoryDevice`. -/
def pick : Option FoundDevice → Bus → List FoundDevice → Option FoundDevice × Bus
  | accessory, b, [] => (accessory, b)
  | accessory, b, d :: ds =>
    if d.isAccessory ∧ accessory = none then pick (some d) b ds
    else pick accessory (b.close d.device.handle) ds

def findAccessoryDevice (b : Bus) (devs : List BusDevice) (serialFilter : String) :
    Except String (Option FoundDevice) × Bus :=
  match b.discoverDevices devs serialFilter with
  | (.error err, b) => (.error err, b)
  | (.ok found, b) =>
    match pick none b found with
    | (none, b) => (.ok none, b)
    | (some d, b) => (.ok (some d), b.call (.returned d.device.handle))

/-! ### The callers -/

/-- What the devices, the endpoints and the key exchange decide in the course of `connect`. -/
structure ConnectEnv where
  negotiated : Except String Unit := .ok ()
  reenumerated : List BusDevice := []
  opened : AoaOpen := .ok
  keyExchange : Except String Unit := .ok ()

def openAoaDevice (b : Bus) (dev : OpenDevice) : AoaOpen → Except String Unit × Bus
  | .ok => (.ok (), b)
  | .configFailed err => (.error ("get config: " ++ err), b)
  | .setupFailed err => (.error err, b.close dev.handle)

/-- `connect` from `OpenAoaDevice` on. -/
def connectOpen (b : Bus) (dev : OpenDevice) (env : ConnectEnv) : Except String Unit × Bus :=
  match b.openAoaDevice dev env.opened with
  | (.error err, b) => (.error ("open accessory device: " ++ err), b.close dev.handle)
  | (.ok (), b) =>
    match env.keyExchange with
    | .error err => (.error ("key exchange failed: " ++ err), b.close dev.handle)
    | .ok () => (.ok (), b)

/-- The handler of `connect` in a session that is not connected; the result is that of the
`connect-result` message. -/
def connect (b : Bus) (devs : List BusDevice) (env : ConnectEnv) : Except String Unit × Bus :=
  match b.findAccessoryDevice devs "" with
  | (.error err, b) => (.error ("device discovery failed: " ++ err), b)
  | (.ok none, b) => (.error "no accessory device found", b)
  | (.ok (some discovered), b) =>
    if !discovered.isAccessory then
      let b := (b.call (.negotiated discovered.device)).close discovered.device.handle
      match env.negotiated with
      | .error err => (.error ("AOA negotiation failed: " ++ err), b)
      | .ok () =>
        match b.findAccessoryDevice env.reenumerated "" with
        | (.ok (some discovered), b) => b.connectOpen discovered.device env
        | (_, b) => (.error "device did not re-enumerate as accessory", b)
    else b.connectOpen discovered.device env

/-- `run` of `cmd/shim`. -/
def shim (b : Bus) (devs : List BusDevice) (negotiated : Except String Unit) :
    Except String Unit × Bus :=
  match b.findAccessoryDevice devs "" with
  | (.error err, b) => (.error ("device discovery failed: " ++ err), b)
  | (.ok none, b) => (.error "no USB device found", b)
  | (.ok (some discovered), b) =>
    if discovered.isAccessory then (.ok (), b.close discovered.device.handle)
    else
      let b := (b.call (.negotiated discovered.device)).close discovered.device.handle
      match negotiated with
      | .error err => (.error ("AOA negotiation failed: " ++ err), b)
      | .ok () => (.ok (), b)

/-! ### What the loops open and close -/

variable {opener : UsbDevice → Bool} {filter : String}

theorem calls_openDevices (b : Bus) (ds : List BusDevice) :
    (openDevices opener b ds).2.calls =
      b.calls ++ (openDevices opener b ds).1.1.map fun dev => UsbCall.opened dev.handle := by
  induction ds generalizing b with
  | nil => simp [openDevices]
  | cons d ds ih =>
    rw [openDevices]
    split
    · split
      · exact ih b
      · rw [ih, List.append_assoc]
        rfl
    · exact ih b

/-- Handles are given out in order. -/
theorem handles_openDevices (b : Bus) (ds : List BusDevice) :
    (openDevices opener b ds).1.1.map (·.handle) =
      List.range' b.handles (openDevices opener b ds).1.1.length := by
  induction ds generalizing b with
  | nil => simp [openDevices]
  | cons d ds ih =>
    rw [openDevices]
    split
    · split
      · exact ih b
      · rw [List.map_cons, List.length_cons, List.range'_succ, ih]
    · exact ih b

theorem desc_openDevices (b : Bus) (ds : List BusDevice) :
    (openDevices opener b ds).1.1.map (·.desc) =
      (ds.filter fun d => opener d.desc && d.openError.isNone).map (·.desc) := by
  induction ds generalizing b with
  | nil => simp [openDevices]
  | cons d ds ih =>
    rw [openDevices, List.filter_cons]
    by_cases ho : opener d.desc = true
    · cases d.openError with
      | some err => simp [ho, ih]
      | none => simp [ho, ih]
    · simp [ho, ih]

theorem error_openDevices (b : Bus) (ds : List BusDevice) :
    (openDevices opener b ds).1.2 = none ↔
      ∀ d ∈ ds, opener d.desc = true → d.openError = none := by
  induction ds generalizing b with
  | nil => simp [openDevices]
  | cons d ds ih =>
    rw [openDevices, List.forall_mem_cons]
    by_cases ho : opener d.desc = true
    · cases d.openError with
      | some err => simp [ho]
      | none => simp [ho, ih]
    · simp [ho, ih]

/-- Each device is closed or found. -/
theorem discover_perm (b : Bus) (devs : List OpenDevice) :
    ∃ closed : List Handle, (discover filter b devs).2.calls = b.calls ++ closed.map .closed ∧
      (closed ++ (discover filter b devs).1.map (·.device.handle)).Perm
        (devs.map (·.handle)) := by
  induction devs generalizing b with
  | nil => exact ⟨[], by simp [discover], .refl _⟩
  | cons dev devs ih =>
    rw [discover]
    split
    · obtain ⟨closed, hcalls, hperm⟩ := ih (b.close dev.handle)
      refine ⟨dev.handle :: closed, ?_, hperm.cons _⟩
      rw [hcalls, close, call, List.append_assoc]
      rfl
    · obtain ⟨closed, hcalls, hperm⟩ := ih b
      exact ⟨closed, hcalls, List.perm_middle.trans (hperm.cons _)⟩

/-- Each found device is closed or is the one that is picked. -/
theorem pick_perm (accessory : Option FoundDevice) (b : Bus) (found : List FoundDevice) :
    ∃ closed : List Handle, (pick accessory b found).2.calls = b.calls ++ closed.map .closed ∧
      (closed ++ ((pick accessory b found).1.map (·.device.handle)).toList).Perm
        ((accessory.map (·.device.handle)).toList ++ found.map (·.device.handle)) := by
  induction found generalizing accessory b with
  | nil => exact ⟨[], by simp [pick], by simp [pick]⟩
  | cons d ds ih =>
    rw [pick]
    split
    · rename_i h
      obtain ⟨closed, hcalls, hperm⟩ := ih (some d) b
      exact ⟨closed, hcalls, by simpa [h.2] using hperm⟩
    · obtain ⟨closed, hcalls, hperm⟩ := ih accessory (b.close d.device.handle)
      refine ⟨d.device.handle :: closed, ?_, (hperm.cons _).trans List.perm_middle.symm⟩
      rw [hcalls, close, call, List.append_assoc]
      rfl

theorem isAccessory_pick {accessory : Option FoundDevice} {b : Bus} {found : List FoundDevice}
    (h : ∀ a ∈ accessory, a.isAccessory = true) :
    ∀ a ∈ (pick accessory b found).1, a.isAccessory = true := by
  induction found generalizing accessory b with
  | nil => exact h
  | cons d ds ih =>
    rw [pick]
    split
    · rename_i hd
      exact ih (by simpa using hd.1)
    · exact ih h

/-! ### What becomes of the handles -/

/-- Every handle that was opened and not handed to a caller has been closed once. -/
def RestClosed (b : Bus) : Prop :=
  ∀ h, .opened h ∈ b.calls → .returned h ∉ b.calls → b.calls.count (.closed h) = 1

/-- Every known device opens. -/
def AllOpen (devs : List BusDevice) : Prop :=
  ∀ d ∈ devs, isKnown d.desc = true → d.openError = none

/-- The devices that `DiscoverDevices` opens. -/
def openedOf (devs : List BusDevice) : List OpenDevice := (openDevices isKnown {} devs).1.1

theorem nodup_openedOf (devs : List BusDevice) : ((openedOf devs).map (·.handle)).Nodup := by
  rw [openedOf, handles_openDevices]
  exact List.nodup_range'

/-- The two ways in which `FindAccessoryDevice` ends: an enumeration error, after which all that was
opened stays open, or a search that closes all but the device it returns. -/
theorem findAccessoryDevice_cases (devs : List BusDevice) (filter : String) :
    (∃ err b, findAccessoryDevice {} devs filter = (.error err, b) ∧ ¬AllOpen devs ∧
      b.calls = (openedOf devs).map fun dev => .opened dev.handle) ∨
    ∃ d b closed, findAccessoryDevice {} devs filter = (.ok d, b) ∧ AllOpen devs ∧
      b.calls = ((openedOf devs).map fun dev => UsbCall.opened dev.handle) ++
        (closed.map .closed ++ (d.map fun d => UsbCall.returned d.device.handle).toList) ∧
      (closed ++ (d.map (·.device.handle)).toList).Perm ((openedOf devs).map (·.handle)) ∧
      ∀ a ∈ d, a.isAccessory = true := by
  have hcalls := @calls_openDevices isKnown {} devs
  have herror := @error_openDevices isKnown {} devs
  rw [List.nil_append] at hcalls
  rw [findAccessoryDevice, discoverDevices, openedOf]
  generalize openDevices isKnown {} devs = r at hcalls herror ⊢
  obtain ⟨⟨opened, err⟩, b⟩ := r
  cases err with
  | some err => exact .inl ⟨_, b, rfl, fun h => by simpa using herror.mpr h, hcalls⟩
  | none =>
    right
    obtain ⟨closed, hclosed, hperm⟩ := @discover_perm filter b opened
    obtain ⟨closed', hclosed', hperm'⟩ :=
      pick_perm none (discover filter b opened).2 (discover filter b opened).1
    have hacc := @isAccessory_pick none (discover filter b opened).2
      (discover filter b opened).1 (by simp)
    have hall : (closed ++ closed' ++
        ((pick none (discover filter b opened).2 (discover filter b opened).1).1.map
          (·.device.handle)).toList).Perm (opened.map (·.handle)) := by
      rw [List.append_assoc]
      exact (hperm'.append_left closed).trans hperm
    simp only
    generalize pick none (discover filter b opened).2 (discover filter b opened).1 = r at *
    obtain ⟨d, b'⟩ := r
    have hb' : b'.calls = (opened.map fun dev => UsbCall.opened dev.handle) ++
        (closed ++ closed').map .closed := by
      rw [hclosed', hclosed, hcalls, List.map_append, List.append_assoc]
    cases d with
    | none =>
      exact ⟨none, b', closed ++ closed', rfl, herror.mp rfl, by simpa using hb', hall, hacc⟩
    | some d =>
      refine ⟨some d, _, closed ++ closed', rfl, herror.mp rfl, ?_, hall, hacc⟩
      rw [call, hb', List.append_assoc]
      rfl

theorem opened_mem_iff {devs : List BusDevice} {closed : List Handle} {d : Option FoundDevice}
    {h : Handle} :
    UsbCall.opened h ∈ ((openedOf devs).map fun dev => UsbCall.opened dev.handle) ++
        (closed.map .closed ++ (d.map fun d => UsbCall.returned d.device.handle).toList) ↔
      h ∈ (openedOf devs).map (·.handle) := by
  cases d <;> simp

/-- The search closes once whatever it does not return. -/
theorem restClosed_findAccessoryDevice {devs : List BusDevice} (hopen : AllOpen devs)
    (filter : String) : RestClosed (findAccessoryDevice {} devs filter).2 := by
  rcases findAccessoryDevice_cases devs filter with ⟨_, _, _, hnot, _⟩ | h
  · exact absurd hopen hnot
  obtain ⟨d, b, closed, hfind, -, hcalls, hperm, -⟩ := h
  intro h hopened hreturned
  rw [hfind] at hopened hreturned ⊢
  rw [hcalls] at hopened hreturned ⊢
  rw [opened_mem_iff] at hopened
  have hone : (closed ++ (d.map (·.device.handle)).toList).count h = 1 := by
    rw [hperm.count_eq]
    exact List.count_eq_one_of_mem (nodup_openedOf devs) hopened
  have hrest : (d.map (·.device.handle)).toList.count h = 0 := by
    apply List.count_eq_zero_of_not_mem
    intro hmem
    apply hreturned
    cases d with
    | none => simp at hmem
    | some d =>
      obtain rfl : h = d.device.handle := by simpa using hmem
      simp
  rw [List.count_append, hrest] at hone
  have hclosed : (closed.map UsbCall.closed).count (.closed h) = closed.count h :=
    List.count_map_of_injective closed UsbCall.closed (fun _ _ => UsbCall.closed.inj) h
  have hother :
      ((openedOf devs).map fun dev => UsbCall.opened dev.handle).count (.closed h) = 0 := by
    apply List.count_eq_zero_of_not_mem
    simp
  have hlast : (d.map fun d => UsbCall.returned d.device.handle).toList.count (.closed h) = 0 := by
    cases d <;> simp
  rw [List.count_append, List.count_append, hother, hlast, hclosed]
  omega

theorem RestClosed.append {b b' : Bus} (h : RestClosed b) {k : Handle} {n : Nat}
    (hk : n = 0 ∨ .returned k ∈ b.calls)
    (hcalls : b'.calls = b.calls ++ List.replicate n (UsbCall.closed k)) : RestClosed b' := by
  intro j hopened hreturned
  rw [hcalls, List.mem_append] at hopened hreturned
  have hopened' : .opened j ∈ b.calls := by
    rcases hopened with hopened | hopened
    · exact hopened
    · exact absurd (List.eq_of_mem_replicate hopened) (by simp)
  rw [hcalls, List.count_append, h j hopened' fun hj => hreturned (.inl hj)]
  rcases hk with rfl | hk
  · rfl
  · have hne : j ≠ k := by
      rintro rfl
      exact hreturned (.inl hk)
    simp [List.count_replicate, Ne.symm hne]

/-! ### The two callers -/

/-- `OpenAoaDevice` and the key exchange close the device, at least once, when they fail. -/
theorem calls_connectOpen (b : Bus) (dev : OpenDevice) (env : ConnectEnv) :
    ∃ n, (b.connectOpen dev env).2.calls = b.calls ++ List.replicate n (UsbCall.closed dev.handle) ∧
      ∀ err, (b.connectOpen dev env).1 = .error err → 0 < n := by
  rw [connectOpen]
  cases env.opened with
  | ok =>
    simp only [openAoaDevice]
    cases env.keyExchange with
    | ok _ => exact ⟨0, by simp, by simp⟩
    | error err => exact ⟨1, rfl, fun _ _ => Nat.one_pos⟩
  | configFailed err => exact ⟨1, rfl, fun _ _ => Nat.one_pos⟩
  | setupFailed err =>
    refine ⟨2, ?_, fun _ _ => Nat.two_pos⟩
    simp only [openAoaDevice, close, call, List.append_assoc]
    rfl

/-- What is left open by a caller of `FindAccessoryDevice` whose result is `result`: it calls
nothing but `Close`, and that on the device it was handed. -/
def OnlyCloses (found : Bus) (result : Except String Unit) (b : Bus) : Prop :=
  ∃ k n, b.calls = found.calls ++ List.replicate n (.closed k) ∧
    (n = 0 ∨ .returned k ∈ found.calls) ∧
    ∀ err, result = .error err → ∀ h, .returned h ∈ found.calls → h = k ∧ 0 < n

theorem OnlyCloses.stay {found : Bus} {result : Except String Unit}
    (h : ∀ h, .returned h ∉ found.calls) : OnlyCloses found result found :=
  ⟨0, 0, by simp, .inl rfl, fun _ _ k hk => absurd hk (h k)⟩

/-- The one device that a search returns. -/
theorem returned_iff {devs : List BusDevice} {filter : String} {d : Option FoundDevice} {b : Bus}
    (h : findAccessoryDevice {} devs filter = (.ok d, b)) (k : Handle) :
    .returned k ∈ b.calls ↔ ∃ a ∈ d, a.device.handle = k := by
  rcases findAccessoryDevice_cases devs filter with ⟨_, _, herr, _⟩ | hok
  · rw [herr] at h
    cases h
  · obtain ⟨d', b', closed, hfind, -, hcalls, -⟩ := hok
    rw [hfind] at h
    cases h
    rw [hcalls]
    cases d with
    | none => simp
    | some d => simp [eq_comm]

theorem returned_not_mem_of_error {devs : List BusDevice} {filter err : String} {b : Bus}
    (h : findAccessoryDevice {} devs filter = (.error err, b)) (k : Handle) :
    .returned k ∉ b.calls := by
  rcases findAccessoryDevice_cases devs filter with ⟨_, b', herr, -, hcalls⟩ | hok
  · rw [herr] at h
    cases h
    rw [hcalls]
    simp
  · obtain ⟨d', b', closed, hfind, -⟩ := hok
    rw [hfind] at h
    cases h

theorem isAccessory_of_found {devs : List BusDevice} {filter : String} {d : FoundDevice} {b : Bus}
    (h : findAccessoryDevice {} devs filter = (.ok (some d), b)) : d.isAccessory = true := by
  rcases findAccessoryDevice_cases devs filter with ⟨_, _, herr, _⟩ | hok
  · rw [herr] at h
    cases h
  · obtain ⟨d', b', closed, hfind, -, -, -, hacc⟩ := hok
    rw [hfind] at h
    cases h
    exact hacc d rfl

theorem onlyCloses_connect (devs : List BusDevice) (env : ConnectEnv) :
    OnlyCloses (findAccessoryDevice {} devs "").2 (connect {} devs env).1
      (connect {} devs env).2 := by
  rw [connect]
  rcases hfind : findAccessoryDevice {} devs "" with ⟨_ | d, b⟩
  · exact .stay (returned_not_mem_of_error hfind)
  cases d with
  | none => exact .stay fun k hk => by simpa using (returned_iff hfind k).mp hk
  | some d =>
    simp only [isAccessory_of_found hfind, Bool.not_true, Bool.false_eq_true, if_false]
    obtain ⟨n, hcalls, herr⟩ := calls_connectOpen b d.device env
    refine ⟨d.device.handle, n, hcalls, .inr ((returned_iff hfind _).mpr ⟨d, rfl, rfl⟩), ?_⟩
    intro err hresult k hk
    obtain ⟨a, ha, rfl⟩ := (returned_iff hfind k).mp hk
    cases ha
    exact ⟨rfl, herr err hresult⟩

theorem onlyCloses_shim (devs : List BusDevice) (negotiated : Except String Unit) :
    OnlyCloses (findAccessoryDevice {} devs "").2 (shim {} devs negotiated).1
      (shim {} devs negotiated).2 := by
  rw [shim]
  rcases hfind : findAccessoryDevice {} devs "" with ⟨_ | d, b⟩
  · exact .stay (returned_not_mem_of_error hfind)
  cases d with
  | none => exact .stay fun k hk => by simpa using (returned_iff hfind k).mp hk
  | some d =>
    simp only [isAccessory_of_found hfind, if_true]
    refine ⟨d.device.handle, 1, rfl, .inr ((returned_iff hfind _).mpr ⟨d, rfl, rfl⟩), ?_⟩
    intro err hresult
    cases hresult

/-- Everything but the device handed to the caller is closed once, and the caller closes that one
when it fails. -/
def Tidy (result : Except String Unit) (b : Bus) : Prop :=
  RestClosed b ∧ ∀ err, result = .error err → ∀ h, .returned h ∈ b.calls → .closed h ∈ b.calls

theorem OnlyCloses.tidy {found b : Bus} {result : Except String Unit}
    (h : OnlyCloses found result b) (hfound : RestClosed found) : Tidy result b := by
  obtain ⟨k, n, hcalls, hk, herr⟩ := h
  refine ⟨hfound.append hk hcalls, fun err hresult h hh => ?_⟩
  rw [hcalls, List.mem_append] at hh ⊢
  rcases hh with hh | hh
  · obtain ⟨rfl, hpos⟩ := herr err hresult h hh
    exact .inr (List.mem_replicate.mpr ⟨Nat.ne_of_gt hpos, rfl⟩)
  · exact absurd (List.eq_of_mem_replicate hh) (by simp)

theorem OnlyCloses.negotiated_mem {found b : Bus} {result : Except String Unit}
    (h : OnlyCloses found result b) {dev : OpenDevice} (hdev : .negotiated dev ∈ b.calls) :
    .negotiated dev ∈ found.calls := by
  obtain ⟨k, n, hcalls, -⟩ := h
  rw [hcalls, List.mem_append] at hdev
  rcases hdev with hdev | hdev
  · exact hdev
  · exact absurd (List.eq_of_mem_replicate hdev) (by simp)

theorem negotiated_not_mem (devs : List BusDevice) (filter : String) (dev : OpenDevice) :
    .negotiated dev ∉ (findAccessoryDevice {} devs filter).2.calls := by
  rcases findAccessoryDevice_cases devs filter with ⟨_, b, hfind, -, hcalls⟩ | h
  · rw [hfind, hcalls]
    simp
  · obtain ⟨d, b, closed, hfind, -, hcalls, -⟩ := h
    rw [hfind, hcalls]
    cases d <;> simp

/-! ### What the callers do with every bus -/

/-- A known device that is not in accessory mode yet. -/
def isCandidate (d : UsbDevice) : Bool := isKnown d && !inAccessoryMode d

/-- There is a device to negotiate with and none in accessory mode. -/
def NeedsNegotiation (devs : List BusDevice) : Prop :=
  (∃ d ∈ devs, isCandidate d.desc = true) ∧ ∀ d ∈ devs, inAccessoryMode d.desc = false

/-- `connect` negotiates with a device when that is needed, and no caller of `FindAccessoryDevice`
leaves a handle open. -/
def NegotiatesAndCloses (devs : List BusDevice) (env : ConnectEnv) : Prop :=
  (NeedsNegotiation devs → ∃ dev, .negotiated dev ∈ (connect {} devs env).2.calls ∧
    isCandidate dev.desc = true) ∧
  Tidy (connect {} devs env).1 (connect {} devs env).2 ∧
  Tidy (shim {} devs env.negotiated).1 (shim {} devs env.negotiated).2 ∧
  ∀ filter, RestClosed (findAccessoryDevice {} devs filter).2

/-- Either every known device opens or none does. -/
def OpensAllOrNone (devs : List BusDevice) : Prop :=
  AllOpen devs ∨ ∀ d ∈ devs, isKnown d.desc = true → d.openError ≠ none

theorem openedOf_eq_nil_iff (devs : List BusDevice) :
    openedOf devs = [] ↔ ∀ d ∈ devs, isKnown d.desc = true → d.openError ≠ none := by
  have hdesc := @desc_openDevices isKnown {} devs
  rw [← List.map_eq_nil_iff (f := (·.desc)), openedOf, hdesc, List.map_eq_nil_iff,
    List.filter_eq_nil_iff]
  simp

theorem restClosed_iff (devs : List BusDevice) (filter : String) :
    RestClosed (findAccessoryDevice {} devs filter).2 ↔ OpensAllOrNone devs := by
  rw [OpensAllOrNone, ← openedOf_eq_nil_iff]
  constructor
  · intro hclosed
    by_contra hnot
    obtain ⟨hopen, hne⟩ := not_or.mp hnot
    rcases findAccessoryDevice_cases devs filter with ⟨_, b, hfind, -, hcalls⟩ | h
    · obtain ⟨dev, hdev⟩ := List.exists_mem_of_ne_nil _ hne
      rw [hfind] at hclosed
      have hone := hclosed dev.handle (by rw [hcalls]; exact List.mem_map_of_mem hdev)
        (by rw [hcalls]; simp)
      rw [hcalls, List.count_eq_zero_of_not_mem (by simp)] at hone
      contradiction
    · obtain ⟨d, b, closed, -, hall, -⟩ := h
      exact hopen hall
  · rintro (hopen | hnil)
    · exact restClosed_findAccessoryDevice hopen filter
    · intro h hopened
      rcases findAccessoryDevice_cases devs filter with ⟨_, b, hfind, -, hcalls⟩ | hok
      · rw [hfind, hcalls, hnil] at hopened
        simp at hopened
      · obtain ⟨d, b, closed, hfind, -, hcalls, -⟩ := hok
        rw [hfind, hcalls, opened_mem_iff, hnil] at hopened
        simp at hopened

/-- For every bus, negotiation is reached when it is needed and no handle is left open exactly when
it is not needed and the known devices either all open or all fail to. -/
theorem negotiatesAndCloses_iff (devs : List BusDevice) (env : ConnectEnv) :
    NegotiatesAndCloses devs env ↔ ¬NeedsNegotiation devs ∧ OpensAllOrNone devs := by
  constructor
  · rintro ⟨hneg, -, -, hclosed⟩
    refine ⟨fun hneeds => ?_, (restClosed_iff devs "").mp (hclosed "")⟩
    obtain ⟨dev, hdev, -⟩ := hneg hneeds
    exact negotiated_not_mem devs "" dev ((onlyCloses_connect devs env).negotiated_mem hdev)
  · rintro ⟨hneeds, hopen⟩
    have hclosed := (restClosed_iff devs "").mpr hopen
    exact ⟨fun h => absurd h hneeds, (onlyCloses_connect devs env).tidy hclosed,
      (onlyCloses_shim devs env.negotiated).tidy hclosed,
      fun filter => (restClosed_iff devs filter).mpr hopen⟩

/-- A telephone of a known vendor that is attached for the first time. -/
def firstTimePhone : BusDevice := { desc := { vendor := 0x04E8, product := 0x6860 } }

theorem firstTimePhone_not_negotiated :
    (connect {} [firstTimePhone] {}).1 = .error "no accessory device found" ∧
      ¬NegotiatesAndCloses [firstTimePhone] {} := by
  refine ⟨rfl, fun h => ?_⟩
  obtain ⟨dev, hdev, -⟩ := h.1
    ⟨⟨firstTimePhone, List.mem_singleton_self _, by decide⟩, by decide⟩
  have hcalls : (connect {} [firstTimePhone] {}).2.calls = [.opened 0, .closed 0] := by decide
  simp [hcalls] at hdev

/-! ### The pure search -/

theorem found_discover (b : Bus) (devs : List OpenDevice) (filter : String) :
    (discover filter b devs).1.map (fun d => (⟨d.device.desc, d.serial, d.isAccessory⟩ :
      DiscoveredDevice)) =
      (devs.map (·.desc)).filterMap fun d =>
        if filter ≠ "" ∧ d.serial.getD "" ≠ filter then none
        else some ⟨d, d.serial.getD "", inAccessoryMode d⟩ := by
  induction devs generalizing b with
  | nil => simp [discover]
  | cons dev devs ih =>
    rw [discover, List.map_cons, List.filterMap_cons]
    by_cases h : filter ≠ "" ∧ dev.desc.serial.getD "" ≠ filter
    · simp only [if_pos h]
      exact ih _
    · simp only [if_neg h, List.map_cons, ih]

theorem fst_pick (accessory : Option FoundDevice) (b : Bus) (found : List FoundDevice) :
    (pick accessory b found).1 = accessory.or (found.find? (·.isAccessory)) := by
  induction found generalizing accessory b with
  | nil => simp [pick]
  | cons d ds ih =>
    rw [pick, List.find?_cons]
    cases accessory with
    | none => cases d.isAccessory <;> simp [ih]
    | some a => simp [ih]

/-- Without an enumeration error the search finds the device that the list alone determines. -/
theorem findAccessoryDevice_eq {devs : List BusDevice} (hopen : AllOpen devs) (filter : String) :
    ∃ d, (findAccessoryDevice {} devs filter).1 = .ok d ∧
      d.map (fun d => (⟨d.device.desc, d.serial, d.isAccessory⟩ : DiscoveredDevice)) =
        NativeHost.findAccessoryDevice (devs.map (·.desc)) filter := by
  have herror := (@error_openDevices isKnown {} devs).mpr hopen
  have hdesc := @desc_openDevices isKnown {} devs
  have hknown : (devs.filter fun d => isKnown d.desc && d.openError.isNone).map (·.desc) =
      (devs.map (·.desc)).filter isKnown := by
    rw [List.filter_map]
    congr 1
    refine List.filter_congr fun d hd => ?_
    cases hk : isKnown d.desc with
    | false => simp [hk]
    | true => simp [hk, hopen d hd hk]
  rw [hknown] at hdesc
  rw [findAccessoryDevice, discoverDevices]
  generalize openDevices isKnown {} devs = r at herror hdesc ⊢
  obtain ⟨⟨opened, err⟩, b⟩ := r
  obtain rfl : err = none := herror
  have hpick := fst_pick none (discover filter b opened).2 (discover filter b opened).1
  have hfound := found_discover b opened filter
  simp only at hdesc ⊢
  rw [hdesc] at hfound
  generalize pick none (discover filter b opened).2 (discover filter b opened).1 = r at hpick ⊢
  refine ⟨r.1, by obtain ⟨_ | d, b'⟩ := r <;> rfl, ?_⟩
  have hpure : NativeHost.discoverDevices (devs.map (·.desc)) filter =
      (discover filter b opened).1.map fun d =>
        (⟨d.device.desc, d.serial, d.isAccessory⟩ : DiscoveredDevice) := hfound.symm
  rw [hpick, Option.none_or, NativeHost.findAccessoryDevice, hpure, List.find?_map]
  rfl

end Bus

end SmartIdVault.NativeHost
