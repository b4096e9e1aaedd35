import Mathlib.Data.List.DropRight
import SmartIdVault.Lib.Numbering
import SmartIdVault.Lib.Regex
import SmartIdVault.Pairing.Confirmation

/-! `resolveDeviceName` of `deviceRegistry.ts`, with and without the name of a phone.  Its two loops
count on while a name is taken; the fuel is as many turns as they may take. -/

namespace SmartIdVault.DeviceRegistry

open Numbering (countUp)
open Utf16 (ofString)

/-- `trim`, which takes off what `\s` matches. -/
def trim (s : Utf16) : Utf16 := (s.dropWhile Regex.isSpace).rdropWhile Regex.isSpace

/-- `${trimmed} (${counter})`. -/
def numberedName (trimmed : Utf16) (counter : Nat) : Utf16 :=
  trimmed ++ ofString (" (" ++ toString counter ++ ")")

def names (devices : List DeviceRecord) : List Utf16 := devices.map DeviceRecord.name

/-- A name of blanks counts as none. -/
def resolveDeviceName (fuel : Nat) (devices : List DeviceRecord) (phoneName : Option Utf16) :
    Option Utf16 :=
  match (phoneName.map trim).filter (· ≠ []) with
  | some trimmed =>
    if !(names devices).contains trimmed then some trimmed
    else
      (countUp (fun counter => (names devices).contains (numberedName trimmed counter)) fuel 2).map
        (numberedName trimmed)
  | none =>
    (countUp (fun counter => (names devices).contains (Pairing.phoneName counter)) fuel
      (devices.length + 1)).map Pairing.phoneName

/-! ### Fresh names -/

section Names

variable {devices : List DeviceRecord} {phoneName : Option Utf16} {fuel : Nat}
  {name trimmed : Utf16}

@[simp] theorem length_names : (names devices).length = devices.length := List.length_map ..

theorem numberedName_injective (trimmed : Utf16) : Function.Injective (numberedName trimmed) := by
  intro m n h
  have hname : " (" ++ toString m ++ ")" = " (" ++ toString n ++ ")" :=
    Utf16.ofString_inj (List.append_cancel_left h)
  have hdigits : toString m = toString n := by
    simpa [← String.toList_inj] using congrArg String.toList hname
  exact Utf16.decimal_inj (congrArg ofString hdigits)

theorem resolveDeviceName_of_free (htrim : (phoneName.map trim).filter (· ≠ []) = some trimmed)
    (hfree : trimmed ∉ names devices) :
    resolveDeviceName fuel devices phoneName = some trimmed := by
  simp only [resolveDeviceName, htrim]
  rw [if_pos (by simpa using hfree)]

theorem resolveDeviceName_of_taken (htrim : (phoneName.map trim).filter (· ≠ []) = some trimmed)
    (htaken : trimmed ∈ names devices) :
    resolveDeviceName fuel devices phoneName =
      (countUp (fun counter => (names devices).contains (numberedName trimmed counter)) fuel 2).map
        (numberedName trimmed) := by
  simp only [resolveDeviceName, htrim]
  rw [if_neg (by simpa using htaken)]

theorem resolveDeviceName_of_blank (htrim : (phoneName.map trim).filter (· ≠ []) = none) :
    resolveDeviceName fuel devices phoneName =
      (countUp (fun counter => (names devices).contains (Pairing.phoneName counter)) fuel
        (devices.length + 1)).map Pairing.phoneName := by
  simp only [resolveDeviceName, htrim]

/-- Both loops end within one turn for each device. -/
theorem exists_countUp {name : Nat → Utf16} (hname : Function.Injective name) (counter : Nat) :
    ∃ n, ∀ fuel, devices.length ≤ fuel →
      countUp (fun counter => (names devices).contains (name counter)) fuel counter = some n := by
  obtain ⟨n, hn, -⟩ := Numbering.exists_countUp_names hname (names devices) counter
  exact ⟨n, fun fuel hfuel => hn fuel (by rwa [length_names])⟩

theorem notMem_of_countUp {name : Nat → Utf16} {counter : Nat} {resolved : Utf16}
    (h : (countUp (fun counter => (names devices).contains (name counter)) fuel counter).map name =
      some resolved) : resolved ∉ names devices := by
  obtain ⟨n, hn, rfl⟩ := Option.map_eq_some_iff.mp h
  obtain ⟨-, -, hfree, -⟩ := Numbering.countUp_eq_some_iff.mp hn
  simpa using hfree

/-- On each of the three ways out the name is not that of a listed device. -/
theorem notMem_of_resolved (h : resolveDeviceName fuel devices phoneName = some name) :
    name ∉ names devices := by
  cases htrim : (phoneName.map trim).filter (· ≠ []) with
  | some trimmed =>
    by_cases hfree : trimmed ∈ names devices
    · rw [resolveDeviceName_of_taken htrim hfree] at h
      exact notMem_of_countUp h
    · rw [resolveDeviceName_of_free htrim hfree] at h
      rwa [← Option.some.inj h]
  | none =>
    rw [resolveDeviceName_of_blank htrim] at h
    exact notMem_of_countUp h

theorem exists_resolved (devices : List DeviceRecord) (phoneName : Option Utf16) :
    ∃ name, ∀ fuel, devices.length ≤ fuel →
      resolveDeviceName fuel devices phoneName = some name := by
  cases htrim : (phoneName.map trim).filter (· ≠ []) with
  | some trimmed =>
    by_cases hfree : trimmed ∈ names devices
    · obtain ⟨n, hn⟩ := exists_countUp (numberedName_injective trimmed) 2
      refine ⟨numberedName trimmed n, ?_⟩
      intro fuel hfuel
      rw [resolveDeviceName_of_taken htrim hfree, hn fuel hfuel, Option.map_some]
    · exact ⟨trimmed, fun _ _ => resolveDeviceName_of_free htrim hfree⟩
  | none =>
    obtain ⟨n, hn⟩ := exists_countUp Pairing.phoneName_injective (devices.length + 1)
    refine ⟨Pairing.phoneName n, ?_⟩
    intro fuel hfuel
    rw [resolveDeviceName_of_blank htrim, hn fuel hfuel, Option.map_some]

/-- The loops end after at most as many turns as there are devices, and the name that is returned
is not that of a listed device. -/
theorem resolveDeviceName_fresh (devices : List DeviceRecord) (phoneName : Option Utf16) :
    ∃ name, (∀ fuel, devices.length ≤ fuel →
      resolveDeviceName fuel devices phoneName = some name) ∧ ∀ d ∈ devices, d.name ≠ name := by
  obtain ⟨name, hname⟩ := exists_resolved devices phoneName
  refine ⟨name, hname, ?_⟩
  intro d hd heq
  exact notMem_of_resolved (hname devices.length le_rfl) (List.mem_map.mpr ⟨d, hd, heq⟩)

/-- `Phone 4` is taken, and so is `Pixel`. -/
example : let devices : List DeviceRecord := ["Phone 4", "Pixel", "Pixel (2)"].map fun name =>
      ⟨[], ofString name, [], 0, 0, false⟩
    resolveDeviceName 3 devices none = some (ofString "Phone 5") ∧
      resolveDeviceName 3 devices (some (ofString " Pixel ")) = some (ofString "Pixel (3)") := by
  decide

/-- The pairing has the second loop in the form of a count of turns that is known to be enough. -/
theorem resolveDeviceName_none (hfuel : devices.length ≤ fuel) :
    resolveDeviceName fuel devices none = some (Pairing.resolveDeviceName devices) := by
  obtain ⟨n, hn⟩ := exists_countUp Pairing.phoneName_injective (devices.length + 1)
  have hfirst : Pairing.resolveDeviceName devices = Pairing.phoneName n :=
    congrArg Pairing.phoneName (Pairing.firstFree_eq (hn _ length_names.ge))
  rw [hfirst, resolveDeviceName_of_blank rfl, hn fuel hfuel, Option.map_some]

/-! ### Distinct names -/

/-- A device that is added under the name it was given leaves the names distinct. -/
theorem nodup_names_withRecord {record : DeviceRecord} (h : (names devices).Nodup)
    (hnew : record.name ∉ names devices) : (names (withRecord devices record)).Nodup := by
  rw [withRecord]
  split
  · rw [names, List.map_set]
    exact h.set hnew
  · rw [names, List.map_append]
    refine List.nodup_append.mpr ⟨h, List.nodup_singleton _, ?_⟩
    rintro name hmem _ hlast rfl
    rw [List.mem_singleton.mp hlast] at hmem
    exact hnew hmem

theorem names_seen (deviceId : Utf16) (now : Int) :
    names (seen devices deviceId now) = names devices := by
  simp only [names, seen, List.map_map]
  apply List.map_congr_left
  intro d _
  by_cases h : d.deviceId = deviceId <;> simp [h]

theorem names_map_forgetKey : names (devices.map forgetKey) = names devices := by
  simp only [names, List.map_map]
  rfl

/-- A device is added under a name that `resolveDeviceName` has returned for the present list. -/
def Named (w : Worker) : Event → Prop
  | .call (.addDevice record) => ∃ fuel phoneName,
      resolveDeviceName fuel w.listDevices phoneName = some record.name
  | _ => True

theorem nodup_names_plan {m : Mutation} {newDevices : List DeviceRecord}
    {activeId newActive : Option Utf16} (h : (names devices).Nodup)
    (hnamed : ∀ record, m = .addDevice record → record.name ∉ names devices)
    (hm : m.plan devices activeId = .ok (some (newDevices, newActive))) :
    (names newDevices).Nodup := by
  cases m with
  | addDevice record =>
    simp only [Mutation.plan] at hm
    split at hm
    · cases hm
    · cases hm
      exact nodup_names_withRecord h (hnamed record rfl)
  | removeDevice deviceId | revokeDevice deviceId newKeyPair =>
    simp only [Mutation.plan] at hm
    split at hm
    · cases hm
      exact h.sublist (List.filter_sublist.map DeviceRecord.name)
    · cases hm
  | setActiveDevice deviceId now | updateDeviceLastSeen deviceId now =>
    simp only [Mutation.plan] at hm
    split at hm
    · cases hm
      rwa [names_seen]
    · cases hm

/-- From empty storage on, whatever calls and restarts follow one another, the names are distinct
when every device is added under a name that was resolved for it. -/
theorem names_distinct {es : List Event} {w : Worker} (hrun : Machine.Run Worker.step {} es w)
    (hnamed : Machine.Throughout Worker.step Named {} es) : (names w.listDevices).Nodup := by
  have hkept : ∃ r, Represents w r ∧ (names r.devices).Nodup := by
    refine hrun.invariant (I := fun w => ∃ r, Represents w r ∧ (names r.devices).Nodup)
      ⟨.empty, .init, List.nodup_nil⟩ hnamed ?_
    rintro v e t ⟨r, h, hnodup⟩ hadd hs
    cases e with
    | call m =>
      obtain rfl := Option.some.inj hs
      refine ⟨_, (h.perform m).1, ?_⟩
      have hnew : ∀ record, m = .addDevice record → record.name ∉ names r.devices := by
        rintro record rfl
        obtain ⟨fuel, phoneName, hresolved⟩ := hadd
        rw [h.listDevices] at hresolved
        exact notMem_of_resolved hresolved
      by_cases hplan : ∃ p, m.plan r.devices r.activeId = .ok (some p)
      · obtain ⟨⟨newDevices, newActive⟩, hplan⟩ := hplan
        rw [Registry.perform_of_plan hplan]
        exact nodup_names_plan hnodup hnew hplan
      · rw [Registry.perform_of_not_plan fun p hp => hplan ⟨p, hp⟩]
        exact hnodup
    | restart =>
      obtain rfl := Option.some.inj hs
      exact ⟨r, h.restart, hnodup⟩
    | browserRestart =>
      obtain rfl := Option.some.inj hs
      refine ⟨_, h.browserRestart, ?_⟩
      show (names (r.devices.map forgetKey)).Nodup
      rwa [names_map_forgetKey]
  obtain ⟨r, h, hnodup⟩ := hkept
  rwa [h.listDevices]

end Names

end SmartIdVault.DeviceRegistry
