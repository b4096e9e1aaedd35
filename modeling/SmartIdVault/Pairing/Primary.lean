import SmartIdVault.Pairing.Confirmation

/-! The primary device.  `confirmSasMatch` makes a device the primary one if no other is listed when
it is paired, and nothing looks at the mark again: a primary device that is paired once more loses
it, and one that is removed or revoked takes it along. -/

namespace SmartIdVault.Pairing

open DeviceRegistry (DeviceRecord Worker Faulty Registry Represents withRecord without seen ids)

/-- Exactly one of the devices is the primary one, if there are any. -/
def OnePrimary (devices : List DeviceRecord) : Prop :=
  devices ≠ [] → devices.countP (·.isPrimary) = 1

section Lists

variable {devices : List DeviceRecord} {record : DeviceRecord} {deviceId : Utf16}

theorem onePrimary_seen (now : Int) :
    OnePrimary (seen devices deviceId now) ↔ OnePrimary devices := by
  have hcount : (seen devices deviceId now).countP (·.isPrimary) =
      devices.countP (·.isPrimary) := by
    rw [seen, List.countP_map]
    apply List.countP_congr
    intro d _
    rw [Function.comp]
    split <;> rfl
  have hnil : seen devices deviceId now = [] ↔ devices = [] := by simp [seen]
  rw [OnePrimary, OnePrimary, hcount, Ne, hnil]

/-- The primary devices are those that stay and those that go. -/
theorem countP_without (devices : List DeviceRecord) (deviceId : Utf16) :
    devices.countP (·.isPrimary) = (without devices deviceId).countP (·.isPrimary) +
      (devices.filter (·.deviceId = deviceId)).countP (·.isPrimary) := by
  rw [List.countP_eq_countP_filter_add devices _ (fun d => decide (d.deviceId ≠ deviceId)), without]
  simp

theorem length_le_one_of_without_eq_nil (hu : (ids devices).Nodup)
    (h : without devices deviceId = []) : devices.length ≤ 1 := by
  have hall : ∀ id ∈ ids devices, id = deviceId := by
    intro id hid
    obtain ⟨d, hd, rfl⟩ := List.mem_map.mp hid
    rw [without, List.filter_eq_nil_iff] at h
    simpa using h d hd
  rw [List.eq_replicate_of_mem hall, List.nodup_replicate, DeviceRegistry.length_ids] at hu
  exact hu

/-- Removing a device keeps the primary one unless it is that device and not the last one. -/
theorem onePrimary_without_iff (h : OnePrimary devices) (hu : (ids devices).Nodup) :
    OnePrimary (without devices deviceId) ↔
      ∀ d ∈ devices, d.deviceId = deviceId → d.isPrimary = true → devices.length = 1 := by
  have hcount := countP_without devices deviceId
  constructor
  · intro hwithout d hd hid hp
    have hone := h (List.ne_nil_of_mem hd)
    have hgone : 0 < (devices.filter (·.deviceId = deviceId)).countP (·.isPrimary) :=
      List.countP_pos_iff.mpr ⟨d, List.mem_filter.mpr ⟨hd, decide_eq_true hid⟩, hp⟩
    have hnil : without devices deviceId = [] := by
      by_contra hne
      have := hwithout hne
      omega
    have hle := length_le_one_of_without_eq_nil hu hnil
    have hpos := List.length_pos_of_mem hd
    omega
  · intro hlast hne
    obtain ⟨x, hx⟩ := List.exists_mem_of_ne_nil _ hne
    have hone := h (List.ne_nil_of_mem (List.mem_of_mem_filter hx))
    have hgone : (devices.filter (·.deviceId = deviceId)).countP (·.isPrimary) = 0 := by
      rw [List.countP_eq_zero]
      intro d hd hp
      obtain ⟨hd, hid⟩ := List.mem_filter.mp hd
      obtain ⟨y, hy⟩ := List.length_eq_one_iff.mp (hlast d hd (of_decide_eq_true hid) hp)
      rw [hy, List.mem_singleton] at hd
      rw [without, hy, List.mem_filter, List.mem_singleton] at hx
      obtain ⟨rfl, hxid⟩ := hx
      exact of_decide_eq_true hxid (hd ▸ of_decide_eq_true hid)
    omega

/-- A device that is paired once more is not the primary one any longer; a new device is the primary
one if it is the first. -/
theorem onePrimary_withRecord_iff (h : OnePrimary devices) (hu : (ids devices).Nodup)
    (hr : record.isPrimary = decide (devices.length = 0)) :
    OnePrimary (withRecord devices record) ↔
      ∀ d ∈ devices, d.deviceId = record.deviceId → d.isPrimary = false := by
  rw [withRecord]
  split
  · rename_i i hi
    obtain ⟨hlt, hid, -⟩ := List.findIdx?_eq_some_iff_getElem.mp hi
    have hne : devices ≠ [] := List.ne_nil_of_mem (List.getElem_mem hlt)
    have hone := h hne
    have hrecord : record.isPrimary = false := by simp [hr, hne]
    have hcount : (devices.set i record).countP (·.isPrimary) =
        1 - if devices[i].isPrimary then 1 else 0 := by
      rw [List.countP_set hlt, hone, hrecord]
      rfl
    have hset : devices.set i record ≠ [] := by simpa using hne
    rw [OnePrimary, hcount]
    constructor
    · intro hprimary d hd hdid
      have hsame : d = devices[i] := List.inj_on_of_nodup_map hu hd (List.getElem_mem hlt)
        (hdid.trans (of_decide_eq_true hid).symm)
      by_contra hp
      rw [hsame, Bool.not_eq_false] at hp
      simpa [hp] using hprimary hset
    · intro hnot _
      rw [hnot _ (List.getElem_mem hlt) (of_decide_eq_true hid)]
      rfl
  · rename_i hnone
    rw [List.findIdx?_eq_none_iff] at hnone
    refine iff_of_true ?_ ?_
    · intro _
      rw [List.countP_append, List.countP_singleton, hr]
      by_cases hnil : devices = []
      · simp [hnil]
      · simp [hnil, h hnil]
    · intro d hd hid
      exact absurd hid (of_decide_eq_false (hnone d hd))

end Lists

namespace Pairer

/-! ### A confirmation in which nothing fails -/

section

variable {env : Surroundings} {remoteStaticPk : Bytes} {s : Pairer} {active : PairingSession}
  {devices : List DeviceRecord} {r : Registry}

/-- Storing the pairing does not touch the registry. -/
theorem represents_paired (h : Represents s.registry r) :
    Represents (s.paired remoteStaticPk active).registry r where
  cached _ := by
    have hloaded := congrArg Worker.cache h.ensureLoaded
    exact hloaded
  stored := by
    rw [← h.stored]
    simp only [paired, setPairing, DeviceRegistry.ensureLoaded_storage]
    rfl
  kept := by
    rw [← h.kept]
    simp only [paired, setPairing, DeviceRegistry.ensureLoaded_storage]
    rfl

theorem represents_of_ensureLoaded_eq {v w : Worker} (h : Represents w r)
    (hv : v.ensureLoaded = w.ensureLoaded) : Represents v r := by
  have hstorage : v.storage = w.storage := by
    rw [← DeviceRegistry.ensureLoaded_storage, hv, DeviceRegistry.ensureLoaded_storage]
  refine ⟨?_, by rw [hstorage]; exact h.stored, by rw [hstorage]; exact h.kept⟩
  intro hi
  rw [← DeviceRegistry.ensureLoaded_of_initialized hi, hv, h.ensureLoaded]

theorem devices_of_represents (h : Represents s.registry r) :
    s.registry.ensureLoaded.cache.devices = some r.devices := by
  rw [h.ensureLoaded]
  rfl

theorem openPage_registry (fails : ConfirmCall → Bool) :
    (s.openPage fails env remoteStaticPk).registry = s.registry := by
  rw [openPage, fallbackToPrfOnly]
  split
  · split <;> rfl
  · rfl

theorem notify_registry (fails : ConfirmCall → Bool) : (s.notify fails).registry = s.registry := by
  rw [notify]
  split <;> rfl

theorem finish_of_not_fails (env : Surroundings) (remoteStaticPk : Bytes) (s : Pairer) :
    ∃ t, s.finish (fun _ => false) env remoteStaticPk = (.ok (), t) ∧
      t.registry = s.registry := by
  rw [finish]
  split
  · rw [Faults.call_of_not_fails rfl, Faults.andThen_ok]
    refine ⟨_, rfl, ?_⟩
    rw [openPage_registry, notify_registry]
  · exact ⟨_, rfl, rfl⟩

/-- The device is added or replaced, and becomes the active one. -/
theorem confirm_of_paired (hr : Represents s.registry r)
    (h : Paired (fun _ => false) env remoteStaticPk s active r.devices) :
    ∃ t r', s.confirm (fun _ => false) env remoteStaticPk = (.ok (), t) ∧
      Represents t.registry r' ∧ r'.devices =
        seen (withRecord r.devices (deviceRecord env remoteStaticPk r.devices))
          (deriveDeviceId env.sha256 remoteStaticPk) env.activatedAt := by
  have hd : (s.paired remoteStaticPk active).registry.cache.devices = some r.devices := h.listed
  have hadd := plan_addDevice h r.activeId
  obtain ⟨hr₁, hok₁⟩ := (@represents_paired remoteStaticPk s active r hr).perform
    (.addDevice (deviceRecord env remoteStaticPk r.devices))
  rw [hadd] at hok₁
  rw [Registry.perform_of_plan hadd] at hr₁
  have hlisted : DeviceRegistry.listed
      (withRecord r.devices (deviceRecord env remoteStaticPk r.devices))
      (deriveDeviceId env.sha256 remoteStaticPk) = true :=
    DeviceRegistry.listed_iff.mpr (List.mem_map_of_mem (mem_withRecord _))
  have hactivate : DeviceRegistry.Mutation.plan
      (withRecord r.devices (deviceRecord env remoteStaticPk r.devices)) r.activeId
      (.setActiveDevice (deriveDeviceId env.sha256 remoteStaticPk) env.activatedAt) =
      .ok (some (seen (withRecord r.devices (deviceRecord env remoteStaticPk r.devices))
        (deriveDeviceId env.sha256 remoteStaticPk) env.activatedAt,
        some (deriveDeviceId env.sha256 remoteStaticPk))) := by
    rw [DeviceRegistry.Mutation.plan, if_pos hlisted]
  obtain ⟨hr₂, hok₂⟩ := hr₁.perform
    (.setActiveDevice (deriveDeviceId env.sha256 remoteStaticPk) env.activatedAt)
  rw [hactivate] at hok₂
  rw [Registry.perform_of_plan hactivate] at hr₂
  have hperform (m : DeviceRegistry.Mutation) (w : Worker) : Faulty.perform (fun _ => false) m w =
      ((w.perform m).1.mapError .failure, (w.perform m).2) :=
    DeviceRegistry.perform_of_not_fails fun _ _ => rfl
  have hadded : (s.paired remoteStaticPk active).add (fun _ => false) env remoteStaticPk =
      (.ok (), { s.paired remoteStaticPk active with
        registry := ((s.paired remoteStaticPk active).registry.perform
          (.addDevice (deviceRecord env remoteStaticPk r.devices))).2 }) := by
    simp only [add, hd, Option.getD_some, hperform, hok₁]
    rfl
  rw [confirm, prepare_of_paired h, Faults.andThen_ok, hadded, Faults.andThen_ok, onRegistry]
  simp only [hperform, hok₂]
  obtain ⟨t, ht, hregistry⟩ := finish_of_not_fails env remoteStaticPk
    { s.paired remoteStaticPk active with
      registry := (((s.paired remoteStaticPk active).registry.perform
        (.addDevice (deviceRecord env remoteStaticPk r.devices))).2.perform
        (.setActiveDevice (deriveDeviceId env.sha256 remoteStaticPk) env.activatedAt)).2 }
  simp only at hregistry
  rw [← hregistry] at hr₂
  exact ⟨t, _, ht, hr₂, rfl⟩

/-- A confirmation that does not get as far as `addDevice` leaves the registry alone. -/
theorem confirm_of_not_paired (hr : Represents s.registry r)
    (h : ∀ active devices, ¬Paired (fun _ => false) env remoteStaticPk s active devices) :
    ∃ e t, s.confirm (fun _ => false) env remoteStaticPk = (.error e, t) ∧
      Represents t.registry r := by
  obtain ⟨e, t, heq, hsame, -⟩ := prepare_of_not_paired h
  refine ⟨e, t, ?_, represents_of_ensureLoaded_eq hr hsame⟩
  rw [confirm, heq, Faults.andThen_error]

end

/-! ### Runs -/

/-- A handshake with a phone is completed, the user confirms it, and devices are removed and
revoked. -/
inductive PrimaryEvent
  | handshake (active : PairingSession) (session : Option NoiseSession) (remoteStaticPk : Bytes)
  | confirmSasMatch (env : Surroundings)
  | removeDevice (deviceId : Utf16)
  | revokeDevice (deviceId : Utf16) (newKeyPair : NoiseKeyPair)

def mutate (s : Pairer) (m : DeviceRegistry.Mutation) : Pairer :=
  { s with registry := (s.registry.perform m).2 }

def step (s : Pairer) : PrimaryEvent → Option Pairer
  | .handshake active session remoteStaticPk =>
    some { s with
      activeSession := some active
      currentSession := session
      pendingRemoteStaticPk := some remoteStaticPk }
  | .confirmSasMatch env => some (s.confirmSasMatch (fun _ => false) env).2
  | .removeDevice deviceId => some (s.mutate (.removeDevice deviceId))
  | .revokeDevice deviceId newKeyPair => some (s.mutate (.revokeDevice deviceId newKeyPair))

def HasOnePrimary (s : Pairer) : Prop := OnePrimary s.registry.listDevices

/-- The primary device is neither paired once more nor, with others listed, removed. -/
def KeepsPrimary (s : Pairer) : PrimaryEvent → Prop
  | .handshake .. => True
  | .confirmSasMatch env => s.activeSession.isSome = true → ∀ pk ∈ s.pendingRemoteStaticPk,
      ∀ d ∈ s.registry.listDevices, d.deviceId = deriveDeviceId env.sha256 pk →
        d.isPrimary = false
  | .removeDevice deviceId | .revokeDevice deviceId _ => ∀ d ∈ s.registry.listDevices,
      d.deviceId = deviceId → d.isPrimary = true → s.registry.listDevices.length = 1

instance (s : Pairer) : (e : PrimaryEvent) → Decidable (s.KeepsPrimary e)
  | .handshake .. => instDecidableTrue
  | .confirmSasMatch env => inferInstanceAs (Decidable (s.activeSession.isSome = true →
      ∀ pk ∈ s.pendingRemoteStaticPk, ∀ d ∈ s.registry.listDevices,
        d.deviceId = deriveDeviceId env.sha256 pk → d.isPrimary = false))
  | .removeDevice deviceId | .revokeDevice deviceId _ =>
    inferInstanceAs (Decidable (∀ d ∈ s.registry.listDevices, d.deviceId = deviceId →
      d.isPrimary = true → s.registry.listDevices.length = 1))

/-- The registry that cache and storages keep has one primary device. -/
def PrimaryInv (s : Pairer) : Prop :=
  ∃ r, Represents s.registry r ∧ OnePrimary r.devices

variable {s t : Pairer} {r : Registry}

/-- What a removal makes of the registry. -/
theorem mutate_iff (hr : Represents s.registry r) (hone : OnePrimary r.devices)
    {m : DeviceRegistry.Mutation} {deviceId : Utf16}
    (hm : m = .removeDevice deviceId ∨ ∃ newKeyPair, m = .revokeDevice deviceId newKeyPair) :
    ∃ r', Represents (s.mutate m).registry r' ∧ (OnePrimary r'.devices ↔
      ∀ d ∈ s.registry.listDevices, d.deviceId = deviceId → d.isPrimary = true →
        s.registry.listDevices.length = 1) := by
  refine ⟨r.perform m, (hr.perform m).1, ?_⟩
  have hplan : m.plan r.devices r.activeId = DeviceRegistry.Mutation.plan r.devices r.activeId
      (.removeDevice deviceId) := by
    rcases hm with rfl | ⟨newKeyPair, rfl⟩
    · rfl
    · rfl
  rw [hr.listDevices]
  by_cases hl : DeviceRegistry.listed r.devices deviceId = true
  · rw [DeviceRegistry.Mutation.plan, if_pos hl] at hplan
    rw [Registry.perform_of_plan hplan]
    exact onePrimary_without_iff hone r.wellFormed.unique
  · rw [DeviceRegistry.Mutation.plan, if_neg hl] at hplan
    rw [Registry.perform_of_not_plan (by simp [hplan])]
    refine iff_of_true hone ?_
    intro d hd hid
    exact absurd (DeviceRegistry.listed_iff.mpr (List.mem_map.mpr ⟨d, hd, hid⟩)) hl

/-- What a confirmation makes of it. -/
theorem confirmSasMatch_iff (hr : Represents s.registry r) (hone : OnePrimary r.devices)
    (env : Surroundings) :
    ∃ r', Represents (s.confirmSasMatch (fun _ => false) env).2.registry r' ∧
      (OnePrimary r'.devices ↔ s.KeepsPrimary (.confirmSasMatch env)) := by
  rw [KeepsPrimary, hr.listDevices]
  rcases hpending : s.pendingRemoteStaticPk with _ | pk
  · refine ⟨r, ?_, iff_of_true hone (by simp)⟩
    rw [confirmSasMatch, hpending]
    exact hr
  · by_cases hpaired : ∃ active devices, Paired (fun _ => false) env pk s active devices
    · obtain ⟨active, devices, hpaired⟩ := hpaired
      obtain rfl : r.devices = devices :=
        Option.some.inj ((devices_of_represents hr).symm.trans hpaired.listed)
      obtain ⟨t, r', heq, hr', hdevices⟩ := confirm_of_paired hr hpaired
      refine ⟨r', ?_, ?_⟩
      · rw [confirmSasMatch, hpending]
        simp only [heq]
        exact hr'
      · rw [hdevices, onePrimary_seen,
          onePrimary_withRecord_iff hone r.wellFormed.unique rfl, hpaired.active]
        simp [deviceRecord]
    · simp only [not_exists] at hpaired
      obtain ⟨e, t, heq, hr'⟩ := confirm_of_not_paired hr hpaired
      refine ⟨r, ?_, iff_of_true hone ?_⟩
      · rw [confirmSasMatch, hpending]
        simp only [heq]
        exact hr'
      · -- a listed device would have let the confirmation go on
        intro hsome pk' hpk d hd hid
        obtain rfl := Option.some.inj hpk
        obtain ⟨active, hactive⟩ := Option.isSome_iff_exists.mp hsome
        refine absurd ⟨rfl, fun _ _ => rfl, devices_of_represents hr, .inl ?_, hactive, rfl⟩
          (hpaired active r.devices)
        exact DeviceRegistry.listed_iff.mpr (List.mem_map.mpr ⟨d, hd, hid⟩)

theorem step_iff (hr : Represents s.registry r) (hone : OnePrimary r.devices) {e : PrimaryEvent}
    (hs : step s e = some t) :
    ∃ r', Represents t.registry r' ∧ (OnePrimary r'.devices ↔ s.KeepsPrimary e) := by
  cases e with
  | handshake active session remoteStaticPk =>
    obtain rfl := Option.some.inj hs
    exact ⟨r, hr, iff_of_true hone trivial⟩
  | confirmSasMatch env =>
    obtain rfl := Option.some.inj hs
    exact confirmSasMatch_iff hr hone env
  | removeDevice deviceId =>
    obtain rfl := Option.some.inj hs
    exact mutate_iff hr hone (.inl rfl)
  | revokeDevice deviceId newKeyPair =>
    obtain rfl := Option.some.inj hs
    exact mutate_iff hr hone (.inr ⟨newKeyPair, rfl⟩)

/-- From an empty registry on, there is exactly one primary device in every state if and only if the
primary one is never paired once more and never removed while others are listed. -/
theorem onePrimary_iff {es : List PrimaryEvent} (hrun : Machine.Run step {} es t) :
    Machine.Everywhere step HasOnePrimary {} es ↔ Machine.Throughout step KeepsPrimary {} es := by
  have init : PrimaryInv {} := ⟨.empty, .init, fun h => absurd rfl h⟩
  have hall : Machine.Throughout step (fun _ _ => True) {} es :=
    Machine.throughout_of_forall fun _ _ _ => trivial
  refine Machine.everywhere_iff_throughout hrun hall init ?_ ?_ ?_
  · rintro s ⟨r, hr, hone⟩
    rw [HasOnePrimary, hr.listDevices]
    exact hone
  · rintro s e t ⟨r, hr, hone⟩ - hg hs
    obtain ⟨r', hr', hiff⟩ := step_iff hr hone hs
    exact ⟨r', hr', hiff.mpr hg⟩
  · rintro s e t ⟨r, hr, hone⟩ - hg hs hp
    obtain ⟨r', hr', hiff⟩ := step_iff hr hone hs
    rw [HasOnePrimary, hr'.listDevices] at hp
    exact hg (hiff.mp hp)

/-! ### Two phones, one of which is removed -/

/-- The handshake with a phone and its confirmation. -/
def pair (pk : Bytes) : List PrimaryEvent :=
  [.handshake ⟨[], [], sampleKeyPair⟩ none pk, .confirmSasMatch sampleSurroundings]

/-- The phone that is left when the first one has been removed is not the primary one. -/
theorem removed_primary_leaves_none :
    ∃ t, Machine.Run step {} (pair [1] ++ pair [2] ++
        [.removeDevice (deriveDeviceId Sha256.sha256 [1])]) t ∧ ¬HasOnePrimary t := by
  obtain ⟨t, hrun, hmarks⟩ := Machine.exists_run_with
    (p := fun t : Pairer => t.registry.listDevices.map (·.isPrimary) = [false])
    (show (Machine.exec step {} (pair [1] ++ pair [2] ++
      [.removeDevice (deriveDeviceId Sha256.sha256 [1])])).any _ = true by decide +kernel)
  refine ⟨t, hrun, ?_⟩
  have hmarks := of_decide_eq_true hmarks
  intro hone
  have hne : t.registry.listDevices ≠ [] := by
    intro hnil
    simp [hnil] at hmarks
  have hnone : (t.registry.listDevices.map (·.isPrimary)).countP id = 0 := by
    rw [hmarks]
    rfl
  rw [List.countP_map] at hnone
  exact absurd ((hone hne).symm.trans hnone) (by decide)

theorem removed_other_keeps_primary :
    Machine.Everywhere step HasOnePrimary {} (pair [1] ++ pair [2] ++
      [.removeDevice (deriveDeviceId Sha256.sha256 [2])]) := by
  obtain ⟨t, hrun⟩ := Machine.exists_run_of_exec (show (Machine.exec step {} (pair [1] ++
    pair [2] ++ [.removeDevice (deriveDeviceId Sha256.sha256 [2])])).isSome = true by
      decide +kernel)
  exact (onePrimary_iff hrun).mpr (by decide +kernel)

end Pairer

end SmartIdVault.Pairing
