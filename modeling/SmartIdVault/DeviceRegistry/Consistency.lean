import SmartIdVault.DeviceRegistry.Steps

/-! Whole runs of interleaved calls of the registry: what the cache and the storage say at their
end. -/

namespace SmartIdVault.DeviceRegistry

/-- After a run of the calls `s` from the worker `w` on, with all of them finished: the cache is
what is stored, a device is listed as the settled calls say, and calls have failed for the
documented reasons only. -/
structure Consistent (w : Worker) (s : System) : Prop where
  cached : s.calls ≠ [] → s.cache = loadFromStorage s.storage
  listed : ∀ id, id ∈ ids (loadFromStorage s.storage |>.devices.getD []) ↔
    present id (id ∈ ids w.listDevices) s.settled = true
  documented : ∀ c ∈ s.calls, ∀ failure, c.pc = .finished (.error failure) →
    c.kind.Expects failure

/-- What a mutator does to the listed ids. -/
theorem present_perform (r : Registry) (m : Mutation) (id : Utf16)
    (rest : List (Mutation × Except Failure Unit)) :
    present id (id ∈ ids r.devices) ((m, (m.plan r.devices r.activeId).map fun _ => ()) :: rest) =
      present id (id ∈ ids (r.perform m).devices) rest := by
  cases hplan : m.plan r.devices r.activeId with
  | error failure =>
    rw [Registry.perform_of_not_plan (by simp [hplan])]
    cases m <;> rfl
  | ok p =>
    cases p with
    | none =>
      rw [Registry.perform_of_not_plan (by simp [hplan])]
      cases m with
      | updateDeviceLastSeen => rfl
      | addDevice | removeDevice | setActiveDevice | revokeDevice =>
        simp only [Mutation.plan] at hplan
        split at hplan <;> cases hplan
    | some p =>
      obtain ⟨devices, activeId⟩ := p
      rw [Registry.perform_of_plan hplan]
      cases m with
      | addDevice record =>
        simp only [Mutation.plan] at hplan
        split at hplan
        · cases hplan
        · cases hplan
          simp only [Except.map, present, ids_withRecord]
          congr 1
          split
          next hmem =>
            by_cases hid : id = record.deviceId
            · simp [hid, hmem]
            · simp [hid]
          next => simp
      | removeDevice deviceId | revokeDevice deviceId _ =>
        simp only [Mutation.plan] at hplan
        split at hplan
        · cases hplan
          simp [Except.map, present, ids_without]
        · cases hplan
      | setActiveDevice deviceId now | updateDeviceLastSeen deviceId now =>
        simp only [Mutation.plan] at hplan
        split at hplan
        · cases hplan
          simp only [present, ids_seen]
        · cases hplan

/-- The last call of a mutator that lists a device or takes it away decides on it. -/
theorem Explains.present_iff {r r' : Registry} {settled : List (Mutation × Except Failure Unit)}
    (h : Explains r settled r') (id : Utf16) :
    id ∈ ids r'.devices ↔ present id (id ∈ ids r.devices) settled = true := by
  induction settled generalizing r with
  | nil =>
    cases h
    simp [present]
  | cons e rest ih =>
    obtain ⟨m, result⟩ := e
    obtain ⟨rfl, hrest⟩ := h
    rw [present_perform, ih hrest]

theorem inv_init {w : Worker} {r : Registry} (h : Represents w r) : Inv r (.of w) where
  explained := by
    refine ⟨r, rfl, .inl ⟨h.cached, h.stored, ?_, .inr (.inr ?_)⟩⟩
    all_goals
      intro c hc
      cases hc
  lock i m pc hi := by cases hi
  results c hc := by cases hc

/-- From a state of the worker on, whatever calls interleave. -/
theorem consistent_of_sound {es₀ : List Event} {w : Worker} {es : List SystemEvent} {s : System}
    (earlier : Machine.Run Worker.step {} es₀ w) (run : Machine.Run System.step (.of w) es s)
    (hsound : Machine.Throughout System.step System.Sound (.of w) es) (hidle : s.Idle) :
    Consistent w s := by
  obtain ⟨r₀, hrep⟩ := represents_of_run earlier
  have hquiet : ∀ c ∈ s.calls, c.pc.writing = false ∧ c.pc.loading = false := by
    intro c hc
    have hended := hidle c hc
    cases hpc : c.pc <;> simp_all [Pc.ended, Pc.writing, Pc.loading]
  have hno : s.NoOverlap := fun _ c hc => (hquiet c hc).2
  have hinv : s.NoOverlap → Inv r₀ s :=
    run.invariant (I := fun s => s.NoOverlap → Inv r₀ s) (fun _ => inv_init hrep) hsound
      fun _ _ _ h hsound hs hno => (h hsound.1).step hsound hs hno
  obtain ⟨⟨r, hex, hq | ⟨i, hb⟩⟩, -, hresults⟩ := hinv hno
  · refine ⟨?_, ?_, hresults⟩
    · intro hne
      obtain hinit | ⟨c, hc, hl⟩ | hall := hq.woken
      · rw [hq.stored, hq.cached hinit]
      · rw [(hquiet c hc).2] at hl
        cases hl
      · obtain ⟨c, hc⟩ := List.exists_mem_of_ne_nil _ hne
        have hended := hidle c hc
        rw [hall c hc] at hended
        cases hended
    · intro id
      rw [hq.stored, hrep.listDevices]
      exact hex.present_iff id
  · obtain ⟨m, pc, hi, hstaged⟩ := hb.writer
    have hnot := (hquiet _ (List.mem_of_getElem? hi)).1
    rw [hstaged.writing] at hnot
    cases hnot

def workerAfter (es : List Event) : Worker := (Machine.exec Worker.step {} es).getD {}

/-- Storage takes up the request of call `i` and replies. -/
def answered (i : Nat) : List SystemEvent := [.serve i, .reply i]

def rotated : Pairing.NoiseKeyPair where
  publicKey := List.replicate 32 1
  secretKey := List.replicate 32 2
  publicKey_length := rfl
  secretKey_length := rfl

/-- A reader loads the cache; a phone is added while another reader looks up the active one; then
the registry is reconciled, and after that the first phone revoked. -/
def oneAfterTheOther : List SystemEvent :=
  [.call .read, .call (.mutate (.addDevice (phone 3)))] ++ answered 0 ++
    [.resume 0, .begin 1, .resume 1, .call .readActive] ++ answered 1 ++ [.resume 2] ++
    answered 1 ++ [.call .reconcile, .call (.mutate (.revokeDevice [2] rotated))] ++ answered 3 ++
    [.begin 4, .resume 4] ++ answered 4 ++ answered 4 ++ answered 4 ++ answered 4

theorem one_after_the_other_consistent :
    ∃ s, Machine.Run System.step (.of (workerAfter twoPhones)) oneAfterTheOther s ∧
      Consistent (workerAfter twoPhones) s := by
  have earlier : Machine.Run Worker.step {} twoPhones (workerAfter twoPhones) :=
    Machine.run_of_exec rfl
  have hexec : ((Machine.exec System.step (.of (workerAfter twoPhones)) oneAfterTheOther).any
      fun s => s.Idle) = true := by
    decide +kernel
  obtain ⟨s, run, hidle⟩ := Machine.exists_run_with hexec
  exact ⟨s, run, consistent_of_sound earlier run (by decide +kernel) (of_decide_eq_true hidle)⟩

/-- A reader at the start of the service worker has its list of storage when a phone is added, and
the reply reaches it after that: the phone is in storage, but no longer in the cache. -/
def staleLoad : List SystemEvent :=
  [.call .read, .serve 0, .call (.mutate (.addDevice (phone 2))), .begin 1] ++ answered 1 ++
    [.resume 1] ++ answered 1 ++ answered 1 ++ [.reply 0, .resume 0]

def onePhone : List Event := [.call (.addDevice (phone 1)), .restart]

theorem stale_load_loses_device : Machine.Run Worker.step {} onePhone (workerAfter onePhone) ∧
    ∃ s, Machine.Run System.step (.of (workerAfter onePhone)) staleLoad s ∧ s.Idle ∧
      ¬Consistent (workerAfter onePhone) s := by
  have run : Machine.Run System.step (.of (workerAfter onePhone)) staleLoad _ :=
    Machine.run_of_exec rfl
  refine ⟨Machine.run_of_exec rfl, _, run, by decide +kernel, fun h => ?_⟩
  have hcached := h.cached (by decide +kernel)
  revert hcached
  decide +kernel

end SmartIdVault.DeviceRegistry
