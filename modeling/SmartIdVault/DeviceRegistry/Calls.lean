import SmartIdVault.DeviceRegistry.Interleaving

/-! How the calls of the registry stand as long as loads and writes do not overlap: either nothing
is written, and a load in flight has seen what is in storage now, or one mutator, at the head of the
queue, is between its writes. -/

namespace SmartIdVault.DeviceRegistry

variable {r₀ r : Registry} {s t : System} {c : Call} {i j : Nat} {pc : Pc}

/-- A load in flight has seen what is in storage now, and nothing is written. -/
def Loads (storage : Storage) : Pc → Prop
  | .queued | .loaded | .finished _ => True
  | .loadingSession reply => ∀ p ∈ reply, p = (storage.sessionDevices, storage.sessionActive)
  | .loadingLocal reply =>
    ofSession storage.sessionDevices storage.sessionActive = none ∧
      ∀ p ∈ reply, p = storage.localMetas
  | .writingPairing .. | .writingSession .. | .writingLocal .. | .removingClient .. => False

/-- Nothing is written: cache and storage keep the registry `r`, and the cache is there, will be, or
has not been asked for. -/
structure Quiet (s : System) (r : Registry) : Prop where
  cached : s.cache.initialized = true → s.cache = r.toCache
  stored : loadFromStorage s.storage = r.toCache
  calls : ∀ c ∈ s.calls, Loads s.storage c.pc
  woken : s.cache.initialized = true ∨ (∃ c ∈ s.calls, c.pc.loading = true) ∨
    ∀ c ∈ s.calls, c.pc = .queued

/-- How far the mutator `m` has come with what it makes of the registry `r`. -/
def Staged (storage : Storage) (r : Registry) (m : Mutation) : Pc → Prop
  | .writingPairing devices _ =>
    devices = r.devices ∧ ∃ p, m.plan r.devices r.activeId = .ok (some p)
  | .writingSession devices activeId made =>
    m.plan r.devices r.activeId = .ok (some (devices, activeId)) ∧
      (made = true → storage.sessionDevices = some (devices.map deviceToSerializable) ∧
        storage.sessionActive = activeId)
  | .writingLocal devices activeId made =>
    m.plan r.devices r.activeId = .ok (some (devices, activeId)) ∧
      (storage.sessionDevices = some (devices.map deviceToSerializable) ∧
        storage.sessionActive = activeId) ∧
      (made = true → storage.localMetas = some (devices.map toMeta))
  | .removingClient devices activeId _ =>
    m.plan r.devices r.activeId = .ok (some (devices, activeId)) ∧
      (storage.sessionDevices = some (devices.map deviceToSerializable) ∧
        storage.sessionActive = activeId) ∧
      storage.localMetas = some (devices.map toMeta)
  | _ => False

/-- Call `i` writes, and the cache still has the registry `r`. -/
structure Busy (s : System) (r : Registry) (i : Nat) : Prop where
  cached : s.cache = r.toCache
  writer : ∃ m pc, s.calls[i]? = some ⟨.mutate m, pc⟩ ∧ Staged s.storage r m pc
  others : ∀ j c, j ≠ i → s.calls[j]? = some c → c.pc.writing = false

/-- Only the head of the queue is past it. -/
def Lock (s : System) : Prop :=
  ∀ i m pc, s.calls[i]? = some ⟨.mutate m, pc⟩ →
    pc = .queued ∨ (∃ result, pc = .finished result) ∨ s.queue.head? = some i

def Results (s : System) : Prop :=
  ∀ c ∈ s.calls, ∀ failure, c.pc = .finished (.error failure) → c.kind.Expects failure

/-- What holds as long as loads and writes do not overlap: the settled calls have led from the
registry `r₀` to the one that cache and storage keep, but for what a mutator is writing. -/
structure Inv (r₀ : Registry) (s : System) : Prop where
  explained : ∃ r, Explains r₀ s.settled r ∧ (Quiet s r ∨ ∃ i, Busy s r i)
  lock : Lock s
  results : Results s


theorem put_ne (h : j ≠ i) : (s.put i c pc).calls[j]? = s.calls[j]? :=
  List.getElem?_set_ne (Ne.symm h)

theorem put_self (hi : s.calls[i]? = some c) : (s.put i c pc).calls[i]? = some ⟨c.kind, pc⟩ :=
  Tasks.set_self hi _

theorem mem_put {c' : Call} (h : c' ∈ (s.put i c pc).calls) :
    c' = ⟨c.kind, pc⟩ ∨ ∃ j, j ≠ i ∧ s.calls[j]? = some c' := Tasks.mem_set h

theorem Lock.put (h : Lock s)
    (hpc : ∀ m, c.kind = .mutate m →
      pc = .queued ∨ (∃ result, pc = .finished result) ∨ s.queue.head? = some i)
    (hi : s.calls[i]? = some c) : Lock (s.put i c pc) := by
  intro j m pc' hj
  by_cases hji : j = i
  · subst hji
    rw [put_self hi, Option.some.injEq, Call.mk.injEq] at hj
    obtain ⟨hk, rfl⟩ := hj
    exact hpc m hk
  · rw [put_ne hji] at hj
    exact h j m pc' hj

/-- A mutator in the middle of its work is the head of the queue. -/
theorem Lock.head (h : Lock s) {m : Mutation} (hi : s.calls[i]? = some ⟨.mutate m, pc⟩)
    (hpc : pc.underWay = true) : s.queue.head? = some i := by
  obtain rfl | ⟨result, rfl⟩ | hhead := h i m pc hi
  · cases hpc
  · cases hpc
  · exact hhead

theorem Lock.advance (h : Lock s) (hi : s.calls[i]? = some c) (hpc : c.pc.underWay = true) :
    Lock (s.put i c pc) := by
  refine h.put (fun m hk => .inr (.inr ?_)) hi
  obtain ⟨kind, pc₀⟩ := c
  subst hk
  exact h.head hi hpc

/-- When the head settles, no mutator is past the queue. -/
theorem Lock.settle (h : Lock s) (m : Mutation) {result : Except Failure Unit}
    (hi : s.calls[i]? = some c) (hhead : s.queue.head? = some i) :
    Lock (s.settle i c m result) := by
  intro j m' pc' hj
  by_cases hji : j = i
  · subst hji
    have hself : (s.settle j c m result).calls[j]? = some ⟨c.kind, .finished result⟩ :=
      put_self hi
    rw [hself, Option.some.injEq, Call.mk.injEq] at hj
    exact .inr (.inl ⟨result, hj.2.symm⟩)
  · have hother : (s.settle i c m result).calls[j]? = s.calls[j]? := put_ne hji
    rw [hother] at hj
    obtain hq | hf | hhead' := h j m' pc' hj
    · exact .inl hq
    · exact .inr (.inl hf)
    · exact absurd (Option.some.inj (hhead'.symm.trans hhead)) hji

theorem Results.put (h : Results s)
    (hpc : ∀ failure, pc = .finished (.error failure) → c.kind.Expects failure) :
    Results (s.put i c pc) := by
  intro c' hc' failure hf
  obtain rfl | ⟨j, -, hj⟩ := mem_put hc'
  · exact hpc failure hf
  · exact h c' (List.mem_of_getElem? hj) failure hf

theorem Results.goesOn (h : Results s) (hpc : pc.failed = false) : Results (s.put i c pc) := by
  apply h.put
  intro failure hf
  rw [hf] at hpc
  cases hpc

theorem Quiet.put (h : Quiet s r) (hi : s.calls[i]? = some c) (hpc : Loads s.storage pc)
    (hwoken : s.cache.initialized = true ∨ pc.loading = true ∨ c.pc = .loaded) :
    Quiet (s.put i c pc) r where
  cached := h.cached
  stored := h.stored
  calls c' hc' := by
    obtain rfl | ⟨j, -, hj⟩ := mem_put hc'
    · exact hpc
    · exact h.calls c' (List.mem_of_getElem? hj)
  woken := by
    have hmem : ⟨c.kind, pc⟩ ∈ (s.put i c pc).calls := List.mem_of_getElem? (put_self hi)
    obtain hw | hw | hw := hwoken
    · exact .inl hw
    · exact .inr (.inl ⟨_, hmem, hw⟩)
    · obtain hinit | ⟨c', hc', hl⟩ | hall := h.woken
      · exact .inl hinit
      · -- the load that is awaited is that of another call
        obtain ⟨j, hj⟩ := List.mem_iff_getElem?.mp hc'
        have hji : j ≠ i := by
          rintro rfl
          obtain rfl := Option.some.inj (hi.symm.trans hj)
          rw [hw] at hl
          cases hl
        have hj : (s.put i c pc).calls[j]? = some c' := (put_ne hji).trans hj
        exact .inr (.inl ⟨c', List.mem_of_getElem? hj, hl⟩)
      · rw [hall c (List.mem_of_getElem? hi)] at hw
        cases hw

theorem Staged.writing {storage : Storage} {m : Mutation} (h : Staged storage r m pc) :
    pc.writing = true := by
  cases pc <;> first | rfl | exact h.elim

theorem Busy.put (h : Busy s r j) (hi : s.calls[i]? = some c) (hc : c.pc.writing = false)
    (hpc : pc.writing = false) : Busy (s.put i c pc) r j := by
  obtain ⟨m, pc', hj, hstaged⟩ := h.writer
  have hji : j ≠ i := by
    rintro rfl
    obtain rfl := Option.some.inj (hi.symm.trans hj)
    rw [hstaged.writing] at hc
    cases hc
  refine ⟨h.cached, ⟨m, pc', by rwa [put_ne hji], hstaged⟩, fun k c' hk hc' => ?_⟩
  by_cases hki : k = i
  · subst hki
    rw [put_self hi] at hc'
    obtain rfl := Option.some.inj hc'
    exact hpc
  · rw [put_ne hki] at hc'
    exact h.others k c' hk hc'

/-- The writer moves on. -/
theorem Busy.advance (h : Busy s r i) {m : Mutation} {pc₀ : Pc} {storage : Storage}
    (hi : s.calls[i]? = some ⟨.mutate m, pc₀⟩) (hstaged : Staged storage r m pc) :
    Busy { s.put i ⟨.mutate m, pc₀⟩ pc with storage } r i where
  cached := h.cached
  writer := ⟨m, pc, put_self hi, hstaged⟩
  others j c' hj hc' := h.others j c' hj (by rwa [← put_ne hj])

/-- A call that writes is the one that does, and is staged. -/
theorem Busy.staged (h : Busy s r j) {m : Mutation} (hi : s.calls[i]? = some ⟨.mutate m, pc⟩)
    (hw : pc.writing = true) : i = j ∧ Staged s.storage r m pc := by
  have hij : i = j := by
    by_contra hne
    have hnot := h.others i _ hne hi
    simp only [hw, Bool.true_eq_false] at hnot
  subst hij
  obtain ⟨m', pc', hj, hstaged⟩ := h.writer
  cases hi.symm.trans hj
  exact ⟨rfl, hstaged⟩

theorem Busy.not_loading (h : Busy s r j) (hno : s.NoOverlap) (hi : s.calls[i]? = some c) :
    c.pc.loading = false := by
  obtain ⟨m, pc', hj, hstaged⟩ := h.writer
  exact hno ⟨_, List.mem_of_getElem? hj, hstaged.writing⟩ c (List.mem_of_getElem? hi)

theorem Busy.head (h : Busy s r i) (hlock : Lock s) : s.queue.head? = some i := by
  obtain ⟨m, pc, hi, hstaged⟩ := h.writer
  apply hlock.head hi
  have hw := hstaged.writing
  cases pc <;> first | rfl | cases hw

theorem loads_of_not {storage : Storage} (hl : pc.loading = false) (hw : pc.writing = false) :
    Loads storage pc := by
  cases pc <;> trivial

end SmartIdVault.DeviceRegistry
