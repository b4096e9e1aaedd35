import SmartIdVault.DeviceRegistry.Calls

/-! What each step of a call of the registry keeps. -/

namespace SmartIdVault.DeviceRegistry

variable {r₀ r : Registry} {s t : System} {c : Call} {i j : Nat} {pc : Pc}

theorem Inv.append (h : Inv r₀ s) (kind : Kind) (queue : List Nat) :
    Inv r₀ { s with calls := s.calls ++ [⟨kind, .queued⟩], queue := s.queue ++ queue } where
  explained := by
    have hlast : ∀ (j : Nat) (c : Call), (s.calls ++ [⟨kind, .queued⟩])[j]? = some c →
        s.calls[j]? = some c ∨ c.pc = .queued := by
      intro j c hj
      rw [List.getElem?_append] at hj
      split at hj
      · exact .inl hj
      · obtain rfl := List.mem_singleton.mp (List.mem_of_getElem? hj)
        exact .inr rfl
    obtain ⟨r, hex, hq | ⟨i, hb⟩⟩ := h.explained
    · refine ⟨r, hex, .inl ⟨hq.cached, hq.stored, ?_, ?_⟩⟩
      · intro c hc
        obtain hc | hc := List.mem_append.mp hc
        · exact hq.calls c hc
        · obtain rfl := List.mem_singleton.mp hc
          trivial
      · obtain hinit | ⟨c, hc, hl⟩ | hall := hq.woken
        · exact .inl hinit
        · exact .inr (.inl ⟨c, List.mem_append_left _ hc, hl⟩)
        · refine .inr (.inr ?_)
          intro c hc
          obtain hc | hc := List.mem_append.mp hc
          · exact hall c hc
          · rw [List.mem_singleton.mp hc]
    · obtain ⟨m, pc, hi, hstaged⟩ := hb.writer
      refine ⟨r, hex, .inr ⟨i, hb.cached, ⟨m, pc, ?_, hstaged⟩, ?_⟩⟩
      · rw [List.getElem?_append_left (List.getElem?_eq_some_iff.mp hi).1, hi]
      · intro j c hj hc
        obtain hc | hc := hlast j c hc
        · exact hb.others j c hj hc
        · rw [hc]
          rfl
  lock := by
    intro i m pc hi
    rw [List.getElem?_append] at hi
    split at hi
    · obtain hq | hf | hhead := h.lock i m pc hi
      · exact .inl hq
      · exact .inr (.inl hf)
      · exact .inr (.inr (by rw [List.head?_append, hhead]; rfl))
    · cases List.mem_singleton.mp (List.mem_of_getElem? hi)
      exact .inl rfl
  results := by
    intro c hc failure hf
    obtain hc | hc := List.mem_append.mp hc
    · exact h.results c hc failure hf
    · rw [List.mem_singleton.mp hc] at hf
      cases hf

theorem Inv.ensureLoaded (h : Inv r₀ s) (hi : s.calls[i]? = some c) (hpc : c.pc = .queued)
    (hhead : ∀ m, c.kind = .mutate m → s.queue.head? = some i) :
    Inv r₀ (s.ensureLoaded i c) where
  explained := by
    obtain ⟨r, hex, hq | ⟨j, hb⟩⟩ := h.explained
    · refine ⟨r, hex, .inl (hq.put hi ?_ ?_)⟩
      · split <;> simp [Loads]
      · split
        next hinit => exact .inl hinit
        next => exact .inr (.inl rfl)
    · refine ⟨r, hex, .inr ⟨j, hb.put hi (by rw [hpc]; rfl) ?_⟩⟩
      split <;> rfl
  lock := h.lock.put (fun m hk => .inr (.inr (hhead m hk))) hi
  results := h.results.put fun failure hf => by split at hf <;> cases hf

theorem Inv.call (h : Inv r₀ s) {kind : Kind} (hno : (s.call kind).NoOverlap) :
    Inv r₀ (s.call kind) := by
  have hlast : ∀ c : Call, (s.calls ++ [c])[s.calls.length]? = some c := fun c => by simp
  cases kind with
  | mutate m => exact h.append _ _
  | read =>
    have happ := h.append .read []
    rw [List.append_nil] at happ
    exact happ.ensureLoaded (hlast _) rfl nofun
  | readActive =>
    have happ := h.append .readActive []
    rw [List.append_nil] at happ
    exact happ.ensureLoaded (hlast _) rfl nofun
  | reconcile =>
    have happ := h.append .reconcile []
    rw [List.append_nil] at happ
    refine ⟨?_, happ.lock.put (fun _ hk => by cases hk) (hlast _), happ.results.goesOn rfl⟩
    obtain ⟨r, hex, hq | ⟨i, hb⟩⟩ := h.explained
    · refine ⟨r, hex, .inl ⟨nofun, hq.stored, ?_, .inr (.inl ?_)⟩⟩
      · intro c hc
        obtain rfl | ⟨j, hj, hc⟩ := mem_put hc
        · exact nofun
        · have hc : c ∈ s.calls ++ [⟨.reconcile, .queued⟩] := List.mem_of_getElem? hc
          obtain hc | hc := List.mem_append.mp hc
          · exact hq.calls c hc
          · obtain rfl := List.mem_singleton.mp hc
            trivial
      · exact ⟨⟨.reconcile, .loadingSession none⟩,
          List.mem_of_getElem? (put_self (hlast ⟨.reconcile, .queued⟩)), rfl⟩
    · -- the load would overlap the write
      obtain ⟨m, pc, hi, hstaged⟩ := hb.writer
      have hne : i ≠ s.calls.length := (List.getElem?_eq_some_iff.mp hi).1.ne
      have hwriter : (s.call .reconcile).calls[i]? = some ⟨.mutate m, pc⟩ := by
        apply (put_ne hne).trans
        rw [List.getElem?_append_left (List.getElem?_eq_some_iff.mp hi).1, hi]
      have hload := hno ⟨_, List.mem_of_getElem? hwriter, hstaged.writing⟩ _
        (List.mem_of_getElem? (put_self (hlast ⟨.reconcile, .queued⟩)))
      cases hload

theorem Inv.serve (h : Inv r₀ s) (hno : s.NoOverlap) (hi : s.calls[i]? = some c)
    (hs : s.serve i c = some t) : Inv r₀ t := by
  obtain ⟨r, hex, hq | ⟨j, hb⟩⟩ := h.explained
  · have hloads := hq.calls c (List.mem_of_getElem? hi)
    obtain ⟨kind, pc⟩ := c
    simp only [System.serve] at hs
    split at hs
    · obtain rfl := Option.some.inj hs
      exact ⟨⟨r, hex, .inl (hq.put hi (by simp [Loads]) (.inr (.inl rfl)))⟩,
        h.lock.advance hi rfl, h.results.goesOn rfl⟩
    · obtain rfl := Option.some.inj hs
      exact ⟨⟨r, hex, .inl (hq.put hi ⟨hloads.1, by simp⟩ (.inr (.inl rfl)))⟩,
        h.lock.advance hi rfl, h.results.goesOn rfl⟩
    · exact hloads.elim
    · exact hloads.elim
    · exact hloads.elim
    · exact hloads.elim
    · cases hs
  · have hload := hb.not_loading hno hi
    obtain ⟨kind, pc⟩ := c
    simp only [System.serve] at hs
    split at hs
    · cases hload
    · cases hload
    · obtain rfl := Option.some.inj hs
      obtain ⟨rfl, hstaged⟩ := hb.staged hi rfl
      exact ⟨⟨r, hex, .inr ⟨i, hb.advance hi hstaged⟩⟩,
        h.lock.advance hi rfl, h.results.goesOn rfl⟩
    · obtain rfl := Option.some.inj hs
      obtain ⟨rfl, hstaged⟩ := hb.staged hi rfl
      exact ⟨⟨r, hex, .inr ⟨i, hb.advance hi ⟨hstaged.1, fun _ => ⟨rfl, rfl⟩⟩⟩⟩,
        h.lock.advance hi rfl, h.results.goesOn rfl⟩
    · obtain rfl := Option.some.inj hs
      obtain ⟨rfl, hstaged⟩ := hb.staged hi rfl
      exact ⟨⟨r, hex, .inr ⟨i, hb.advance hi ⟨hstaged.1, hstaged.2.1, fun _ => rfl⟩⟩⟩,
        h.lock.advance hi rfl, h.results.goesOn rfl⟩
    · obtain rfl := Option.some.inj hs
      obtain ⟨rfl, hstaged⟩ := hb.staged hi rfl
      refine ⟨⟨r, hex, .inr ⟨i, hb.advance hi ?_⟩⟩,
        h.lock.advance hi rfl, h.results.goesOn rfl⟩
      cases ‹Mutation› <;> exact hstaged
    · cases hs

/-- The writer settles with what it has written. -/
theorem Inv.complete (h : Inv r₀ s) (hno : s.NoOverlap) (hex : Explains r₀ s.settled r)
    (hb : Busy s r i) {m : Mutation} (hi : s.calls[i]? = some ⟨.mutate m, pc⟩)
    {devices : List DeviceRecord} {activeId : Option Utf16}
    (hplan : m.plan r.devices r.activeId = .ok (some (devices, activeId)))
    (hsession : s.storage.sessionDevices = some (devices.map deviceToSerializable))
    (hactive : s.storage.sessionActive = activeId)
    (hlocal : s.storage.localMetas = some (devices.map toMeta)) :
    Inv r₀ (s.complete i ⟨.mutate m, pc⟩ m devices activeId) := by
  have hassign : m.assign s.cache devices activeId = .of devices activeId := by
    rw [hb.cached]
    exact assign_of_plan hplan
  have hsnoc := hex.snoc m
  rw [hplan, Registry.perform_of_plan hplan] at hsnoc
  refine ⟨⟨_, hsnoc, .inl ⟨fun _ => hassign, ?_, ?_, ?_⟩⟩,
    h.lock.settle m hi (hb.head h.lock), h.results.goesOn rfl⟩
  · exact loadFromStorage_persisted ⟨devices, activeId, _⟩ hsession hactive hlocal
  · intro c hc
    obtain rfl | ⟨j, hj, hc⟩ := mem_put (s := s) hc
    · trivial
    · exact loads_of_not (hb.not_loading hno hc) (hb.others j c hj hc)
  · exact .inl (by rw [show (s.complete i _ m devices activeId).cache = _ from hassign]; rfl)

theorem Quiet.loadEnds (h : Quiet s r) (hi : s.calls[i]? = some c) {cache : Cache}
    (hcache : cache = loadFromStorage s.storage) : Quiet (s.loadEnds i c cache) r := by
  have hcache : cache = r.toCache := hcache.trans h.stored
  have hinit : cache.initialized = true := by rw [hcache]; rfl
  have hloaded : Quiet { s with cache } r :=
    ⟨fun _ => hcache, h.stored, h.calls, .inl hinit⟩
  refine hloaded.put hi ?_ (.inl hinit)
  split <;> trivial

theorem Inv.reply (h : Inv r₀ s) (hno : s.NoOverlap) (hi : s.calls[i]? = some c)
    (hs : s.reply i c = some t) : Inv r₀ t := by
  obtain ⟨r, hex, hq | ⟨j, hb⟩⟩ := h.explained
  · have hloads := hq.calls c (List.mem_of_getElem? hi)
    obtain ⟨kind, pc⟩ := c
    have hends : ∀ failure, (if kind = .reconcile then Pc.finished (.ok ()) else .loaded) =
        .finished (.error failure) → kind.Expects failure := by
      intro failure hf
      split at hf <;> cases hf
    simp only [System.reply] at hs
    split at hs
    next raw activeId =>
      obtain ⟨hraw, hact⟩ := Prod.mk.injEq .. ▸ hloads (raw, activeId) rfl
      split at hs
      next cache hcache =>
        obtain rfl := Option.some.inj hs
        have hload : cache = loadFromStorage s.storage := by
          rw [loadFromStorage, ← hraw, ← hact, hcache]
          rfl
        exact ⟨⟨r, hex, .inl (hq.loadEnds hi hload)⟩,
          h.lock.advance hi rfl, h.results.put hends⟩
      next hnone =>
        obtain rfl := Option.some.inj hs
        have hlocal : ofSession s.storage.sessionDevices s.storage.sessionActive = none := by
          rw [← hraw, ← hact, hnone]
        exact ⟨⟨r, hex, .inl (hq.put hi ⟨hlocal, fun _ hm => by cases hm⟩ (.inr (.inl rfl)))⟩,
          h.lock.advance hi rfl, h.results.goesOn rfl⟩
    next metas =>
      obtain rfl := Option.some.inj hs
      have hload : ofLocal metas = loadFromStorage s.storage := by
        rw [loadFromStorage, hloads.1, hloads.2 metas rfl]
        rfl
      exact ⟨⟨r, hex, .inl (hq.loadEnds hi hload)⟩,
        h.lock.advance hi rfl, h.results.put hends⟩
    · exact hloads.elim
    · exact hloads.elim
    · exact hloads.elim
    · exact hloads.elim
    · cases hs
  · have hload := hb.not_loading hno hi
    obtain ⟨kind, pc⟩ := c
    simp only [System.reply] at hs
    split at hs
    · cases hload
    · cases hload
    next devices m =>
      obtain ⟨rfl, rfl, ⟨newDevices, newActive⟩, hplan⟩ := hb.staged hi rfl
      have hactive : s.cache.activeId = r.activeId := by rw [hb.cached]; rfl
      rw [hactive, hplan] at hs
      obtain rfl := Option.some.inj hs
      exact ⟨⟨r, hex, .inr ⟨i, hb.advance hi ⟨hplan, fun hm => by cases hm⟩⟩⟩,
        h.lock.advance hi rfl, h.results.goesOn rfl⟩
    next devices activeId m =>
      obtain rfl := Option.some.inj hs
      obtain ⟨rfl, hstaged⟩ := hb.staged hi rfl
      exact ⟨⟨r, hex, .inr ⟨i, hb.advance hi ⟨hstaged.1, hstaged.2 rfl, fun hm => by cases hm⟩⟩⟩,
        h.lock.advance hi rfl, h.results.goesOn rfl⟩
    next devices activeId m =>
      obtain ⟨rfl, hplan, ⟨hsession, hact⟩, hlocal⟩ := hb.staged hi rfl
      split at hs
      · obtain rfl := Option.some.inj hs
        exact ⟨⟨r, hex, .inr ⟨i, hb.advance hi ⟨hplan, ⟨hsession, hact⟩, hlocal rfl⟩⟩⟩,
          h.lock.advance hi rfl, h.results.goesOn rfl⟩
      · obtain rfl := Option.some.inj hs
        exact h.complete hno hex hb hi hplan hsession hact (hlocal rfl)
    next devices activeId m =>
      obtain rfl := Option.some.inj hs
      obtain ⟨rfl, hplan, ⟨hsession, hact⟩, hlocal⟩ := hb.staged hi rfl
      exact h.complete hno hex hb hi hplan hsession hact hlocal
    · cases hs

/-- A mutator that persists nothing. -/
theorem Inv.settle_unchanged (h : Inv r₀ s) (hex : Explains r₀ s.settled r) (hq : Quiet s r)
    (hinit : s.cache.initialized = true) {m : Mutation} (hi : s.calls[i]? = some c)
    (hk : c.kind = .mutate m) (hhead : s.queue.head? = some i) {result : Except Failure Unit}
    (hresult : ((m.plan r.devices r.activeId).map fun _ => ()) = result)
    (hnot : ∀ p, m.plan r.devices r.activeId ≠ .ok (some p)) :
    Inv r₀ (s.settle i c m result) := by
  have hsnoc := hex.snoc m
  rw [hresult, Registry.perform_of_not_plan hnot] at hsnoc
  have hput : Quiet (s.put i c (.finished result)) r := hq.put hi trivial (.inl hinit)
  refine ⟨⟨r, hsnoc, .inl ⟨hput.cached, hput.stored, hput.calls, hput.woken⟩⟩,
    h.lock.settle m hi hhead, h.results.put ?_⟩
  intro failure hf
  obtain rfl := Pc.finished.inj hf
  rw [hk]
  cases hplan : m.plan r.devices r.activeId with
  | error e =>
    rw [hplan] at hresult
    cases hresult
    exact expects_of_plan hplan
  | ok p =>
    rw [hplan] at hresult
    cases hresult

/-- While another call writes, only a reader goes on. -/
theorem Inv.resume (h : Inv r₀ s) (hi : s.calls[i]? = some c) (hpc : c.pc = .loaded)
    (hcache : s.cache.initialized = true ∨ c.kind = .readActive) : Inv r₀ (s.goOn i c) := by
  obtain ⟨kind, pc⟩ := c
  obtain rfl : pc = .loaded := hpc
  obtain ⟨r, hex, hdisj⟩ := h.explained
  -- an end without a failure, or of a call that takes no lock
  have hends : ∀ result, (∀ m, kind ≠ .mutate m) →
      (∀ failure, result = .error failure → kind.Expects failure) →
      Inv r₀ (s.put i ⟨kind, .loaded⟩ (.finished result)) := by
    intro result hnot hexpects
    refine ⟨⟨r, hex, ?_⟩, h.lock.put (fun m hk => absurd hk (hnot m)) hi,
      h.results.put fun failure hf => hexpects failure (Pc.finished.inj hf)⟩
    obtain hq | ⟨j, hb⟩ := hdisj
    · exact .inl (hq.put hi trivial (.inr (.inr rfl)))
    · exact .inr ⟨j, hb.put hi rfl rfl⟩
  have hcached : kind ≠ .readActive → s.cache = r.toCache := by
    intro hne
    obtain hq | ⟨j, hb⟩ := hdisj
    · exact hq.cached (hcache.resolve_right hne)
    · exact hb.cached
  cases kind with
  | reconcile | readActive => exact hends _ nofun nofun
  | read =>
    have hsome : s.cache.devices.isSome = true := by rw [hcached nofun]; rfl
    simp only [System.goOn, hsome, if_true]
    exact hends _ nofun nofun
  | mutate m =>
    have hhead := h.lock.head hi rfl
    have hr : s.cache = r.toCache := hcached nofun
    have hinit : s.cache.initialized = true := by rw [hr]; rfl
    have hdevices : s.cache.devices = some r.devices := by rw [hr]; rfl
    have hactive : s.cache.activeId = r.activeId := by rw [hr]; rfl
    have hq : Quiet s r := by
      obtain hq | ⟨j, hb⟩ := hdisj
      · exact hq
      · -- the writer would be the head of the queue, too
        obtain ⟨m', pc', hj, hstaged⟩ := hb.writer
        obtain rfl := Option.some.inj ((hb.head h.lock).symm.trans hhead)
        cases hi.symm.trans hj
        exact hstaged.elim
    have hothers : ∀ j c, j ≠ i → s.calls[j]? = some c → c.pc.writing = false := by
      intro j c _ hj
      have hloads := hq.calls c (List.mem_of_getElem? hj)
      cases hc : c.pc <;> first | rfl | (rw [hc] at hloads; exact hloads.elim)
    simp only [System.goOn, hdevices, hactive]
    split
    next failure hplan =>
      exact h.settle_unchanged hex hq hinit hi rfl hhead (by rw [hplan]; rfl) (by simp [hplan])
    next hplan =>
      exact h.settle_unchanged hex hq hinit hi rfl hhead (by rw [hplan]; rfl) (by simp [hplan])
    next newDevices newActive hplan =>
      split
      all_goals
        refine ⟨⟨r, hex, .inr ⟨i, hr, ⟨_, _, put_self hi, ?_⟩, fun j c hj hc => ?_⟩⟩,
          h.lock.advance hi rfl, h.results.goesOn rfl⟩
      · exact ⟨rfl, _, hplan⟩
      · exact hothers j c hj (by rwa [put_ne hj] at hc)
      · exact ⟨hplan, fun hm => by cases hm⟩
      · exact hothers j c hj (by rwa [put_ne hj] at hc)

theorem Inv.step (h : Inv r₀ s) {e : SystemEvent} (hsound : s.Sound e) (hs : s.step e = some t)
    (hno : t.NoOverlap) : Inv r₀ t := by
  cases e with
  | call kind =>
    obtain rfl := Option.some.inj hs
    exact h.call hno
  | begin i =>
    obtain ⟨c, hi, hs⟩ := Option.bind_eq_some_iff.mp hs
    split at hs
    next hq =>
      obtain rfl := Option.some.inj hs
      exact h.ensureLoaded hi hq.1 fun _ _ => hq.2
    next => cases hs
  | serve i =>
    obtain ⟨c, hi, hs⟩ := Option.bind_eq_some_iff.mp hs
    exact h.serve hsound.1 hi hs
  | reply i =>
    obtain ⟨c, hi, hs⟩ := Option.bind_eq_some_iff.mp hs
    exact h.reply hsound.1 hi hs
  | resume i =>
    obtain ⟨c, hi, hs⟩ := Option.bind_eq_some_iff.mp hs
    split at hs
    next hpc =>
      obtain rfl := Option.some.inj hs
      refine h.resume hi hpc (hsound.2.imp_right ?_)
      intro hk
      rw [hi] at hk
      exact Option.some.inj hk
    next => cases hs

end SmartIdVault.DeviceRegistry
