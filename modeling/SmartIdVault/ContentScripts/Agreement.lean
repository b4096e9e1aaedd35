import SmartIdVault.ContentScripts.Manager

/-! The approved domains and the registered scripts agree as long as no call writes a list that
another domain's call has overtaken, and each call finds its script, at its write, as it has left
it. -/

namespace SmartIdVault.ContentScripts

/-- The script that a call has changed, or tried to, before its write. -/
def Call.writing (c : Call) : Option Utf16 :=
  match c.stage with
  | .adding .. | .removing .. => some (scriptId c.domain)
  | _ => none

def Stage.ended : Stage → Bool
  | .finished _ => true
  | _ => false

/-- A list as calls write it: each domain once, with the id of its script. -/
structure Valid (list : List ApprovedDomain) : Prop where
  nodup : (domains list).Nodup
  ids : ∀ e ∈ list, e.scriptId = scriptId e.domain

variable {list existing : List ApprovedDomain} {domain d id : Utf16} {now : Nat}

theorem mem_scriptIds (h : Valid list) :
    id ∈ scriptIds list ↔ ∃ d ∈ domains list, scriptId d = id := by
  constructor
  · intro hid
    obtain ⟨e, he, rfl⟩ := List.mem_map.mp hid
    exact ⟨e.domain, List.mem_map_of_mem he, (h.ids e he).symm⟩
  · rintro ⟨d, hd, rfl⟩
    obtain ⟨e, he, rfl⟩ := List.mem_map.mp hd
    exact List.mem_map.mpr ⟨e, he, h.ids e he⟩

theorem mem_domains_added :
    d ∈ domains (Manager.added existing domain now) ↔ d ∈ domains existing ∨ d = domain := by
  simp [domains, Manager.added]

theorem mem_domains_removed :
    d ∈ domains (Manager.removed existing domain) ↔ d ∈ domains existing ∧ d ≠ domain := by
  simp only [domains, Manager.removed, List.mem_map, List.mem_filter, decide_eq_true_eq]
  constructor
  · rintro ⟨e, ⟨he, hne⟩, rfl⟩
    exact ⟨⟨e, he, rfl⟩, hne⟩
  · rintro ⟨⟨e, he, rfl⟩, hne⟩
    exact ⟨e, ⟨he, hne⟩, rfl⟩

theorem valid_nil : Valid [] where
  nodup := List.nodup_nil
  ids e he := by cases he

theorem valid_added (h : Valid existing) (hnew : domain ∉ domains existing) :
    Valid (Manager.added existing domain now) where
  nodup := by
    rw [domains, Manager.added, List.map_append]
    refine List.nodup_append.mpr ⟨h.nodup, by simp, ?_⟩
    rintro d hd _ hlast rfl
    rw [List.mem_singleton.mp hlast] at hd
    exact hnew hd
  ids e he := by
    rcases List.mem_append.mp he with he | he
    · exact h.ids e he
    · rw [List.mem_singleton.mp he]

theorem valid_removed (h : Valid existing) (domain : Utf16) :
    Valid (Manager.removed existing domain) where
  nodup := h.nodup.sublist (List.filter_sublist.map _)
  ids e he := h.ids e (List.mem_filter.mp he).1

/-- What a call has read, by the place where it stands. -/
def Call.Sound (c : Call) : Prop :=
  match c.stage with
  | .registering _ existing | .adding existing _ => Valid existing ∧ c.domain ∉ domains existing
  | .unregistering existing entry | .removing existing entry =>
    Valid existing ∧ entry.scriptId = scriptId c.domain
  | _ => True

namespace Manager

/-- The list has each domain once, and those whose last completed effective call is a registration;
and apart from scripts whose call has yet to write, the registered scripts are those of the list. -/
structure Agrees (s : Manager) : Prop where
  nodup : (domains s.getApprovedDomains).Nodup
  approved : ∀ d, d ∈ domains s.getApprovedDomains ↔ d ∈ s.approved
  scripts : ∀ id, (∀ c ∈ s.calls, c.writing ≠ some id) →
    (id ∈ s.registeredIds ↔ id ∈ scriptIds s.getApprovedDomains)

def Quiet (s : Manager) : Prop := ∀ c ∈ s.calls, c.stage.ended

instance (s : Manager) : Decidable s.Quiet := inferInstanceAs (Decidable (∀ c ∈ s.calls, _))

/-- The list and the scripts once all calls are at their ends. -/
def Settled (s : Manager) : Prop :=
  (domains s.getApprovedDomains).Nodup ∧
    (∀ d, d ∈ domains s.getApprovedDomains ↔ d ∈ s.approved) ∧
    ∀ id, id ∈ s.registeredIds ↔ id ∈ scriptIds s.getApprovedDomains

theorem agrees_iff_of_quiet {s : Manager} (h : s.Quiet) : s.Agrees ↔ s.Settled := by
  have hw (id : Utf16) : ∀ c ∈ s.calls, c.writing ≠ some id := by
    intro c hc hid
    have := h c hc
    unfold Call.writing at hid
    split at hid
    · simp_all [Stage.ended]
    · simp_all [Stage.ended]
    · cases hid
  exact ⟨fun h => ⟨h.nodup, h.approved, fun id => h.scripts id (hw id)⟩,
    fun h => ⟨h.1, h.2.1, fun id _ => h.2.2 id⟩⟩

/-- The list that the call has read has the same other domains as the one that is stored. -/
def Current (s : Manager) (domain : Utf16) (existing : List ApprovedDomain) : Prop :=
  ∀ d, d ≠ domain → (d ∈ domains existing ↔ d ∈ domains s.getApprovedDomains)

theorem current_iff (s : Manager) (domain : Utf16) (existing : List ApprovedDomain) :
    s.Current domain existing ↔
      ((domains existing).all fun d => d == domain || (domains s.getApprovedDomains).contains d) ∧
      (domains s.getApprovedDomains).all fun d => d == domain || (domains existing).contains d := by
  simp only [List.all_eq_true, Bool.or_eq_true, beq_iff_eq, List.contains_iff_mem, Current]
  constructor
  · intro h
    exact ⟨fun d hd => or_iff_not_imp_left.mpr fun hne => (h d hne).mp hd,
      fun d hd => or_iff_not_imp_left.mpr fun hne => (h d hne).mpr hd⟩
  · intro h d hne
    exact ⟨fun hd => (h.1 d hd).resolve_left hne, fun hd => (h.2 d hd).resolve_left hne⟩

instance (s : Manager) (domain : Utf16) (existing : List ApprovedDomain) :
    Decidable (s.Current domain existing) :=
  decidable_of_iff
    (((domains existing).all fun d => d == domain || (domains s.getApprovedDomains).contains d) ∧
      (domains s.getApprovedDomains).all fun d => d == domain || (domains existing).contains d)
    (current_iff s domain existing).symm

/-- A call other than `i` is at its write for the script. -/
def OtherWriting (s : Manager) (i : Nat) (id : Utf16) : Prop :=
  ∃ c ∈ s.calls.eraseIdx i, c.writing = some id

instance (s : Manager) (i : Nat) (id : Utf16) : Decidable (s.OtherWriting i id) :=
  inferInstanceAs (Decidable (∃ c ∈ s.calls.eraseIdx i, c.writing = some id))

/-- What is asked of the call's script at its write: that it is registered, or that it is not unless
another domain of the list has the same one. -/
def ScriptInPlace (s : Manager) (domain : Utf16) : Stage → Prop
  | .adding .. => scriptId domain ∈ s.registeredIds
  | .removing existing _ => scriptId domain ∈ s.registeredIds ↔
    ∃ d ∈ domains existing, d ≠ domain ∧ scriptId d = scriptId domain
  | _ => True

/-- The list a call has read, at its write. -/
def writtenFrom : Stage → Option (List ApprovedDomain)
  | .adding existing _ | .removing existing _ => some existing
  | _ => none

instance (s : Manager) (domain : Utf16) : ∀ stage, Decidable (s.ScriptInPlace domain stage)
  | .adding .. => inferInstanceAs (Decidable (scriptId domain ∈ s.registeredIds))
  | .removing existing _ => inferInstanceAs (Decidable (scriptId domain ∈ s.registeredIds ↔
    ∃ d ∈ domains existing, d ≠ domain ∧ scriptId d = scriptId domain))
  | .hashing _ | .waiting _ | .readingToRegister _ | .registering .. | .settled _
  | .readingToUnregister | .unregistering .. | .finished _ => isTrue trivial

/-- At its write a call's list is current, and its script in place unless another call is at a write
for the same one. -/
def Careful (s : Manager) : Event → Prop
  | .set i => ∀ c ∈ s.calls[i]?, ∀ existing ∈ writtenFrom c.stage,
    s.Current c.domain existing ∧
      (s.ScriptInPlace c.domain c.stage ∨ s.OtherWriting i (scriptId c.domain))
  | _ => True

instance (s : Manager) : ∀ e, Decidable (s.Careful e)
  | .set i => inferInstanceAs (Decidable (∀ c ∈ s.calls[i]?, ∀ existing ∈ writtenFrom c.stage,
    s.Current c.domain existing ∧
      (s.ScriptInPlace c.domain c.stage ∨ s.OtherWriting i (scriptId c.domain))))
  | .registerForDomain .. | .unregisterForDomain _ | .hashed _ | .released _ | .got _
  | .registered .. | .unregistered .. | .cleanup _ => isTrue trivial

structure Known (s : Manager) : Prop where
  agrees : s.Agrees
  valid : Valid s.getApprovedDomains
  sound : ∀ c ∈ s.calls, c.Sound

variable {s t : Manager} {i : Nat} {c : Call} {stage : Stage}

theorem known_initial : Known {} where
  agrees := ⟨List.nodup_nil, fun _ => Iff.rfl, fun _ _ => Iff.rfl⟩
  valid := valid_nil
  sound c hc := by cases hc

/-- A step of a call that is not at its write takes nothing from those that are. -/
theorem not_writing_of_put (hi : s.calls[i]? = some c) (hnot : c.writing = none)
    (h : ∀ c' ∈ (s.put i c stage).calls, c'.writing ≠ some id) :
    ∀ c' ∈ s.calls, c'.writing ≠ some id := by
  intro c' hc'
  obtain ⟨j, hj⟩ := List.mem_iff_getElem?.mp hc'
  by_cases hji : j = i
  · subst hji
    obtain rfl := Option.some.inj (hi.symm.trans hj)
    rw [hnot]
    exact (Option.some_ne_none id).symm
  · exact h c' (Tasks.mem_set_of_ne hji hj)

theorem sound_put (h : Known s) (hstage : Call.Sound { c with stage }) :
    ∀ c' ∈ (s.put i c stage).calls, c'.Sound := by
  intro c' hc'
  rcases Tasks.mem_set hc' with rfl | ⟨j, -, hj⟩
  · exact hstage
  · exact h.sound c' (List.mem_of_getElem? hj)

theorem known_put (h : Known s) (hi : s.calls[i]? = some c) (hnot : c.writing = none)
    (hstage : Call.Sound { c with stage }) : Known (s.put i c stage) where
  agrees := ⟨h.agrees.nodup, h.agrees.approved, fun id hid =>
    h.agrees.scripts id (not_writing_of_put hi hnot hid)⟩
  valid := h.valid
  sound := sound_put h hstage

theorem known_lock (h : Known s) (registerLock : List (Utf16 × Nat)) :
    Known { s with registerLock } where
  agrees := ⟨h.agrees.nodup, h.agrees.approved, h.agrees.scripts⟩
  valid := h.valid
  sound := h.sound

theorem known_start (h : Known s) (hsound : Call.Sound { domain, stage }) :
    Known (s.start domain stage) where
  agrees := ⟨h.agrees.nodup, h.agrees.approved, fun id hid =>
    h.agrees.scripts id fun c hc => hid c (List.mem_append_left _ hc)⟩
  valid := h.valid
  sound c hc := by
    rcases List.mem_append.mp hc with hc | hc
    · exact h.sound c hc
    · rw [List.mem_singleton.mp hc]
      exact hsound

/-- A call that goes to its write may have changed its own script. -/
theorem known_to_write (h : Known s) (hi : s.calls[i]? = some c) (hnot : c.writing = none)
    (hwrite : Call.writing { c with stage } = some (scriptId c.domain))
    (hstage : Call.Sound { c with stage }) {scripts : List ContentScript}
    (hscripts : ∀ id, id ≠ scriptId c.domain →
      (id ∈ scripts.map (·.id) ↔ id ∈ s.registeredIds)) :
    Known { s.put i c stage with scripts } where
  agrees := ⟨h.agrees.nodup, h.agrees.approved, fun id hid => by
    have hne : id ≠ scriptId c.domain := by
      rintro rfl
      exact hid _ (Tasks.mem_set_self hi _) hwrite
    exact (hscripts id hne).trans (h.agrees.scripts id
      (not_writing_of_put hi hnot hid))⟩
  valid := h.valid
  sound := sound_put h hstage

theorem known_hashed (h : Known s) (hi : s.calls[i]? = some c) (ht : s.hashed i c = some t) :
    Known t := by
  unfold hashed at ht
  split at ht
  next hc =>
    obtain rfl := Option.some.inj ht
    have hnot : c.writing = none := by simp [Call.writing, hc]
    split
    · exact known_put h hi hnot (by trivial)
    · exact known_lock (known_put h hi hnot (by trivial)) _
  next => cases ht

theorem known_released (h : Known s) (hi : s.calls[i]? = some c) (ht : s.released i c = some t) :
    Known t := by
  unfold released at ht
  split at ht
  next hc =>
    split at ht
    · obtain rfl := Option.some.inj ht
      exact known_put h hi (by simp [Call.writing, hc]) (by trivial)
    · cases ht
  next => cases ht

theorem known_got (h : Known s) (hi : s.calls[i]? = some c) (ht : s.got i c = some t) :
    Known t := by
  simp only [got] at ht
  split at ht
  next hc =>
    obtain rfl := Option.some.inj ht
    have hnot : c.writing = none := by simp [Call.writing, hc]
    split
    next => exact known_put h hi hnot (by trivial)
    next hnone =>
      refine known_put h hi hnot ⟨h.valid, ?_⟩
      simpa [domains] using hnone
  next hc =>
    obtain rfl := Option.some.inj ht
    have hnot : c.writing = none := by simp [Call.writing, hc]
    split
    next => exact known_put h hi hnot (by trivial)
    next entry hentry =>
      refine known_put h hi hnot ⟨h.valid, ?_⟩
      have hdomain : entry.domain = c.domain := by simpa using List.find?_some hentry
      rw [h.valid.ids entry (List.mem_of_find?_eq_some hentry), hdomain]
  next => cases ht

theorem known_registered {outcome : Registration} (h : Known s) (hi : s.calls[i]? = some c)
    (ht : s.registered i c outcome now = some t) : Known t := by
  unfold registered at ht
  split at ht
  next hc =>
    have hnot : c.writing = none := by simp [Call.writing, hc]
    have hsound : c.Sound := h.sound c (List.mem_of_getElem? hi)
    simp only [Call.Sound, hc] at hsound
    cases outcome with
    | succeeds =>
      simp only at ht
      split at ht
      · cases ht
      · obtain rfl := Option.some.inj ht
        refine known_to_write h hi hnot rfl (by exact hsound) fun id hid => ?_
        simp [registeredIds, contentScript, hid]
    | alreadyRegistered =>
      simp only at ht
      split at ht
      · obtain rfl := Option.some.inj ht
        exact known_to_write h hi hnot rfl (by exact hsound) fun id _ => Iff.rfl
      · cases ht
    | fails =>
      obtain rfl := Option.some.inj ht
      exact known_put h hi hnot (by trivial)
  next => cases ht

theorem known_unregistered {ok : Bool} (h : Known s) (hi : s.calls[i]? = some c)
    (ht : s.unregistered i c ok = some t) : Known t := by
  unfold unregistered at ht
  split at ht
  next existing entry hc =>
    obtain rfl := Option.some.inj ht
    have hnot : c.writing = none := by simp [Call.writing, hc]
    have hsound : c.Sound := h.sound c (List.mem_of_getElem? hi)
    simp only [Call.Sound, hc] at hsound
    split
    · refine known_to_write h hi hnot rfl (by exact hsound) fun id hid => ?_
      rw [← hsound.2] at hid
      simp only [registeredIds, List.mem_map, List.mem_filter, decide_eq_true_eq]
      constructor
      · rintro ⟨script, ⟨hmem, -⟩, rfl⟩
        exact ⟨script, hmem, rfl⟩
      · rintro ⟨script, hmem, rfl⟩
        exact ⟨script, ⟨hmem, hid⟩, rfl⟩
    · exact known_to_write h hi hnot rfl (by exact hsound) fun id _ => Iff.rfl
  next => cases ht

theorem known_cleanup (h : Known s) (hi : s.calls[i]? = some c) (ht : s.cleanup i c = some t) :
    Known t := by
  unfold cleanup at ht
  split at ht
  next hc =>
    obtain rfl := Option.some.inj ht
    exact known_lock (known_put h hi (by simp [Call.writing, hc]) (by trivial)) _
  next => cases ht

theorem current_congr (h : ∀ d, d ≠ domain → (d ∈ domains list ↔ d ∈ domains existing)) :
    s.Current domain list ↔ s.Current domain existing :=
  forall_congr' fun d => forall_congr' fun hd => by rw [h d hd]

/-- A call writes a valid list, and is the last to complete for its domain. -/
theorem agrees_write_iff {approved : List Utf16} (h : Known s) (hi : s.calls[i]? = some c)
    (hwriting : c.writing = some (scriptId c.domain))
    (hstage : Call.writing { c with stage } = none) (hlist : Valid list)
    (hself : c.domain ∈ domains list ↔ c.domain ∈ approved)
    (hothers : ∀ d, d ≠ c.domain → (d ∈ approved ↔ d ∈ s.approved)) :
    Agrees { s.put i c stage with stored := some list, approved } ↔
      s.Current c.domain list ∧
        ((scriptId c.domain ∈ s.registeredIds ↔ scriptId c.domain ∈ scriptIds list) ∨
          s.OtherWriting i (scriptId c.domain)) := by
  constructor
  · intro ht
    refine ⟨fun d hd => ?_, or_iff_not_imp_right.mpr fun hother => ?_⟩
    · rw [h.agrees.approved d, ← hothers d hd]
      exact ht.approved d
    · refine ht.scripts _ fun c' hc' hid => ?_
      rcases Tasks.mem_set hc' with rfl | ⟨j, hji, hj⟩
      · rw [hstage] at hid
        cases hid
      · exact hother ⟨c', List.mem_eraseIdx_iff_getElem?.mpr ⟨j, hji, hj⟩, hid⟩
  · rintro ⟨hcurrent, hscript⟩
    refine ⟨hlist.nodup, fun d => ?_, fun id hid => ?_⟩
    · by_cases hd : d = c.domain
      · rw [hd]
        exact hself
      · rw [hothers d hd, ← h.agrees.approved d]
        exact hcurrent d hd
    · by_cases hne : id = scriptId c.domain
      · subst hne
        refine hscript.resolve_right ?_
        rintro ⟨c', hc', hw⟩
        obtain ⟨j, hji, hj⟩ := List.mem_eraseIdx_iff_getElem?.mp hc'
        exact hid c' (Tasks.mem_set_of_ne hji hj) hw
      · -- another script: no call is at a write for it, and the lists agree on its domains
        have hfree : ∀ c' ∈ s.calls, c'.writing ≠ some id := by
          intro c' hc' hw
          obtain ⟨j, hj⟩ := List.mem_iff_getElem?.mp hc'
          by_cases hji : j = i
          · subst hji
            obtain rfl := Option.some.inj (hi.symm.trans hj)
            exact hne (Option.some.inj (hw.symm.trans hwriting))
          · exact hid c' (Tasks.mem_set_of_ne hji hj) hw
        refine (h.agrees.scripts id hfree).trans ?_
        refine (mem_scriptIds h.valid).trans (Iff.trans ?_ (mem_scriptIds hlist).symm)
        refine exists_congr fun d => and_congr_left fun hd => ?_
        exact (hcurrent d fun hdomain => hne (hdomain ▸ hd.symm)).symm

theorem writing_of_set (ht : s.set i c = some t) : c.writing = some (scriptId c.domain) := by
  unfold set at ht
  split at ht
  next hc => simp [Call.writing, hc]
  next hc => simp [Call.writing, hc]
  next => cases ht

theorem agrees_set_iff (h : Known s) (hi : s.calls[i]? = some c) (ht : s.set i c = some t) :
    t.Agrees ↔ s.Careful (.set i) := by
  have hwriting := writing_of_set ht
  have hsound : c.Sound := h.sound c (List.mem_of_getElem? hi)
  have hcareful (existing : List ApprovedDomain) (hc : writtenFrom c.stage = some existing) :
      s.Careful (.set i) ↔ s.Current c.domain existing ∧
        (s.ScriptInPlace c.domain c.stage ∨ s.OtherWriting i (scriptId c.domain)) := by
    simp [Careful, hi, hc]
  unfold set at ht
  split at ht
  next existing registeredAt hc =>
    obtain rfl := Option.some.inj ht
    simp only [Call.Sound, hc] at hsound
    refine (agrees_write_iff h hi hwriting rfl (valid_added hsound.1 hsound.2) ?_ ?_).trans
      (Iff.trans ?_ (hcareful existing (by rw [hc]; rfl)).symm)
    · simp [mem_domains_added]
    · intro d hd
      simp [hd]
    · simp only [hc, ScriptInPlace]
      refine and_congr (current_congr fun d hd => ?_) (or_congr_left ?_)
      · simp [mem_domains_added, hd]
      · refine iff_true_right ?_
        exact (mem_scriptIds (valid_added hsound.1 hsound.2)).mpr
          ⟨c.domain, mem_domains_added.mpr (.inr rfl), rfl⟩
  next existing entry hc =>
    obtain rfl := Option.some.inj ht
    simp only [Call.Sound, hc] at hsound
    have hvalid := valid_removed hsound.1 c.domain
    refine (agrees_write_iff h hi hwriting rfl hvalid ?_ ?_).trans
      (Iff.trans ?_ (hcareful existing (by rw [hc]; rfl)).symm)
    · simp [mem_domains_removed]
    · intro d hd
      simp [hd]
    · simp only [hc, ScriptInPlace]
      refine and_congr (current_congr fun d hd => ?_) (or_congr_left (iff_congr Iff.rfl ?_))
      · simp [mem_domains_removed, hd]
      · rw [mem_scriptIds hvalid]
        simp [mem_domains_removed, and_assoc]
  next => cases ht

theorem valid_set (h : Known s) (hi : s.calls[i]? = some c) (ht : s.set i c = some t) :
    Valid t.getApprovedDomains ∧ ∀ c' ∈ t.calls, c'.Sound := by
  have hsound : c.Sound := h.sound c (List.mem_of_getElem? hi)
  unfold set at ht
  split at ht
  next hc =>
    obtain rfl := Option.some.inj ht
    simp only [Call.Sound, hc] at hsound
    exact ⟨valid_added hsound.1 hsound.2, sound_put h (by trivial)⟩
  next hc =>
    obtain rfl := Option.some.inj ht
    simp only [Call.Sound, hc] at hsound
    exact ⟨valid_removed hsound.1 _, sound_put h (by trivial)⟩
  next => cases ht

theorem known_step {e : Event} (h : Known s) (hG : s.Careful e) (ht : s.step e = some t) :
    Known t := by
  cases e with
  | registerForDomain | unregisterForDomain =>
    obtain rfl := Option.some.inj ht
    exact known_start h (by trivial)
  | hashed i =>
    obtain ⟨c, hi, ht⟩ := Option.bind_eq_some_iff.mp ht
    exact known_hashed h hi ht
  | released i =>
    obtain ⟨c, hi, ht⟩ := Option.bind_eq_some_iff.mp ht
    exact known_released h hi ht
  | got i =>
    obtain ⟨c, hi, ht⟩ := Option.bind_eq_some_iff.mp ht
    exact known_got h hi ht
  | registered i outcome now =>
    obtain ⟨c, hi, ht⟩ := Option.bind_eq_some_iff.mp ht
    exact known_registered h hi ht
  | unregistered i ok =>
    obtain ⟨c, hi, ht⟩ := Option.bind_eq_some_iff.mp ht
    exact known_unregistered h hi ht
  | set i =>
    obtain ⟨c, hi, ht⟩ := Option.bind_eq_some_iff.mp ht
    obtain ⟨hvalid, hsound⟩ := valid_set h hi ht
    exact ⟨(agrees_set_iff h hi ht).mpr hG, hvalid, hsound⟩
  | cleanup i =>
    obtain ⟨c, hi, ht⟩ := Option.bind_eq_some_iff.mp ht
    exact known_cleanup h hi ht

/-- The list and the scripts agree in all states of a run exactly when every write of it is careful;
then they do once all calls are at their ends. -/
theorem agrees_iff {es : List Event} (hrun : Machine.Run step {} es t) :
    (Machine.Everywhere step Agrees {} es ↔ Machine.Throughout step Careful {} es) ∧
      (Machine.Throughout step Careful {} es → t.Quiet → t.Settled) := by
  constructor
  · refine Machine.everywhere_iff_throughout (A := fun _ _ => True) hrun
      (Machine.throughout_of_forall fun _ _ _ => trivial) known_initial
      (fun s hs => hs.agrees) (fun s e t hs _ hG ht => known_step hs hG ht) ?_
    intro s e t hs _ hG ht hagrees
    cases e with
    | set i =>
      obtain ⟨c, hi, ht⟩ := Option.bind_eq_some_iff.mp ht
      exact hG ((agrees_set_iff hs hi ht).mp hagrees)
    | _ => exact hG trivial
  · intro hG hquiet
    have hknown : Known t := hrun.invariant known_initial hG fun s e t hs he ht =>
      known_step hs he ht
    exact (agrees_iff_of_quiet hquiet).mp hknown.agrees

/-- Two domains are approved at once: both registrations have read the empty list, and the second
write is without the first domain, whose script stays registered. -/
def twoAtOnce : List Event :=
  [.registerForDomain [97] none, .registerForDomain [98] none, .hashed 0, .hashed 1, .got 0, .got 1,
    .registered 0 .succeeds 0, .registered 1 .succeeds 0, .set 0, .set 1, .cleanup 0, .cleanup 1]

theorem two_registrations_lose_one :
    ∃ t, Machine.Run step {} twoAtOnce t ∧ t.Quiet ∧ ¬t.Settled := by
  have hlost : (Machine.exec step {} twoAtOnce).any (fun t => t.Quiet ∧ [97] ∈ t.approved ∧
      [97] ∉ domains t.getApprovedDomains) = true := by decide +kernel
  obtain ⟨t, hrun, ht⟩ := Machine.exists_run_with hlost
  obtain ⟨hquiet, happroved, hmissing⟩ := of_decide_eq_true ht
  refine ⟨t, hrun, hquiet, ?_⟩
  intro h
  exact hmissing ((h.2.1 [97]).mpr happroved)

/-- The same registrations one after the other, and the first domain is then taken back. -/
def oneByOne : List Event :=
  [.registerForDomain [97] none, .hashed 0, .got 0, .registered 0 .succeeds 0, .set 0, .cleanup 0,
    .registerForDomain [98] none, .hashed 1, .got 1, .registered 1 .succeeds 0, .set 1, .cleanup 1,
    .unregisterForDomain [97], .got 2, .unregistered 2 true, .set 2]

theorem one_by_one_settles : ∃ t, Machine.Run step {} oneByOne t ∧ t.Settled := by
  have hquiet : (Machine.exec step {} oneByOne).any (fun t => t.Quiet) = true := by decide +kernel
  obtain ⟨t, hrun, ht⟩ := Machine.exists_run_with hquiet
  exact ⟨t, hrun, (agrees_iff hrun).2 (by decide +kernel) (of_decide_eq_true ht)⟩

end Manager

end SmartIdVault.ContentScripts
