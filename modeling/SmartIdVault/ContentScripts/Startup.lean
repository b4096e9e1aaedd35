import SmartIdVault.ContentScripts.Manager

/-! The start of the worker: `reRegisterOnStartup` puts back what the browser has lost of the
scripts of approved domains, while calls of the manager go on.  A worker may stop at any time, and
an update of the extension takes all registered scripts away.  Whatever is registered has been asked
for. -/

namespace SmartIdVault.ContentScripts

/-- What a step of the manager does with a call, other than begin one. -/
inductive Manager.Advance (s : Manager) (c : Call) :
    Stage → Option (List ApprovedDomain) → List ContentScript → Prop
  | wait {jsFile : Option Utf16} (holder : Nat) (hc : c.stage = .hashing jsFile) :
      Advance s c (.waiting holder) s.stored s.scripts
  | lock {jsFile : Option Utf16} (hc : c.stage = .hashing jsFile) :
      Advance s c (.readingToRegister jsFile) s.stored s.scripts
  | release {holder : Nat} (hc : c.stage = .waiting holder) (result : Result) :
      Advance s c (.finished result) s.stored s.scripts
  | found {jsFile : Option Utf16} (hc : c.stage = .readingToRegister jsFile) (result : Result) :
      Advance s c (.settled result) s.stored s.scripts
  | read {jsFile : Option Utf16} (hc : c.stage = .readingToRegister jsFile) :
      Advance s c (.registering jsFile s.getApprovedDomains) s.stored s.scripts
  | register {jsFile : Option Utf16} {existing : List ApprovedDomain}
      (hc : c.stage = .registering jsFile existing) (now : Nat) :
      Advance s c (.adding existing now) s.stored (s.scripts ++ [contentScript c.domain jsFile])
  | keep {jsFile : Option Utf16} {existing : List ApprovedDomain}
      (hc : c.stage = .registering jsFile existing) (now : Nat)
      (hid : scriptId c.domain ∈ s.registeredIds) :
      Advance s c (.adding existing now) s.stored s.scripts
  | reject {jsFile : Option Utf16} {existing : List ApprovedDomain}
      (hc : c.stage = .registering jsFile existing) (result : Result) :
      Advance s c (.settled result) s.stored s.scripts
  | notFound (hc : c.stage = .readingToUnregister) (result : Result) :
      Advance s c (.finished result) s.stored s.scripts
  | find (hc : c.stage = .readingToUnregister) {entry : ApprovedDomain}
      (hmem : entry ∈ s.getApprovedDomains) (hdomain : entry.domain = c.domain) :
      Advance s c (.unregistering s.getApprovedDomains entry) s.stored s.scripts
  | unregister {existing : List ApprovedDomain} {entry : ApprovedDomain}
      (hc : c.stage = .unregistering existing entry) :
      Advance s c (.removing existing entry) s.stored
        (s.scripts.filter (·.id ≠ entry.scriptId))
  | unregisterFails {existing : List ApprovedDomain} {entry : ApprovedDomain}
      (hc : c.stage = .unregistering existing entry) :
      Advance s c (.removing existing entry) s.stored s.scripts
  | add {existing : List ApprovedDomain} {registeredAt : Nat}
      (hc : c.stage = .adding existing registeredAt) (result : Result) :
      Advance s c (.settled result) (some (added existing c.domain registeredAt)) s.scripts
  | remove {existing : List ApprovedDomain} {entry : ApprovedDomain}
      (hc : c.stage = .removing existing entry) (result : Result) :
      Advance s c (.finished result) (some (removed existing c.domain)) s.scripts
  | cleanup {result : Result} (hc : c.stage = .settled result) :
      Advance s c (.finished result) s.stored s.scripts

/-- The list that a call has read. -/
def Stage.existing : Stage → Option (List ApprovedDomain)
  | .registering _ existing | .adding existing _ | .unregistering existing _
  | .removing existing _ => some existing
  | _ => none

namespace Manager

variable {s t : Manager} {e : Event}

theorem step_cases (h : s.step e = some t) :
    (∃ domain jsFile, e = .registerForDomain domain jsFile ∧
      t = s.start domain (.hashing jsFile)) ∨
    (∃ domain, e = .unregisterForDomain domain ∧ t = s.start domain .readingToUnregister) ∨
    (∃ i c stage, s.calls[i]? = some c ∧ t.calls = s.calls.set i { c with stage } ∧
      s.Advance c stage t.stored t.scripts) := by
  cases e with
  | registerForDomain domain jsFile => exact .inl ⟨domain, jsFile, rfl, (Option.some.inj h).symm⟩
  | unregisterForDomain domain => exact .inr (.inl ⟨domain, rfl, (Option.some.inj h).symm⟩)
  | hashed i =>
    obtain ⟨c, hi, ht⟩ := Option.bind_eq_some_iff.mp h
    unfold Manager.hashed at ht
    split at ht
    · rename_i jsFile hc
      obtain rfl := Option.some.inj ht
      split
      · exact .inr (.inr ⟨i, c, _, hi, rfl, .wait _ hc⟩)
      · exact .inr (.inr ⟨i, c, _, hi, rfl, .lock hc⟩)
    · cases ht
  | released i =>
    obtain ⟨c, hi, ht⟩ := Option.bind_eq_some_iff.mp h
    unfold Manager.released at ht
    split at ht
    · rename_i holder hc
      split at ht
      · obtain rfl := Option.some.inj ht
        exact .inr (.inr ⟨i, c, _, hi, rfl, .release hc _⟩)
      · cases ht
    · cases ht
  | got i =>
    obtain ⟨c, hi, ht⟩ := Option.bind_eq_some_iff.mp h
    simp only [Manager.got] at ht
    split at ht
    · rename_i jsFile hc
      obtain rfl := Option.some.inj ht
      split
      · exact .inr (.inr ⟨i, c, _, hi, rfl, .found hc _⟩)
      · exact .inr (.inr ⟨i, c, _, hi, rfl, .read hc⟩)
    · rename_i hc
      obtain rfl := Option.some.inj ht
      split
      · exact .inr (.inr ⟨i, c, _, hi, rfl, .notFound hc _⟩)
      · rename_i entry hfind
        have hdomain : entry.domain = c.domain := by simpa using List.find?_some hfind
        exact .inr (.inr ⟨i, c, _, hi, rfl, .find hc (List.mem_of_find?_eq_some hfind) hdomain⟩)
    · cases ht
  | registered i outcome now =>
    obtain ⟨c, hi, ht⟩ := Option.bind_eq_some_iff.mp h
    unfold Manager.registered at ht
    split at ht
    · rename_i jsFile existing hc
      cases outcome with
      | succeeds =>
        simp only [Option.ite_none_left_eq_some, Option.some.injEq] at ht
        obtain ⟨-, rfl⟩ := ht
        exact .inr (.inr ⟨i, c, _, hi, rfl, .register hc now⟩)
      | alreadyRegistered =>
        simp only [Option.ite_none_right_eq_some, Option.some.injEq] at ht
        obtain ⟨hid, rfl⟩ := ht
        exact .inr (.inr ⟨i, c, _, hi, rfl, .keep hc now (List.contains_iff_mem.mp hid)⟩)
      | fails =>
        obtain rfl := Option.some.inj ht
        exact .inr (.inr ⟨i, c, _, hi, rfl, .reject hc _⟩)
    · cases ht
  | unregistered i ok =>
    obtain ⟨c, hi, ht⟩ := Option.bind_eq_some_iff.mp h
    unfold Manager.unregistered at ht
    split at ht
    · rename_i existing entry hc
      obtain rfl := Option.some.inj ht
      split
      · exact .inr (.inr ⟨i, c, _, hi, rfl, .unregister hc⟩)
      · exact .inr (.inr ⟨i, c, _, hi, rfl, .unregisterFails hc⟩)
    · cases ht
  | set i =>
    obtain ⟨c, hi, ht⟩ := Option.bind_eq_some_iff.mp h
    unfold Manager.set at ht
    split at ht
    · rename_i existing registeredAt hc
      obtain rfl := Option.some.inj ht
      exact .inr (.inr ⟨i, c, _, hi, rfl, .add hc _⟩)
    · rename_i existing entry hc
      obtain rfl := Option.some.inj ht
      exact .inr (.inr ⟨i, c, _, hi, rfl, .remove hc _⟩)
    · cases ht
  | cleanup i =>
    obtain ⟨c, hi, ht⟩ := Option.bind_eq_some_iff.mp h
    unfold Manager.cleanup at ht
    split at ht
    · rename_i result hc
      obtain rfl := Option.some.inj ht
      exact .inr (.inr ⟨i, c, _, hi, rfl, .cleanup hc⟩)
    · cases ht

/-! ### The lists that are stored or that a call has read -/

/-- The list in the storage and all lists that calls have read. -/
structure Lists (P : List ApprovedDomain → Prop) (s : Manager) : Prop where
  stored : P s.getApprovedDomains
  existing : ∀ c ∈ s.calls, ∀ existing, c.stage.existing = some existing → P existing

variable {P : List ApprovedDomain → Prop} {i : Nat} {c : Call} {stage : Stage}

theorem Lists.start (h : Lists P s) (domain : Utf16) (hstage : stage.existing = none) :
    Lists P (s.start domain stage) where
  stored := h.stored
  existing c' hc' existing hexisting := by
    rcases List.mem_append.mp hc' with hc' | hc'
    · exact h.existing c' hc' existing hexisting
    · obtain rfl := List.mem_singleton.mp hc'
      rw [hstage] at hexisting
      cases hexisting

theorem Lists.put (h : Lists P s) (hcalls : t.calls = s.calls.set i { c with stage })
    (hstored : P t.getApprovedDomains)
    (hstage : ∀ existing, stage.existing = some existing → P existing) : Lists P t where
  stored := hstored
  existing c' hc' existing hexisting := by
    rw [hcalls] at hc'
    rcases Tasks.mem_set hc' with rfl | ⟨j, -, hj⟩
    · exact hstage existing hexisting
    · exact h.existing c' (List.mem_of_getElem? hj) existing hexisting

/-- What holds of the lists goes on to hold if a call's own change of the list that it has read
keeps it. -/
theorem Lists.step (h : Lists P s) (hs : s.step e = some t)
    (hadd : ∀ c ∈ s.calls, ∀ existing now, c.stage = .adding existing now → P existing →
      P (added existing c.domain now))
    (hremove : ∀ c ∈ s.calls, ∀ existing entry, c.stage = .removing existing entry → P existing →
      P (removed existing c.domain)) : Lists P t := by
  rcases step_cases hs with ⟨domain, jsFile, -, rfl⟩ | ⟨domain, -, rfl⟩ |
    ⟨i, c, stage, hi, hcalls, hadvance⟩
  · exact h.start domain rfl
  · exact h.start domain rfl
  · have hc := List.mem_of_getElem? hi
    have hread := h.existing c hc
    have hstored : t.stored = s.stored → P t.getApprovedDomains := by
      intro heq
      rw [getApprovedDomains, heq]
      exact h.stored
    generalize hstored' : t.stored = stored, hscripts' : t.scripts = scripts at hadvance
    cases hadvance with
    | wait | lock | release | found | reject | notFound | cleanup =>
      refine h.put hcalls (hstored hstored') fun existing hexisting => ?_
      cases hexisting
    | read | find =>
      refine h.put hcalls (hstored hstored') fun existing hexisting => ?_
      obtain rfl := Option.some.inj hexisting
      exact h.stored
    | register hstage | keep hstage | unregister hstage | unregisterFails hstage =>
      refine h.put hcalls (hstored hstored') fun existing hexisting => ?_
      apply hread
      rw [hstage]
      exact hexisting
    | add hstage =>
      refine h.put hcalls ?_ fun existing hexisting => by cases hexisting
      rw [getApprovedDomains, hstored']
      exact hadd c hc _ _ hstage (hread _ (by rw [hstage]; rfl))
    | remove hstage =>
      refine h.put hcalls ?_ fun existing hexisting => by cases hexisting
      rw [getApprovedDomains, hstored']
      exact hremove c hc _ _ hstage (hread _ (by rw [hstage]; rfl))

end Manager

/-! ### The worker and its passes -/

/-- Where `reRegisterOnStartup` stands with an entry: at the registered scripts, at the
registration, or at its end, after an error that is not one of an id that is there. -/
inductive Progress where
  | looking
  | registering
  | settled
  | failed
  deriving DecidableEq

structure ReRegistration where
  entry : ApprovedDomain
  progress : Progress := .looking
  deriving DecidableEq

/-- A call of `reRegisterOnStartup`: at its read, or with the entries that it has read. -/
inductive Pass where
  | reading
  | running (entries : List ReRegistration)
  deriving DecidableEq

structure Worker where
  manager : Manager := {}
  passes : List Pass := []
  deriving DecidableEq

/-- The events of the manager; a call of `reRegisterOnStartup`, and what pass `p` awaits: its read,
and for entry `i` the registered scripts and the registration; and a stop of the worker, at which
an update of the extension takes the scripts away. -/
inductive Worker.Event where
  | manager (e : ContentScripts.Event)
  | reRegisterOnStartup
  | read (p : Nat)
  | looked (p i : Nat) (ok : Bool)
  | reRegistered (p i : Nat) (outcome : Registration)
  | stop (updated : Bool)
  deriving DecidableEq

/-- The script that an entry is registered with anew. -/
def ApprovedDomain.contentScript (entry : ApprovedDomain) : ContentScript :=
  { ContentScripts.contentScript entry.domain none with id := entry.scriptId }

namespace Worker

def read (s : Worker) (p : Nat) : Option Worker :=
  match s.passes[p]? with
  | some .reading =>
    let entries := s.manager.getApprovedDomains.map fun entry => { entry }
    some { s with passes := s.passes.set p (.running entries) }
  | _ => none

def proceed (s : Worker) (p i : Nat) (entries : List ReRegistration) (entry : ApprovedDomain)
    (progress : Progress) : Worker :=
  { s with passes := s.passes.set p (.running (entries.set i { entry, progress })) }

def looked (s : Worker) (p i : Nat) (ok : Bool) : Option Worker :=
  match s.passes[p]? with
  | some (.running entries) =>
    match entries[i]? with
    | some ⟨entry, .looking⟩ =>
      some (s.proceed p i entries entry
        (if !ok then .failed
          else if s.manager.registeredIds.contains entry.scriptId then .settled
          else .registering))
    | _ => none
  | _ => none

def reRegistered (s : Worker) (p i : Nat) (outcome : Registration) : Option Worker :=
  match s.passes[p]? with
  | some (.running entries) =>
    match entries[i]? with
    | some ⟨entry, .registering⟩ =>
      match outcome with
      | .succeeds =>
        if s.manager.registeredIds.contains entry.scriptId then none
        else
          some { s.proceed p i entries entry .settled with
            manager := { s.manager with
              scripts := s.manager.scripts ++ [entry.contentScript] } }
      | .alreadyRegistered =>
        if s.manager.registeredIds.contains entry.scriptId then
          some (s.proceed p i entries entry .settled)
        else none
      | .fails => some (s.proceed p i entries entry .failed)
    | _ => none
  | _ => none

def stop (s : Worker) (updated : Bool) : Worker where
  manager :=
    { stored := s.manager.stored
      scripts := if updated then [] else s.manager.scripts
      approved := s.manager.approved }

def step (s : Worker) : Event → Option Worker
  | .manager e => (s.manager.step e).map fun manager => { s with manager }
  | .reRegisterOnStartup => some { s with passes := s.passes ++ [.reading] }
  | .read p => s.read p
  | .looked p i ok => s.looked p i ok
  | .reRegistered p i outcome => s.reRegistered p i outcome
  | .stop updated => some (s.stop updated)

abbrev Run (s : Worker) (es : List Event) (t : Worker) : Prop := Machine.Run step s es t

variable {s t : Worker} {p i : Nat}

theorem read_eq (h : s.read p = some t) :
    t = { s with
      passes := s.passes.set p
        (.running (s.manager.getApprovedDomains.map fun entry => { entry })) } := by
  unfold Worker.read at h
  split at h
  · exact (Option.some.inj h).symm
  · cases h

/-- An entry is settled only if its script has been found. -/
theorem looked_cases {ok : Bool} (h : s.looked p i ok = some t) :
    ∃ entries x progress, s.passes[p]? = some (.running entries) ∧ entries[i]? = some x ∧
      (progress = .settled → x.entry.scriptId ∈ s.manager.registeredIds) ∧
      t = s.proceed p i entries x.entry progress := by
  unfold Worker.looked at h
  split at h
  · rename_i entries hp
    split at h
    · rename_i entry hi
      refine ⟨entries, _, _, hp, hi, fun hprogress => ?_, (Option.some.inj h).symm⟩
      split at hprogress
      · cases hprogress
      · split at hprogress
        · rename_i hid
          exact List.contains_iff_mem.mp hid
        · cases hprogress
    · cases h
  · cases h

/-- The script of the entry is added, or the scripts stay as they are. -/
theorem reRegistered_cases {outcome : Registration} (h : s.reRegistered p i outcome = some t) :
    ∃ entries x, s.passes[p]? = some (.running entries) ∧ entries[i]? = some x ∧
      (t = { s with manager := { s.manager with
          scripts := s.manager.scripts ++ [x.entry.contentScript] } }.proceed p i entries x.entry
            .settled ∨
        ∃ progress, (progress = .settled → x.entry.scriptId ∈ s.manager.registeredIds) ∧
          t = s.proceed p i entries x.entry progress) := by
  unfold Worker.reRegistered at h
  split at h
  · rename_i entries hp
    split at h
    · rename_i entry hi
      refine ⟨entries, _, hp, hi, ?_⟩
      cases outcome with
      | succeeds =>
        simp only [Option.ite_none_left_eq_some, Option.some.injEq] at h
        exact .inl h.2.symm
      | alreadyRegistered =>
        simp only [Option.ite_none_right_eq_some, Option.some.injEq] at h
        exact .inr ⟨_, fun _ => List.contains_iff_mem.mp h.1, h.2.symm⟩
      | fails => exact .inr ⟨_, fun hprogress => (by cases hprogress), (Option.some.inj h).symm⟩
    · cases h
  · cases h

end Worker

/-- A pass in which no entry has failed or is still under way. -/
def Pass.Complete : Pass → Prop
  | .reading => False
  | .running entries => ∀ x ∈ entries, x.progress = .settled

instance : DecidablePred Pass.Complete
  | .reading => isFalse id
  | .running entries => inferInstanceAs (Decidable (∀ x ∈ entries, x.progress = .settled))

/-! ### Where scripts come from -/

section Traced

variable {asked asked' : Utf16 → Option Utf16 → Prop}

def ApprovedDomain.Traced (asked : Utf16 → Option Utf16 → Prop) (a : ApprovedDomain) : Prop :=
  a.scriptId = ContentScripts.scriptId a.domain ∧ ∃ jsFile, asked a.domain jsFile

/-- A script is that of a call of `registerForDomain`, or has been registered anew after one. -/
def ContentScript.Traced (asked : Utf16 → Option Utf16 → Prop) (script : ContentScript) : Prop :=
  ∃ domain jsFile, asked domain jsFile ∧
    (script = contentScript domain jsFile ∨ script = contentScript domain none)

def Call.Traced (asked : Utf16 → Option Utf16 → Prop) (c : Call) : Prop :=
  match c.stage with
  | .hashing jsFile | .readingToRegister jsFile | .registering jsFile _ => asked c.domain jsFile
  | .adding _ _ => ∃ jsFile, asked c.domain jsFile
  | .unregistering _ entry => entry.scriptId = scriptId c.domain
  | _ => True

structure Manager.Traced (asked : Utf16 → Option Utf16 → Prop) (s : Manager) : Prop where
  lists : Lists (fun list => ∀ a ∈ list, a.Traced asked) s
  calls : ∀ c ∈ s.calls, c.Traced asked
  scripts : ∀ script ∈ s.scripts, script.Traced asked

theorem ApprovedDomain.Traced.mono {a : ApprovedDomain} (h : a.Traced asked)
    (himp : ∀ d jsFile, asked d jsFile → asked' d jsFile) : a.Traced asked' := by
  obtain ⟨hid, jsFile, hasked⟩ := h
  exact ⟨hid, jsFile, himp _ _ hasked⟩

theorem ApprovedDomain.Traced.contentScript {a : ApprovedDomain} (h : a.Traced asked) :
    a.contentScript.Traced asked := by
  obtain ⟨hid, jsFile, hasked⟩ := h
  refine ⟨a.domain, jsFile, hasked, .inr ?_⟩
  rw [ApprovedDomain.contentScript, hid]
  rfl

theorem ContentScript.Traced.mono {script : ContentScript} (h : script.Traced asked)
    (himp : ∀ d jsFile, asked d jsFile → asked' d jsFile) : script.Traced asked' := by
  obtain ⟨domain, jsFile, hasked, hscript⟩ := h
  exact ⟨domain, jsFile, himp _ _ hasked, hscript⟩

theorem Call.Traced.mono {c : Call} (h : c.Traced asked)
    (himp : ∀ d jsFile, asked d jsFile → asked' d jsFile) : c.Traced asked' := by
  unfold Call.Traced at h ⊢
  split at h
  · exact himp _ _ h
  · exact himp _ _ h
  · exact himp _ _ h
  · exact h.imp fun _ => himp _ _
  · exact h
  · trivial

namespace Manager

variable {s t : Manager}

theorem Traced.mono (h : Traced asked s)
    (himp : ∀ d jsFile, asked d jsFile → asked' d jsFile) : Traced asked' s where
  lists :=
    ⟨fun a ha => (h.lists.stored a ha).mono himp, fun c hc existing hexisting a ha =>
      (h.lists.existing c hc existing hexisting a ha).mono himp⟩
  calls c hc := (h.calls c hc).mono himp
  scripts script hscript := (h.scripts script hscript).mono himp

theorem Traced.advance {c : Call} {stage : Stage} {stored : Option (List ApprovedDomain)}
    {scripts : List ContentScript} (h : Traced asked s) (hc : c ∈ s.calls)
    (hadvance : s.Advance c stage stored scripts) :
    Call.Traced asked { c with stage } ∧ ∀ script ∈ scripts, script.Traced asked := by
  have hcall := h.calls c hc
  cases hadvance with
  | wait | release | found | reject | notFound | add | remove | cleanup =>
    exact ⟨trivial, h.scripts⟩
  | unregisterFails => exact ⟨trivial, h.scripts⟩
  | unregister =>
    exact ⟨trivial, fun script hscript => h.scripts script (List.mem_of_mem_filter hscript)⟩
  | lock hstage | read hstage =>
    rw [Call.Traced, hstage] at hcall
    exact ⟨hcall, h.scripts⟩
  | find _ hmem hdomain =>
    have hentry := (h.lists.stored _ hmem).1
    rw [hdomain] at hentry
    exact ⟨hentry, h.scripts⟩
  | keep hstage =>
    rw [Call.Traced, hstage] at hcall
    exact ⟨⟨_, hcall⟩, h.scripts⟩
  | register hstage =>
    rw [Call.Traced, hstage] at hcall
    refine ⟨⟨_, hcall⟩, fun script hscript => ?_⟩
    rcases List.mem_append.mp hscript with hscript | hscript
    · exact h.scripts script hscript
    · exact ⟨_, _, hcall, .inl (List.mem_singleton.mp hscript)⟩

theorem Traced.step {e : Event} (h : Traced asked s) (hs : s.step e = some t)
    (hasked : ∀ domain jsFile, e = .registerForDomain domain jsFile → asked domain jsFile) :
    Traced asked t := by
  have hlists : t.Lists fun list => ∀ a ∈ list, a.Traced asked := by
    refine h.lists.step hs (fun c hc existing now hstage hexisting a ha => ?_)
      fun c _ existing entry _ hexisting a ha => hexisting a (List.mem_of_mem_filter ha)
    rcases List.mem_append.mp ha with ha | ha
    · exact hexisting a ha
    · obtain rfl := List.mem_singleton.mp ha
      have hcall := h.calls c hc
      rw [Call.Traced, hstage] at hcall
      exact ⟨rfl, hcall⟩
  rcases step_cases hs with ⟨domain, jsFile, rfl, rfl⟩ | ⟨domain, -, rfl⟩ |
    ⟨i, c, stage, hi, hcalls, hadvance⟩
  · refine ⟨hlists, fun c hc => ?_, h.scripts⟩
    rcases List.mem_append.mp hc with hc | hc
    · exact h.calls c hc
    · exact List.mem_singleton.mp hc ▸ hasked domain jsFile rfl
  · refine ⟨hlists, fun c hc => ?_, h.scripts⟩
    rcases List.mem_append.mp hc with hc | hc
    · exact h.calls c hc
    · exact List.mem_singleton.mp hc ▸ trivial
  · obtain ⟨hcall, hscripts⟩ := h.advance (List.mem_of_getElem? hi) hadvance
    refine ⟨hlists, fun c' hc' => ?_, hscripts⟩
    rw [hcalls] at hc'
    rcases Tasks.mem_set hc' with rfl | ⟨j, -, hj⟩
    · exact hcall
    · exact h.calls c' (List.mem_of_getElem? hj)

end Manager

/-- Nothing but what calls have asked for, in the passes too. -/
structure Worker.Traced (asked : Utf16 → Option Utf16 → Prop) (s : Worker) : Prop where
  manager : s.manager.Traced asked
  passes : ∀ entries, Pass.running entries ∈ s.passes → ∀ x ∈ entries, x.entry.Traced asked

namespace Worker

variable {s t : Worker}

theorem Traced.initial : Traced asked {} where
  manager :=
    { lists := ⟨fun a ha => (by cases ha), fun c hc => by cases hc⟩
      calls := fun c hc => by cases hc
      scripts := fun script hscript => by cases hscript }
  passes entries hp := by cases hp

theorem Traced.mono (h : Traced asked s)
    (himp : ∀ d jsFile, asked d jsFile → asked' d jsFile) : Traced asked' s where
  manager := h.manager.mono himp
  passes entries hp x hx := (h.passes entries hp x hx).mono himp

/-- A pass goes on with entries that have been asked for. -/
theorem Traced.set {p : Nat} {entries : List ReRegistration} (h : Traced asked s)
    (hmanager : t.manager.Traced asked) (hpasses : t.passes = s.passes.set p (.running entries))
    (hentries : ∀ x ∈ entries, x.entry.Traced asked) : Traced asked t where
  manager := hmanager
  passes entries' hp := by
    rw [hpasses] at hp
    rcases Tasks.mem_set hp with heq | ⟨q, -, hq⟩
    · cases heq
      exact hentries
    · exact h.passes entries' (List.mem_of_getElem? hq)

theorem Traced.entry {p i : Nat} {entries : List ReRegistration} {x : ReRegistration}
    (h : Traced asked s) (hp : s.passes[p]? = some (.running entries))
    (hi : entries[i]? = some x) : x.entry.Traced asked :=
  h.passes entries (List.mem_of_getElem? hp) x (List.mem_of_getElem? hi)

theorem Traced.proceed {p i : Nat} {entries : List ReRegistration} {x : ReRegistration}
    (h : Traced asked s) (hp : s.passes[p]? = some (.running entries))
    (hi : entries[i]? = some x) (progress : Progress) :
    Traced asked (s.proceed p i entries x.entry progress) := by
  have hentry := h.entry hp hi
  refine h.set h.manager rfl fun y hy => ?_
  rcases Tasks.mem_set hy with rfl | ⟨j, -, hj⟩
  · exact hentry
  · exact h.entry hp hj

theorem Traced.step {e : Event} (h : Traced asked s) (hs : s.step e = some t)
    (hasked : ∀ domain jsFile, e = .manager (.registerForDomain domain jsFile) →
      asked domain jsFile) : Traced asked t := by
  cases e with
  | manager e =>
    obtain ⟨manager, hmanager, rfl⟩ := Option.map_eq_some_iff.mp hs
    exact ⟨h.manager.step hmanager fun domain jsFile he => hasked domain jsFile (he ▸ rfl),
      h.passes⟩
  | reRegisterOnStartup =>
    obtain rfl := Option.some.inj hs
    refine ⟨h.manager, fun entries hp => ?_⟩
    rcases List.mem_append.mp hp with hp | hp
    · exact h.passes entries hp
    · cases List.mem_singleton.mp hp
  | read p =>
    obtain rfl := read_eq hs
    refine h.set h.manager rfl fun x hx => ?_
    obtain ⟨entry, hentry, rfl⟩ := List.mem_map.mp hx
    exact h.manager.lists.stored entry hentry
  | looked p i ok =>
    obtain ⟨entries, x, progress, hp, hi, -, rfl⟩ := looked_cases hs
    exact h.proceed hp hi progress
  | reRegistered p i outcome =>
    obtain ⟨entries, x, hp, hi, rfl | ⟨progress, -, rfl⟩⟩ := reRegistered_cases hs
    · refine ⟨⟨⟨h.manager.lists.stored, h.manager.lists.existing⟩, h.manager.calls,
        fun script hscript => ?_⟩, (h.proceed hp hi .settled).passes⟩
      rcases List.mem_append.mp hscript with hscript | hscript
      · exact h.manager.scripts script hscript
      · exact List.mem_singleton.mp hscript ▸ (h.entry hp hi).contentScript
    · exact h.proceed hp hi progress
  | stop updated =>
    obtain rfl := Option.some.inj hs
    refine ⟨⟨⟨h.manager.lists.stored, fun c hc => by cases hc⟩, fun c hc => (by cases hc),
      fun script hscript => ?_⟩, fun entries hp => by cases hp⟩
    cases updated with
    | false => exact h.manager.scripts script hscript
    | true => cases hscript

end Worker

end Traced

end SmartIdVault.ContentScripts
