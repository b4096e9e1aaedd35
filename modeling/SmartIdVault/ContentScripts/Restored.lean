import SmartIdVault.ContentScripts.Agreement
import SmartIdVault.ContentScripts.Startup

/-! What a pass of `reRegisterOnStartup` leaves behind.  Since the worker has started, a domain
whose script is missing is in none of the lists, or in all of them, that in the storage and those
that calls have read; in the second case each pass that has read the list has still to see to
it. -/

namespace SmartIdVault.ContentScripts

variable {d : Utf16} {asked : Utf16 → Option Utf16 → Prop}

def Manager.HasScript (s : Manager) (d : Utf16) : Prop := scriptId d ∈ s.registeredIds

def Stage.Unregisters : Stage → Prop
  | .readingToUnregister | .unregistering _ _ | .removing _ _ => True
  | _ => False

/-- The calls leave the script of the domain alone, and have it registered before they list it. -/
structure Manager.Keeps (d : Utf16) (s : Manager) : Prop where
  unregister : ∀ c ∈ s.calls, c.stage.Unregisters → scriptId c.domain ≠ scriptId d
  adding : ∀ c ∈ s.calls, ∀ existing now, c.stage = .adding existing now → c.domain = d →
    s.HasScript d

/-- Each pass that has read the list has still to see to the domain. -/
def Awaited (d : Utf16) (passes : List Pass) : Prop :=
  ∀ entries, Pass.running entries ∈ passes →
    ∃ x ∈ entries, x.entry.domain = d ∧ x.progress ≠ .settled

/-- Without a script, the domain is in none of the lists, or it is in all of them and awaited. -/
structure Worker.Kept (d : Utf16) (s : Worker) : Prop where
  keeps : s.manager.Keeps d
  cover : s.manager.HasScript d ∨ s.manager.Lists (fun list => d ∉ domains list) ∨
    s.manager.Lists (fun list => d ∈ domains list) ∧ Awaited d s.passes

namespace Manager

variable {s t : Manager} {c : Call} {stage : Stage} {stored : Option (List ApprovedDomain)}
  {scripts : List ContentScript} {e : Event}

theorem HasScript.advance (h : s.HasScript d) (hkeeps : s.Keeps d) (htraced : Traced asked s)
    (hc : c ∈ s.calls) (hadvance : s.Advance c stage stored scripts) :
    scriptId d ∈ scripts.map (·.id) := by
  cases hadvance with
  | register =>
    rw [List.map_append]
    exact List.mem_append_left _ h
  | @unregister existing entry hstage =>
    have hne : scriptId c.domain ≠ scriptId d := hkeeps.unregister c hc (by rw [hstage]; trivial)
    have hentry := htraced.calls c hc
    rw [Call.Traced, hstage] at hentry
    obtain ⟨script, hscript, hid⟩ := List.mem_map.mp h
    refine List.mem_map.mpr ⟨script, List.mem_filter.mpr ⟨hscript, decide_eq_true ?_⟩, hid⟩
    rw [hid, hentry]
    exact hne.symm
  | _ => exact h

theorem HasScript.step (h : s.HasScript d) (hkeeps : s.Keeps d) (htraced : Traced asked s)
    (hs : s.step e = some t) : t.HasScript d := by
  rcases step_cases hs with ⟨domain, jsFile, -, rfl⟩ | ⟨domain, -, rfl⟩ |
    ⟨i, c, stage, hi, hcalls, hadvance⟩
  · exact h
  · exact h
  · exact h.advance hkeeps htraced (List.mem_of_getElem? hi) hadvance

theorem Keeps.start (h : s.Keeps d) (domain : Utf16)
    (hunregister : stage.Unregisters → scriptId domain ≠ scriptId d)
    (hadding : ∀ existing now, stage ≠ .adding existing now) : (s.start domain stage).Keeps d where
  unregister c hc := by
    rcases List.mem_append.mp hc with hc | hc
    · exact h.unregister c hc
    · exact List.mem_singleton.mp hc ▸ hunregister
  adding c hc existing now hstage := by
    rcases List.mem_append.mp hc with hc | hc
    · exact h.adding c hc existing now hstage
    · obtain rfl := List.mem_singleton.mp hc
      exact absurd hstage (hadding existing now)

/-- Where a call goes on to unregister a script, it has been about to; and where it goes on to list
its domain, the script is registered. -/
theorem Advance.keeps (h : s.Advance c stage stored scripts) :
    (stage.Unregisters → c.stage.Unregisters) ∧
    ((∃ existing now, stage = .adding existing now) → scriptId c.domain ∈ scripts.map (·.id)) := by
  cases h with
  | find hstage | unregister hstage | unregisterFails hstage =>
    refine ⟨fun _ => by rw [hstage]; trivial, ?_⟩
    rintro ⟨existing, now, heq⟩
    cases heq
  | keep _ _ hid => exact ⟨False.elim, fun _ => hid⟩
  | register => exact ⟨False.elim, fun _ => by simp [contentScript]⟩
  | _ =>
    refine ⟨False.elim, ?_⟩
    rintro ⟨existing, now, heq⟩
    cases heq

theorem Keeps.step (h : s.Keeps d) (htraced : Traced asked s) (hs : s.step e = some t)
    (hkept : ∀ domain, e = .unregisterForDomain domain → scriptId domain ≠ scriptId d) :
    t.Keeps d := by
  have hscript (hd : s.HasScript d) : t.HasScript d := hd.step h htraced hs
  rcases step_cases hs with ⟨domain, jsFile, -, rfl⟩ | ⟨domain, rfl, rfl⟩ |
    ⟨i, c, stage, hi, hcalls, hadvance⟩
  · exact h.start domain False.elim fun _ _ heq => by cases heq
  · exact h.start domain (fun _ => hkept domain rfl) fun _ _ heq => by cases heq
  · have hc := List.mem_of_getElem? hi
    obtain ⟨hunregisters, hadding⟩ := hadvance.keeps
    constructor
    · intro c' hc' hstage
      rw [hcalls] at hc'
      rcases Tasks.mem_set hc' with rfl | ⟨j, -, hj⟩
      · exact h.unregister c hc (hunregisters hstage)
      · exact h.unregister c' (List.mem_of_getElem? hj) hstage
    · intro c' hc' existing now hstage hdomain
      rw [hcalls] at hc'
      rcases Tasks.mem_set hc' with rfl | ⟨j, -, hj⟩
      · rw [← hdomain]
        exact hadding ⟨existing, now, hstage⟩
      · exact hscript (h.adding c' (List.mem_of_getElem? hj) existing now hstage hdomain)

end Manager

/-- An entry of a pass goes on, and has its script if it is done with. -/
theorem Awaited.set {passes : List Pass} {p i : Nat} {entries : List ReRegistration}
    {y : ReRegistration} {progress : Progress} (h : Awaited d passes)
    (hp : passes[p]? = some (.running entries)) (hi : entries[i]? = some y)
    (hprogress : y.entry.domain = d → progress ≠ .settled) :
    Awaited d (passes.set p (.running (entries.set i { y with progress }))) := by
  intro entries' hentries'
  rcases Tasks.mem_set hentries' with heq | ⟨q, -, hq⟩
  · cases heq
    obtain ⟨x, hx, hdomain, hx'⟩ := h entries (List.mem_of_getElem? hp)
    obtain ⟨j, hj⟩ := List.mem_iff_getElem?.mp hx
    by_cases hji : j = i
    · obtain rfl := hji
      obtain rfl := Option.some.inj (hi.symm.trans hj)
      exact ⟨_, Tasks.mem_set_self hj _, hdomain, hprogress hdomain⟩
    · exact ⟨x, Tasks.mem_set_of_ne hji hj, hdomain, hx'⟩
  · exact h entries' (List.mem_of_getElem? hq)

namespace Worker

variable {s t : Worker} {m : Manager}

theorem Kept.manager {e : ContentScripts.Event} (h : Kept d s) (htraced : s.manager.Traced asked)
    (hs : s.manager.step e = some m)
    (hkept : ∀ domain, e = .unregisterForDomain domain → scriptId domain ≠ scriptId d) :
    Kept d { s with manager := m } where
  keeps := h.keeps.step htraced hs hkept
  cover := by
    by_cases hscript : s.manager.HasScript d
    · exact .inl (hscript.step h.keeps htraced hs)
    rcases h.cover with hcover | hunlisted | ⟨hlisted, hawaited⟩
    · exact absurd hcover hscript
    · refine .inr (.inl (hunlisted.step hs (fun c hc existing now hstage hnot => ?_)
        fun c _ existing entry _ hnot => ?_))
      · rw [mem_domains_added]
        rintro (hd | rfl)
        · exact hnot hd
        · exact hscript (h.keeps.adding c hc existing now hstage rfl)
      · rw [mem_domains_removed]
        exact fun hd => hnot hd.1
    · refine .inr (.inr ⟨hlisted.step hs (fun c _ existing now _ hd => ?_)
        fun c hc existing entry hstage hd => ?_, hawaited⟩)
      · exact mem_domains_added.mpr (.inl hd)
      · have hne : scriptId c.domain ≠ scriptId d := by
          apply h.keeps.unregister c hc
          rw [hstage]
          trivial
        exact mem_domains_removed.mpr ⟨hd, fun heq => hne (congrArg scriptId heq.symm)⟩

/-- The manager is left alone, and the domain is still awaited where it was. -/
theorem Kept.passes {passes : List Pass} (h : Kept d s)
    (hawaited : s.manager.HasScript d ∨
      (d ∈ domains s.manager.getApprovedDomains → Awaited d s.passes → Awaited d passes)) :
    Kept d { s with passes } where
  keeps := h.keeps
  cover := by
    rcases h.cover with hcover | hunlisted | ⟨hlisted, hs⟩
    · exact .inl hcover
    · exact .inr (.inl hunlisted)
    · rcases hawaited with hscript | hawaited
      · exact .inl hscript
      · exact .inr (.inr ⟨hlisted, hawaited hlisted.stored hs⟩)

theorem Kept.scripts {scripts : List ContentScript} (h : Kept d s)
    (hscripts : ∀ script ∈ s.manager.scripts, script ∈ scripts) :
    Kept d { s with manager := { s.manager with scripts } } := by
  have hmono : s.manager.HasScript d → { s.manager with scripts }.HasScript d := by
    intro hd
    obtain ⟨script, hscript, hid⟩ := List.mem_map.mp hd
    exact List.mem_map.mpr ⟨script, hscripts script hscript, hid⟩
  refine ⟨⟨h.keeps.unregister, fun c hc existing now hstage hdomain =>
    hmono (h.keeps.adding c hc existing now hstage hdomain)⟩, ?_⟩
  rcases h.cover with hcover | hunlisted | ⟨hlisted, hawaited⟩
  · exact .inl (hmono hcover)
  · exact .inr (.inl ⟨hunlisted.stored, hunlisted.existing⟩)
  · exact .inr (.inr ⟨⟨hlisted.stored, hlisted.existing⟩, hawaited⟩)

/-- After a stop there are no calls and no passes. -/
theorem Kept.stop (s : Worker) (updated : Bool) : Kept d (s.stop updated) where
  keeps := ⟨fun c hc => (by cases hc), fun c hc => by cases hc⟩
  cover := by
    by_cases hd : d ∈ domains s.manager.getApprovedDomains
    · exact .inr (.inr ⟨⟨hd, fun c hc => (by cases hc)⟩, fun entries hp => by cases hp⟩)
    · exact .inr (.inl ⟨hd, fun c hc => by cases hc⟩)

theorem Kept.proceed {p i : Nat} {entries : List ReRegistration} {x : ReRegistration}
    {progress : Progress} (h : Kept d s) (hp : s.passes[p]? = some (.running entries))
    (hi : entries[i]? = some x) (hid : x.entry.scriptId = scriptId x.entry.domain)
    (hdone : progress = .settled → x.entry.scriptId ∈ s.manager.registeredIds) :
    Kept d (s.proceed p i entries x.entry progress) := by
  by_cases hdomain : x.entry.domain = d ∧ progress = .settled
  · obtain ⟨rfl, hprogress⟩ := hdomain
    refine h.passes (.inl ?_)
    rw [Manager.HasScript, ← hid]
    exact hdone hprogress
  · exact h.passes (.inr fun _ hawaited =>
      hawaited.set hp hi fun hd hprogress => hdomain ⟨hd, hprogress⟩)

theorem Kept.step {e : Event} (h : Kept d s) (htraced : Traced asked s) (hs : s.step e = some t)
    (hkept : ∀ domain, e = .manager (.unregisterForDomain domain) →
      scriptId domain ≠ scriptId d) : Kept d t := by
  cases e with
  | manager e =>
    obtain ⟨m, hmanager, rfl⟩ := Option.map_eq_some_iff.mp hs
    exact h.manager htraced.manager hmanager fun domain he => hkept domain (he ▸ rfl)
  | reRegisterOnStartup =>
    obtain rfl := Option.some.inj hs
    refine h.passes (.inr fun _ hawaited entries hp => ?_)
    rcases List.mem_append.mp hp with hp | hp
    · exact hawaited entries hp
    · cases List.mem_singleton.mp hp
  | read p =>
    obtain rfl := read_eq hs
    refine h.passes (.inr fun hd hawaited entries hp => ?_)
    rcases Tasks.mem_set hp with heq | ⟨q, -, hq⟩
    · cases heq
      obtain ⟨entry, hentry, hdomain⟩ := List.mem_map.mp hd
      exact ⟨{ entry }, List.mem_map_of_mem hentry, hdomain, fun hprogress => by cases hprogress⟩
    · exact hawaited entries (List.mem_of_getElem? hq)
  | looked p i ok =>
    obtain ⟨entries, x, progress, hp, hi, hdone, rfl⟩ := looked_cases hs
    exact h.proceed hp hi (htraced.entry hp hi).1 hdone
  | reRegistered p i outcome =>
    obtain ⟨entries, x, hp, hi, rfl | ⟨progress, hdone, rfl⟩⟩ := reRegistered_cases hs
    · have hscripts : Kept d { s with manager := { s.manager with
          scripts := s.manager.scripts ++ [x.entry.contentScript] } } :=
        h.scripts fun script hscript => List.mem_append_left _ hscript
      refine hscripts.proceed hp hi (htraced.entry hp hi).1 fun _ => ?_
      simp [Manager.registeredIds, ApprovedDomain.contentScript]
    · exact h.proceed hp hi (htraced.entry hp hi).1 hdone
  | stop updated =>
    obtain rfl := Option.some.inj hs
    exact .stop s updated

/-- Once a pass has gone through since the last start of the worker, every approved domain has its
script, unless a call has gone to unregister it in the meantime; and whatever is registered has been
asked for. -/
theorem scripts_restored {es es' : List Event} {updated : Bool} (hrun : Run {} es t)
    (hrun' : Run (t.stop updated) es' s) :
    (∀ script ∈ s.manager.scripts, ∃ domain jsFile,
      Event.manager (.registerForDomain domain jsFile) ∈ es ++ es' ∧
        (script = contentScript domain jsFile ∨ script = contentScript domain none)) ∧
    ((∃ pass ∈ s.passes, pass.Complete) → ∀ d ∈ domains s.manager.getApprovedDomains,
      (∀ domain, Event.manager (.unregisterForDomain domain) ∈ es' →
        scriptId domain ≠ scriptId d) →
      scriptId d ∈ s.manager.registeredIds) := by
  let asked (domain : Utf16) (jsFile : Option Utf16) : Prop :=
    Event.manager (.registerForDomain domain jsFile) ∈ es ++ es'
  have ht : Traced asked t := by
    refine hrun.invariant (I := Traced asked) (G := fun _ e => e ∈ es) .initial
      (Machine.throughout_of_forall fun _ _ he => he) fun _ _ _ h he hs => ?_
    exact h.step hs fun domain jsFile heq => List.mem_append_left _ (heq ▸ he)
  have hstop : Traced asked (t.stop updated) := ht.step (e := .stop updated) rfl fun _ _ heq => by
    cases heq
  have hs : Traced asked s := by
    refine hrun'.invariant (I := Traced asked) (G := fun _ e => e ∈ es') hstop
      (Machine.throughout_of_forall fun _ _ he => he) fun _ _ _ h he hs => ?_
    exact h.step hs fun domain jsFile heq => List.mem_append_right _ (heq ▸ he)
  refine ⟨hs.manager.scripts, fun ⟨pass, hpass, hcomplete⟩ d hd hkept => ?_⟩
  obtain ⟨-, h⟩ := hrun'.invariant (I := fun s => Traced asked s ∧ Kept d s)
    (G := fun _ e => e ∈ es') ⟨hstop, .stop t updated⟩
    (Machine.throughout_of_forall fun _ _ he => he) fun _ e _ h he hs =>
      ⟨h.1.step hs fun domain jsFile heq => List.mem_append_right _ (heq ▸ he),
        h.2.step h.1 hs fun domain heq => hkept domain (heq ▸ he)⟩
  rcases h.cover with hscript | hunlisted | ⟨-, hawaited⟩
  · exact hscript
  · exact absurd hd hunlisted.stored
  · cases pass with
    | reading => exact absurd hcomplete id
    | running entries =>
      obtain ⟨x, hx, -, hprogress⟩ := hawaited entries hpass
      exact absurd (hcomplete x hx) hprogress

/-- A domain is approved, an update takes its script away, and a pass puts it back. -/
theorem scripts_restored_after_update : ∃ t s,
    Run {} ([.registerForDomain [97] none, .hashed 0, .got 0, .registered 0 .succeeds 0,
      .set 0].map Event.manager) t ∧
    Run (t.stop true) [.reRegisterOnStartup, .read 0, .looked 0 0 true,
      .reRegistered 0 0 .succeeds] s ∧
    [97] ∈ domains s.manager.getApprovedDomains ∧ scriptId [97] ∈ s.manager.registeredIds := by
  have hexec : (Machine.exec step {} ([.registerForDomain [97] none, .hashed 0, .got 0,
      .registered 0 .succeeds 0, .set 0].map Event.manager)).any (fun t =>
        (Machine.exec step (t.stop true) [.reRegisterOnStartup, .read 0, .looked 0 0 true,
          .reRegistered 0 0 .succeeds]).any fun s =>
            decide ([97] ∈ domains s.manager.getApprovedDomains ∧
              ∃ pass ∈ s.passes, pass.Complete)) = true := by
    decide +kernel
  obtain ⟨t, hrun, ht⟩ := Machine.exists_run_with hexec
  obtain ⟨s, hrun', hs⟩ := Machine.exists_run_with ht
  obtain ⟨hd, hpass⟩ := of_decide_eq_true hs
  refine ⟨t, s, hrun, hrun', hd, (scripts_restored hrun hrun').2 hpass _ hd ?_⟩
  intro domain hdomain
  simp at hdomain

end Worker

end SmartIdVault.ContentScripts
