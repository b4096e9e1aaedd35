import SmartIdVault.ContentScripts.Manager

/-! Calls of `registerForDomain` for one domain, whose storage accesses may fail.  The promise in the
lock is `promise.then(cleanup, cleanup)`, which is fulfilled when the registration has failed, too;
a call that has waited for it returns the id of a script that nobody has registered.  And a call
that finds its domain in the list does not look whether the script is still registered. -/

namespace SmartIdVault.ContentScripts.SameDomain

/-- A call for the domain, and what call `i` awaits: its hash, the lock of another call, the read,
the browser, the write; the rejection of its read or its write; and the release of its own lock. -/
inductive Event where
  | registerForDomain (jsFile : Option Utf16)
  | hashed (i : Nat)
  | released (i : Nat)
  | got (i : Nat)
  | registered (i : Nat) (outcome : Registration) (now : Nat)
  | set (i : Nat)
  | storageFailed (i : Nat)
  | cleanup (i : Nat)
  deriving DecidableEq

def storageFailed (s : Manager) (i : Nat) (c : Call) : Option Manager :=
  match c.stage with
  | .readingToRegister _ | .adding .. => some (s.put i c (.settled .rejected))
  | _ => none

def step (domain : Utf16) (s : Manager) : Event → Option Manager
  | .registerForDomain jsFile => s.step (.registerForDomain domain jsFile)
  | .hashed i => s.step (.hashed i)
  | .released i => s.step (.released i)
  | .got i => s.step (.got i)
  | .registered i outcome now => s.step (.registered i outcome now)
  | .set i => s.step (.set i)
  | .storageFailed i => s.calls[i]?.bind fun c => storageFailed s i c
  | .cleanup i => s.step (.cleanup i)

/-- The domain is approved, and its script registered. -/
def Approved (domain : Utf16) (s : Manager) : Prop :=
  domain ∈ domains s.getApprovedDomains ∧ scriptId domain ∈ s.registeredIds

/-- The promise of the call is fulfilled. -/
def resolved : Stage → Bool
  | .settled (.registered _) | .finished (.registered _) => true
  | _ => false

/-- The registration that the call makes, or waits for, has failed. -/
def failed (calls : List Call) : Stage → Bool
  | .settled result => result == .rejected
  | .waiting holder => calls[holder]?.any (·.stage == .finished .rejected)
  | _ => false

/-- After the step each call that has resolved has its domain approved, and a call whose
registration has failed rejects if it goes on. -/
def Truthful (domain : Utf16) (s : Manager) (e : Event) : Prop :=
  ∀ t, step domain s e = some t →
    (∀ c ∈ t.calls, resolved c.stage → Approved domain t) ∧
      ∀ (i : Nat) (c : Call), s.calls[i]? = some c → failed s.calls c.stage →
        t.calls[i]? = some c ∨ t.calls[i]? = some { c with stage := .finished .rejected }

/-- A call goes on behind the lock only when the call that has held it has not failed, and a read
that finds the domain approved finds its script registered. -/
def Backed (domain : Utf16) (s : Manager) : Event → Prop
  | .released i => ∀ c ∈ s.calls[i]?, failed s.calls c.stage = false
  | .got _ => domain ∈ domains s.getApprovedDomains → scriptId domain ∈ s.registeredIds
  | _ => True

instance (domain : Utf16) (s : Manager) : ∀ e, Decidable (Backed domain s e)
  | .released i => inferInstanceAs (Decidable (∀ c ∈ s.calls[i]?, failed s.calls c.stage = false))
  | .got _ => inferInstanceAs (Decidable
      (domain ∈ domains s.getApprovedDomains → scriptId domain ∈ s.registeredIds))
  | .registerForDomain _ | .hashed _ | .registered .. | .set _ | .storageFailed _ | .cleanup _ =>
    isTrue trivial

variable {domain : Utf16} {s t : Manager} {e : Event} {i : Nat} {c : Call}

/-! ### What a step does -/

/-- The steps of call `i`. -/
inductive Move (s : Manager) (i : Nat) (c : Call) : Event → Manager → Prop
  | waits {jsFile : Option Utf16} {holder : Nat} (hstage : c.stage = .hashing jsFile) :
    Move s i c (.hashed i) (s.put i c (.waiting holder))
  | locks {jsFile : Option Utf16} (hstage : c.stage = .hashing jsFile) :
    Move s i c (.hashed i) { s.put i c (.readingToRegister jsFile) with
      registerLock := (c.domain, i) :: s.registerLock }
  | released {holder : Nat} {domain : Utf16} {result : Result} (hstage : c.stage = .waiting holder)
      (hholder : s.calls[holder]? = some ⟨domain, .finished result⟩) :
    Move s i c (.released i) (s.put i c (.finished (.registered (scriptId c.domain))))
  | approved {jsFile : Option Utf16} (hstage : c.stage = .readingToRegister jsFile)
      (hfound : c.domain ∈ domains s.getApprovedDomains) :
    Move s i c (.got i) (s.put i c (.settled (.registered (scriptId c.domain))))
  | unapproved {jsFile : Option Utf16} (hstage : c.stage = .readingToRegister jsFile)
      (hnew : c.domain ∉ domains s.getApprovedDomains) :
    Move s i c (.got i) (s.put i c (.registering jsFile s.getApprovedDomains))
  | registered {jsFile : Option Utf16} {existing : List ApprovedDomain} {now : Nat}
      (hstage : c.stage = .registering jsFile existing) :
    Move s i c (.registered i .succeeds now) { s.put i c (.adding existing now) with
      scripts := s.scripts ++ [contentScript c.domain jsFile] }
  | alreadyRegistered {jsFile : Option Utf16} {existing : List ApprovedDomain} {now : Nat}
      (hstage : c.stage = .registering jsFile existing)
      (hscript : scriptId c.domain ∈ s.registeredIds) :
    Move s i c (.registered i .alreadyRegistered now) (s.put i c (.adding existing now))
  | fails {jsFile : Option Utf16} {existing : List ApprovedDomain} {now : Nat}
      (hstage : c.stage = .registering jsFile existing) :
    Move s i c (.registered i .fails now) (s.put i c (.settled .rejected))
  | set {existing : List ApprovedDomain} {registeredAt : Nat}
      (hstage : c.stage = .adding existing registeredAt) :
    Move s i c (.set i) { s.put i c (.settled (.registered (scriptId c.domain))) with
      stored := some (Manager.added existing c.domain registeredAt)
      approved := c.domain :: s.approved }
  | unread {jsFile : Option Utf16} (hstage : c.stage = .readingToRegister jsFile) :
    Move s i c (.storageFailed i) (s.put i c (.settled .rejected))
  | unwritten {existing : List ApprovedDomain} {registeredAt : Nat}
      (hstage : c.stage = .adding existing registeredAt) :
    Move s i c (.storageFailed i) (s.put i c (.settled .rejected))
  | cleanup {result : Result} (hstage : c.stage = .settled result) :
    Move s i c (.cleanup i) { s.put i c (.finished result) with
      registerLock := s.registerLock.filter (·.1 ≠ c.domain) }

/-- What a call, by the place where it stands, relies on. -/
def Upheld (domain : Utf16) (s : Manager) (c : Call) : Prop :=
  c.domain = domain ∧
    match c.stage with
    | .adding .. => scriptId domain ∈ s.registeredIds
    | .settled (.registered _) | .finished (.registered _) => Approved domain s
    | .settled .unregistered | .finished .unregistered => False
    | .readingToUnregister | .unregistering .. | .removing .. => False
    | _ => True

def Inv (domain : Utf16) (s : Manager) : Prop := ∀ c ∈ s.calls, Upheld domain s c

theorem Inv.get (h : Inv domain s) (hi : s.calls[i]? = some c) : Upheld domain s c :=
  h c (List.mem_of_getElem? hi)

/-- A step starts a call or is one of a call that is under way. -/
theorem move_of_step (h : Inv domain s) (hs : step domain s e = some t) :
    (∃ jsFile, e = .registerForDomain jsFile ∧ t = s.start domain (.hashing jsFile)) ∨
      ∃ i c, s.calls[i]? = some c ∧ Move s i c e t := by
  cases e with
  | registerForDomain jsFile => exact .inl ⟨jsFile, rfl, (Option.some.inj hs).symm⟩
  | hashed i =>
    obtain ⟨c, hi, hc⟩ := Option.bind_eq_some_iff.mp hs
    refine .inr ⟨i, c, hi, ?_⟩
    simp only [Manager.hashed] at hc
    split at hc
    next hstage =>
      split at hc
      · obtain rfl := Option.some.inj hc
        exact .waits hstage
      · obtain rfl := Option.some.inj hc
        exact .locks hstage
    next => cases hc
  | released i =>
    obtain ⟨c, hi, hc⟩ := Option.bind_eq_some_iff.mp hs
    refine .inr ⟨i, c, hi, ?_⟩
    simp only [Manager.released] at hc
    split at hc
    next hstage =>
      split at hc
      next hholder =>
        obtain rfl := Option.some.inj hc
        exact .released hstage hholder
      next => cases hc
    next => cases hc
  | got i =>
    obtain ⟨c, hi, hc⟩ := Option.bind_eq_some_iff.mp hs
    refine .inr ⟨i, c, hi, ?_⟩
    simp only [Manager.got] at hc
    split at hc
    next hstage =>
      obtain rfl := Option.some.inj hc
      split
      next hany =>
        refine .approved hstage ?_
        simpa [domains] using hany
      next hany =>
        refine .unapproved hstage ?_
        simpa [domains] using hany
    next hstage =>
      have hnot := (h.get hi).2
      rw [hstage] at hnot
      exact hnot.elim
    next => cases hc
  | registered i outcome now =>
    obtain ⟨c, hi, hc⟩ := Option.bind_eq_some_iff.mp hs
    refine .inr ⟨i, c, hi, ?_⟩
    simp only [Manager.registered] at hc
    split at hc
    next hstage =>
      cases outcome with
      | succeeds =>
        simp only at hc
        split at hc
        · cases hc
        · obtain rfl := Option.some.inj hc
          exact .registered hstage
      | alreadyRegistered =>
        simp only at hc
        split at hc
        next hscript =>
          obtain rfl := Option.some.inj hc
          exact .alreadyRegistered hstage (List.contains_iff_mem.mp hscript)
        next => cases hc
      | fails =>
        obtain rfl := Option.some.inj hc
        exact .fails hstage
    next => cases hc
  | set i =>
    obtain ⟨c, hi, hc⟩ := Option.bind_eq_some_iff.mp hs
    refine .inr ⟨i, c, hi, ?_⟩
    simp only [Manager.set] at hc
    split at hc
    next hstage =>
      obtain rfl := Option.some.inj hc
      exact .set hstage
    next hstage =>
      have hnot := (h.get hi).2
      rw [hstage] at hnot
      exact hnot.elim
    next => cases hc
  | storageFailed i =>
    obtain ⟨c, hi, hc⟩ := Option.bind_eq_some_iff.mp hs
    refine .inr ⟨i, c, hi, ?_⟩
    simp only [storageFailed] at hc
    split at hc
    next hstage =>
      obtain rfl := Option.some.inj hc
      exact .unread hstage
    next hstage =>
      obtain rfl := Option.some.inj hc
      exact .unwritten hstage
    next => cases hc
  | cleanup i =>
    obtain ⟨c, hi, hc⟩ := Option.bind_eq_some_iff.mp hs
    refine .inr ⟨i, c, hi, ?_⟩
    simp only [Manager.cleanup] at hc
    split at hc
    next hstage =>
      obtain rfl := Option.some.inj hc
      exact .cleanup hstage
    next => cases hc

/-! ### The invariant -/

/-- What is approved and what is registered stays so. -/
structure Grows (domain : Utf16) (s t : Manager) : Prop where
  stored : domain ∈ domains s.getApprovedDomains → domain ∈ domains t.getApprovedDomains
  scripts : scriptId domain ∈ s.registeredIds → scriptId domain ∈ t.registeredIds

theorem Grows.approved (h : Grows domain s t) (ha : Approved domain s) : Approved domain t :=
  ⟨h.stored ha.1, h.scripts ha.2⟩

theorem Upheld.mono (hc : Upheld domain s c) (h : Grows domain s t) : Upheld domain t c := by
  obtain ⟨hdomain, hstage⟩ := hc
  refine ⟨hdomain, ?_⟩
  split at hstage
  · exact h.scripts hstage
  · exact h.approved hstage
  · exact h.approved hstage
  all_goals exact hstage

theorem Move.grows (hm : Move s i c e t) : Grows c.domain s t := by
  cases hm with
  | registered hstage =>
    refine ⟨id, fun hscript => ?_⟩
    simp only [Manager.registeredIds, List.map_append]
    exact List.mem_append_left _ hscript
  | set hstage =>
    refine ⟨fun _ => ?_, id⟩
    simp [Manager.getApprovedDomains, Manager.added, domains]
  | _ => exact ⟨id, id⟩

/-- The call goes on to a stage of which everything holds that it relies on. -/
theorem Move.upheld (hm : Move s i c e t) (h : Inv domain s) (hi : s.calls[i]? = some c)
    (hg : Backed domain s e) :
    ∃ stage, t.calls = s.calls.set i { c with stage } ∧ Upheld domain t { c with stage } := by
  obtain ⟨hdomain, hc⟩ := h.get hi
  subst hdomain
  cases hm with
  | waits hstage => exact ⟨_, rfl, rfl, trivial⟩
  | locks hstage => exact ⟨_, rfl, rfl, trivial⟩
  | @released holder domain result hstage hholder =>
    refine ⟨_, rfl, rfl, ?_⟩
    have hkept := (h.get hholder).2
    have hnot : failed s.calls c.stage = false := hg c hi
    rw [hstage, failed, hholder] at hnot
    cases result with
    | registered id => exact hkept
    | rejected => simp at hnot
    | unregistered => exact hkept.elim
  | approved hstage hfound => exact ⟨_, rfl, rfl, hfound, hg hfound⟩
  | unapproved hstage hnew => exact ⟨_, rfl, rfl, trivial⟩
  | registered hstage =>
    refine ⟨_, rfl, rfl, ?_⟩
    simp [Manager.registeredIds, contentScript]
  | alreadyRegistered hstage hscript => exact ⟨_, rfl, rfl, hscript⟩
  | fails hstage => exact ⟨_, rfl, rfl, trivial⟩
  | set hstage =>
    rw [hstage] at hc
    refine ⟨_, rfl, rfl, ?_, hc⟩
    simp [Manager.getApprovedDomains, Manager.added, domains]
  | unread hstage => exact ⟨_, rfl, rfl, trivial⟩
  | unwritten hstage => exact ⟨_, rfl, rfl, trivial⟩
  | @cleanup result hstage =>
    rw [hstage] at hc
    refine ⟨_, rfl, rfl, ?_⟩
    cases result with
    | registered id => exact hc
    | rejected => trivial
    | unregistered => exact hc

theorem Inv.step (h : Inv domain s) (hg : Backed domain s e)
    (hs : SameDomain.step domain s e = some t) : Inv domain t := by
  obtain ⟨jsFile, -, rfl⟩ | ⟨i, c, hi, hm⟩ := move_of_step h hs
  · intro c hc
    obtain hold | hnew := List.mem_append.mp hc
    · exact (h c hold).mono ⟨id, id⟩
    · rw [List.mem_singleton.mp hnew]
      exact ⟨rfl, trivial⟩
  · obtain ⟨stage, hcalls, hnew⟩ := hm.upheld h hi hg
    have hgrows : Grows domain s t := (h.get hi).1 ▸ hm.grows
    intro c' hc'
    rw [hcalls] at hc'
    obtain rfl | ⟨j, -, hj⟩ := Tasks.mem_set hc'
    · exact hnew
    · exact (h.get hj).mono hgrows

theorem Inv.resolved (h : Inv domain s) (hc : c ∈ s.calls) (hres : resolved c.stage) :
    Approved domain s := by
  have hupheld := (h c hc).2
  cases hstage : c.stage with
  | settled result | finished result =>
    rw [hstage] at hupheld hres
    cases result with
    | registered id => exact hupheld
    | rejected | unregistered => cases hres
  | _ =>
    rw [hstage] at hres
    cases hres

/-- A call whose registration has failed takes one step more, its own rejection, unless it is let
through behind the lock. -/
theorem Move.failed (hm : Move s i c e t) (hi : s.calls[i]? = some c) (hg : Backed domain s e)
    (hfailed : failed s.calls c.stage) :
    t.calls[i]? = some { c with stage := .finished .rejected } := by
  cases hm with
  | released hstage hholder =>
    rw [hg c hi] at hfailed
    cases hfailed
  | @cleanup result hstage =>
    rw [hstage] at hfailed
    obtain rfl : result = .rejected := eq_of_beq hfailed
    exact Tasks.set_self hi _
  | waits hstage | locks hstage | approved hstage | unapproved hstage | registered hstage
  | alreadyRegistered hstage | fails hstage | set hstage | unread hstage | unwritten hstage =>
    rw [hstage] at hfailed
    cases hfailed

theorem Inv.truthful (h : Inv domain s) (hg : Backed domain s e) : Truthful domain s e := by
  intro t hs
  refine ⟨fun c hc hres => (h.step hg hs).resolved hc hres, ?_⟩
  intro j c' hj hfailed
  obtain ⟨jsFile, -, rfl⟩ | ⟨i, c, hi, hm⟩ := move_of_step h hs
  · exact .inl (Tasks.get_append_of_get hj _)
  · by_cases hji : j = i
    · subst hji
      obtain rfl := Option.some.inj (hi.symm.trans hj)
      exact .inr (hm.failed hi hg hfailed)
    · obtain ⟨stage, hcalls, -⟩ := hm.upheld h hi hg
      rw [hcalls]
      exact .inl (Tasks.get_set_of_ne hji hj)

/-- A step that goes on behind a failed registration, or finds the domain without its script, leads
to a call that has resolved and should not have. -/
theorem Inv.backed (h : Inv domain s) (hs : SameDomain.step domain s e = some t)
    (htrue : Truthful domain s e) : Backed domain s e := by
  obtain ⟨hresolved, hrejects⟩ := htrue t hs
  obtain ⟨jsFile, rfl, rfl⟩ | ⟨i, c, hi, hm⟩ := move_of_step h hs
  · trivial
  cases hm with
  | released hstage hholder =>
    intro c' hc'
    obtain rfl := Option.some.inj (hi.symm.trans hc')
    by_contra hfailed
    rw [Bool.not_eq_false] at hfailed
    have hself := Tasks.set_self hi { c with stage := .finished (.registered (scriptId c.domain)) }
    obtain hsame | hrejected := hrejects i c hi hfailed
    · have := Option.some.inj (hself.symm.trans hsame)
      rw [← this] at hstage
      cases hstage
    · cases Option.some.inj (hself.symm.trans hrejected)
  | approved hstage hfound =>
    intro _
    exact (hresolved _ (Tasks.mem_set_self hi _) rfl).2
  | unapproved hstage hnew =>
    intro hfound
    rw [(h.get hi).1] at hnew
    exact (hnew hfound).elim
  | _ => trivial

/-- In every run of calls for one domain, from any list and any scripts and with any outcome of the
browser and the storage: the calls that resolve have their domain approved and its script
registered, and those whose registration has failed reject, exactly when no call goes on behind a
registration that has failed and no read finds the domain approved without its script. -/
theorem truthful_iff_backed {stored : Option (List ApprovedDomain)} {scripts : List ContentScript}
    {es : List Event} (hrun : Machine.Run (step domain) { stored, scripts } es t) :
    Machine.Throughout (step domain) (Truthful domain) { stored, scripts } es ↔
      Machine.Throughout (step domain) (Backed domain) { stored, scripts } es := by
  have hinit : Inv domain { stored, scripts } := by
    intro c hc
    cases hc
  exact hrun.throughout_iff hinit (fun _ _ _ h hg hs => Inv.step h hg hs)
    fun _ _ _ h hs => ⟨Inv.backed h hs, Inv.truthful h⟩

/-- A domain is approved twice at once, and the browser refuses the script. -/
def refusedOnce : List Event :=
  [.registerForDomain none, .registerForDomain none, .hashed 0, .hashed 1, .got 0,
    .registered 0 .fails 0, .cleanup 0]

/-- The first call rejects.  The second, which has waited for it, returns the id of the script,
with no domain approved and no script registered. -/
theorem waiting_call_resolves_after_failure :
    (∃ s t, Machine.Run (step [97]) {} refusedOnce s ∧ step [97] s (.released 1) = some t ∧
      t.calls = [⟨[97], .finished .rejected⟩,
        ⟨[97], .finished (.registered (scriptId [97]))⟩] ∧ t.stored = none ∧ t.scripts = []) ∧
      ¬Machine.Throughout (step [97]) (Truthful [97]) {} (refusedOnce ++ [.released 1]) := by
  have hexec : (Machine.exec (step [97]) {} refusedOnce).any (fun s =>
      (step [97] s (.released 1)).any fun t =>
        t.calls = [⟨[97], .finished .rejected⟩,
          ⟨[97], .finished (.registered (scriptId [97]))⟩] ∧ t.stored = none ∧
          t.scripts = []) = true := by decide +kernel
  obtain ⟨s, hrun, hstep⟩ := Machine.exists_run_with hexec
  obtain ⟨t, hs, ht⟩ := (Option.any_eq_true ..).mp hstep
  obtain ⟨hcalls, hstored, hscripts⟩ := of_decide_eq_true ht
  refine ⟨⟨s, t, hrun, hs, hcalls, hstored, hscripts⟩, ?_⟩
  intro htrue
  have hresolved : (⟨[97], .finished (.registered (scriptId [97]))⟩ : Call) ∈ t.calls := by
    rw [hcalls]
    exact List.mem_cons_of_mem _ (List.mem_cons_self ..)
  obtain ⟨happroved, -⟩ := (htrue.at hrun t hs).1 _ hresolved rfl
  rw [Manager.getApprovedDomains, hstored] at happroved
  cases happroved

/-- The same calls, of which the first is refused the storage and the second comes later. -/
def retried : List Event :=
  [.registerForDomain none, .hashed 0, .got 0, .registered 0 .succeeds 0, .storageFailed 0,
    .cleanup 0, .registerForDomain none, .registerForDomain none, .hashed 1, .hashed 2, .got 1,
    .registered 1 .alreadyRegistered 5, .set 1, .cleanup 1, .released 2]

theorem retried_calls_are_truthful :
    (∃ t, Machine.Run (step [97]) {} retried t) ∧
      Machine.Throughout (step [97]) (Truthful [97]) {} retried := by
  have hexec : (Machine.exec (step [97]) {} retried).isSome = true := by decide +kernel
  obtain ⟨t, hrun⟩ := Machine.exists_run_of_exec hexec
  exact ⟨⟨t, hrun⟩, (truthful_iff_backed hrun).mpr (by decide +kernel)⟩

end SmartIdVault.ContentScripts.SameDomain
