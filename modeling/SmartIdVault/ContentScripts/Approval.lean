import SmartIdVault.ContentScripts.Reports

/-! Whose approval a page acts on.  A check is passed only if the background has found the domain of
the page in the list of the approved ones, and a domain is in that list, or in one that a call of
the manager has read, only if it has been registered. -/

namespace SmartIdVault.ContentScripts

open Domain (Platform)

/-! ### Where the approved domains come from -/

def Event.registers : Event → Option Utf16
  | .registerForDomain domain _ => some domain
  | _ => none

/-- A call knows of no other domains than the `asked` ones. -/
def Call.Sourced (asked : Utf16 → Prop) (c : Call) : Prop :=
  match c.stage with
  | .hashing _ | .waiting _ | .readingToRegister _ => asked c.domain
  | .registering _ existing | .adding existing _ =>
    asked c.domain ∧ ∀ a ∈ existing, asked a.domain
  | .unregistering existing _ | .removing existing _ => ∀ a ∈ existing, asked a.domain
  | .settled _ | .readingToUnregister | .finished _ => True

structure Manager.Sourced (asked : Utf16 → Prop) (s : Manager) : Prop where
  stored : ∀ a ∈ s.getApprovedDomains, asked a.domain
  calls : ∀ c ∈ s.calls, c.Sourced asked

namespace Manager

variable {asked asked' : Utf16 → Prop} {s t : Manager} {i : Nat} {c : Call}

theorem Sourced.initial : Sourced asked {} where
  stored a ha := by cases ha
  calls c hc := by cases hc

theorem Sourced.mono (h : Sourced asked s) (himp : ∀ d, asked d → asked' d) :
    Sourced asked' s where
  stored a ha := himp _ (h.stored a ha)
  calls c hc := by
    have hc := h.calls c hc
    unfold Call.Sourced at hc ⊢
    split at hc
    · exact himp _ hc
    · exact himp _ hc
    · exact himp _ hc
    · exact ⟨himp _ hc.1, fun a ha => himp _ (hc.2 a ha)⟩
    · exact ⟨himp _ hc.1, fun a ha => himp _ (hc.2 a ha)⟩
    · exact fun a ha => himp _ (hc a ha)
    · exact fun a ha => himp _ (hc a ha)
    all_goals trivial

/-- A call goes on, and the list may be written. -/
theorem Sourced.put (h : Sourced asked s) {stage : Stage}
    (ht : t.calls = s.calls.set i { c with stage }) (hstage : Call.Sourced asked { c with stage })
    (hstored : ∀ a ∈ t.getApprovedDomains, asked a.domain) : Sourced asked t where
  stored := hstored
  calls c' hc' := by
    rw [ht] at hc'
    rcases Tasks.mem_set hc' with rfl | ⟨j, -, hj⟩
    · exact hstage
    · exact h.calls c' (List.mem_of_getElem? hj)

theorem Sourced.start (h : Sourced asked s) {domain : Utf16} {stage : Stage}
    (hstage : Call.Sourced asked { domain, stage }) : Sourced asked (s.start domain stage) where
  stored := h.stored
  calls c hc := by
    rcases List.mem_append.mp hc with hc | hc
    · exact h.calls c hc
    · exact List.mem_singleton.mp hc ▸ hstage

theorem Sourced.get (h : Sourced asked s) (hi : s.calls[i]? = some c) {stage : Stage}
    (hstage : c.stage = stage) : Call.Sourced asked { c with stage } :=
  hstage ▸ h.calls c (List.mem_of_getElem? hi)

theorem Sourced.hashed (h : Sourced asked s) (hi : s.calls[i]? = some c)
    (ht : s.hashed i c = some t) : Sourced asked t := by
  unfold Manager.hashed at ht
  split at ht
  · rename_i jsFile hstage
    have hc : asked c.domain := h.get hi hstage
    obtain rfl := Option.some.inj ht
    split
    · exact h.put rfl hc h.stored
    · exact h.put rfl hc h.stored
  · cases ht

theorem Sourced.released (h : Sourced asked s) (ht : s.released i c = some t) :
    Sourced asked t := by
  unfold Manager.released at ht
  split at ht
  · split at ht
    · obtain rfl := Option.some.inj ht
      exact h.put rfl trivial h.stored
    · cases ht
  · cases ht

theorem Sourced.got (h : Sourced asked s) (hi : s.calls[i]? = some c) (ht : s.got i c = some t) :
    Sourced asked t := by
  simp only [Manager.got] at ht
  split at ht
  · rename_i jsFile hstage
    have hc : asked c.domain := h.get hi hstage
    obtain rfl := Option.some.inj ht
    split
    · exact h.put rfl trivial h.stored
    · exact h.put rfl ⟨hc, h.stored⟩ h.stored
  · obtain rfl := Option.some.inj ht
    split
    · exact h.put rfl trivial h.stored
    · exact h.put rfl h.stored h.stored
  · cases ht

theorem Sourced.registered (h : Sourced asked s) (hi : s.calls[i]? = some c)
    {outcome : Registration} {now : Nat} (ht : s.registered i c outcome now = some t) :
    Sourced asked t := by
  unfold Manager.registered at ht
  split at ht
  · rename_i jsFile existing hstage
    have hc : asked c.domain ∧ ∀ a ∈ existing, asked a.domain := h.get hi hstage
    split at ht
    · split at ht
      · cases ht
      · obtain rfl := Option.some.inj ht
        exact h.put rfl hc h.stored
    · split at ht
      · obtain rfl := Option.some.inj ht
        exact h.put rfl hc h.stored
      · cases ht
    · obtain rfl := Option.some.inj ht
      exact h.put rfl trivial h.stored
  · cases ht

theorem Sourced.unregistered (h : Sourced asked s) (hi : s.calls[i]? = some c) {ok : Bool}
    (ht : s.unregistered i c ok = some t) : Sourced asked t := by
  unfold Manager.unregistered at ht
  split at ht
  · rename_i existing entry hstage
    have hc : ∀ a ∈ existing, asked a.domain := h.get hi hstage
    obtain rfl := Option.some.inj ht
    split <;> exact h.put rfl hc h.stored
  · cases ht

/-- What a call writes is what it has read, with its own domain or without it. -/
theorem Sourced.set (h : Sourced asked s) (hi : s.calls[i]? = some c) (ht : s.set i c = some t) :
    Sourced asked t := by
  unfold Manager.set at ht
  split at ht
  · rename_i existing registeredAt hstage
    have hc : asked c.domain ∧ ∀ a ∈ existing, asked a.domain := h.get hi hstage
    obtain rfl := Option.some.inj ht
    refine h.put rfl trivial fun a ha => ?_
    rcases List.mem_append.mp ha with ha | ha
    · exact hc.2 a ha
    · exact List.mem_singleton.mp ha ▸ hc.1
  · rename_i existing entry hstage
    have hc : ∀ a ∈ existing, asked a.domain := h.get hi hstage
    obtain rfl := Option.some.inj ht
    refine h.put rfl trivial fun a ha => ?_
    exact hc a (List.mem_of_mem_filter ha)
  · cases ht

theorem Sourced.cleanup (h : Sourced asked s) (ht : s.cleanup i c = some t) :
    Sourced asked t := by
  unfold Manager.cleanup at ht
  split at ht
  · rename_i result _
    obtain rfl := Option.some.inj ht
    exact h.put rfl trivial h.stored
  · cases ht

theorem Sourced.step {e : Event} (h : Sourced asked s) (hs : s.step e = some t)
    (hasked : ∀ d, e.registers = some d → asked d) : Sourced asked t := by
  cases e with
  | registerForDomain domain jsFile =>
    obtain rfl := Option.some.inj hs
    exact h.start (hasked domain rfl)
  | unregisterForDomain domain =>
    obtain rfl := Option.some.inj hs
    exact h.start trivial
  | hashed i =>
    obtain ⟨c, hi, ht⟩ := Option.bind_eq_some_iff.mp hs
    exact h.hashed hi ht
  | released i =>
    obtain ⟨c, hi, ht⟩ := Option.bind_eq_some_iff.mp hs
    exact h.released ht
  | got i =>
    obtain ⟨c, hi, ht⟩ := Option.bind_eq_some_iff.mp hs
    exact h.got hi ht
  | registered i outcome now =>
    obtain ⟨c, hi, ht⟩ := Option.bind_eq_some_iff.mp hs
    exact h.registered hi ht
  | unregistered i ok =>
    obtain ⟨c, hi, ht⟩ := Option.bind_eq_some_iff.mp hs
    exact h.unregistered hi ht
  | set i =>
    obtain ⟨c, hi, ht⟩ := Option.bind_eq_some_iff.mp hs
    exact h.set hi ht
  | cleanup i =>
    obtain ⟨c, hi, ht⟩ := Option.bind_eq_some_iff.mp hs
    exact h.cleanup ht

end Manager

namespace ContentPage

variable {platform : Platform} {s t : ContentPage} {es : List Event} {domain : Utf16}

/-- The domain has been registered in the course of `es`. -/
def Registered (es : List Event) (domain : Utf16) : Prop :=
  ∃ e, .background e ∈ es ∧ e.registers = some domain

/-- A check has asked about the domain, and the background has found it in the list of the approved
ones, after it had been registered. -/
def FoundApproved (platform : Platform) (es : List Event) (domain : Utf16) : Prop :=
  ∃ pre i post u, es = pre ++ .read i :: post ∧ Run platform {} pre u ∧
    u.checks[i]? = some ⟨domain, .asked⟩ ∧ domain ∈ domains u.background.getApprovedDomains ∧
    Registered pre domain

/-- The background has said yes to the check. -/
def Granted (c : ApprovalCheck) : Prop := c.stage = .answered true ∨ c.stage = .ended true

theorem Registered.append (h : Registered es domain) (es' : List Event) :
    Registered (es ++ es') domain := by
  obtain ⟨e, he, hd⟩ := h
  exact ⟨e, List.mem_append_left _ he, hd⟩

theorem FoundApproved.append (h : FoundApproved platform es domain) (e : Event) :
    FoundApproved platform (es ++ [e]) domain := by
  obtain ⟨pre, i, post, u, rfl, hu⟩ := h
  exact ⟨pre, i, post ++ [e], u, by simp, hu⟩

theorem isDomainApproved_iff {background : Manager} :
    isDomainApproved background domain = true ↔
      domain ∈ domains background.getApprovedDomains := by
  simp [isDomainApproved, domains]

/-- After `es`: what the manager knows of has been registered, and what checks have been granted
has been found. -/
structure Backed (platform : Platform) (es : List Event) (s : ContentPage) : Prop where
  run : Run platform {} es s
  sourced : s.background.Sourced (Registered es)
  granted : ∀ c ∈ s.checks, Granted c → FoundApproved platform es c.domain

theorem Backed.initial : Backed platform [] {} where
  run := .nil _
  sourced := .initial
  granted c hc := by cases hc

/-- A step that leaves the manager alone, and grants no check that has not been granted before. -/
theorem Backed.keep {e : Event} (h : Backed platform es s) (hs : step platform s e = some t)
    (hb : t.background = s.background)
    (hc : ∀ c ∈ t.checks, Granted c → FoundApproved platform (es ++ [e]) c.domain) :
    Backed platform (es ++ [e]) t where
  run := h.run.append (.single hs)
  sourced := hb ▸ h.sourced.mono fun _ hd => hd.append [e]
  granted := hc

theorem background_emitLoginForm (s : ContentPage) (form : Option LoginFormDetection) :
    (s.emitLoginForm form).background = s.background ∧
      (s.emitLoginForm form).checks = s.checks := by
  cases form <;> exact ⟨rfl, rfl⟩

theorem background_fire (s : ContentPage) (form : Option LoginFormDetection)
    (result : Transaction.DetectResult) (timer : Timer) :
    (s.fire form result timer).background = s.background ∧
      (s.fire form result timer).checks = s.checks := by
  have once (s : ContentPage) : (s.emitLoginFormOnce form).background = s.background ∧
      (s.emitLoginFormOnce form).checks = s.checks := by
    unfold emitLoginFormOnce
    split
    · exact ⟨rfl, rfl⟩
    · exact background_emitLoginForm s form
  cases timer with
  | reportDomainTransaction =>
    simp only [fire, reportDomainTransaction]
    split <;> exact ⟨rfl, rfl⟩
  | emitLoginForm => exact once s
  | giveUpOnApproval =>
    simp only [fire]
    split
    · exact ⟨rfl, rfl⟩
    · exact once _

theorem Backed.step {e : Event} (h : Backed platform es s)
    (hs : ContentPage.step platform s e = some t) : Backed platform (es ++ [e]) t := by
  have hold : ∀ c ∈ s.checks, Granted c → FoundApproved platform (es ++ [e]) c.domain :=
    fun c hc hg => (h.granted c hc hg).append e
  have hnew {d : Utf16} : ∀ c ∈ s.checks ++ [⟨d, .asked⟩], Granted c →
      FoundApproved platform (es ++ [e]) c.domain := by
    intro c hc hg
    rcases List.mem_append.mp hc with hc | hc
    · exact hold c hc hg
    · obtain rfl := List.mem_singleton.mp hc
      rcases hg with hg | hg <;> cases hg
  cases step_effect hs with
  | ignored => exact h.keep hs rfl hold
  | started => exact h.keep hs rfl hnew
  | scheduled => exact h.keep hs rfl hold
  | unchecked => exact h.keep hs rfl hold
  | debounced form =>
    obtain ⟨hb, hc⟩ := background_emitLoginForm { s with loginDebounceTimer := false } form
    exact h.keep hs hb (by rw [hc]; exact hold)
  | fired k form result timer =>
    obtain ⟨hb, hc⟩ := background_fire { s with timers := s.timers.eraseIdx k } form result timer
    exact h.keep hs hb (by rw [hc]; exact hold)
  | read i domain hi =>
    refine h.keep hs rfl fun c hc hg => ?_
    rcases Tasks.mem_set hc with rfl | ⟨j, -, hj⟩
    · have hyes : isDomainApproved s.background domain = true := by
        rcases hg with hg | hg
        · exact CheckStage.answered.inj hg
        · cases hg
      have hmem := isDomainApproved_iff.mp hyes
      obtain ⟨a, ha, hdomain⟩ := List.mem_map.mp hmem
      exact ⟨es, i, [], s, rfl, h.run, hi, hmem, hdomain ▸ h.sourced.stored a ha⟩
    · exact hold c (List.mem_of_getElem? hj) hg
  | ended _ i c approved hi hopen hyes =>
    refine h.keep hs rfl fun c' hc' hg => ?_
    rcases Tasks.mem_set hc' with rfl | ⟨j, -, hj⟩
    · have happroved : approved = true := by
        rcases hg with hg | hg
        · cases hg
        · exact CheckStage.ended.inj hg
      exact hold c (List.mem_of_getElem? hi) (.inl (hyes happroved))
    · exact hold c' (List.mem_of_getElem? hj) hg
  | changed => exact h.keep hs rfl hnew
  | invalidated => exact h.keep hs rfl hold
  | background e b hb =>
    refine ⟨h.run.append (.single hs), ?_, hold⟩
    refine (h.sourced.mono fun _ hd => hd.append _).step hb fun d hd => ?_
    exact ⟨e, List.mem_append_right _ (List.mem_singleton_self _), hd⟩

/-- In every run, whatever order the page, its timers and the calls of the manager in the background
come in, the checks of a page are those of the locations it has reported; a check is passed only if
the background has found its domain approved while the page was asking, after a call to register
it; and no login form goes out for credentials before a check is passed, nor more transactions than
checks have been. -/
theorem reports_approved (hrun : Run platform {} es t) :
    t.checks.map (·.domain) = t.sent.filterMap (PageMessage.asksAbout platform) ∧
      (∀ c ∈ t.checks, c.passed = true → FoundApproved platform es c.domain) ∧
      (∀ d, .detectLoginForm d ∈ t.sent → ∃ c ∈ t.checks, c.passed = true) ∧
      t.sent.countP PageMessage.isTransaction ≤ t.checks.countP ApprovalCheck.passed := by
  have hinv : Inv platform t := hrun.invariant_all .initial fun _ _ _ h hs => h.step hs
  have hbacked : Backed platform es t :=
    hrun.history .initial fun _ _ _ _ _ _ h hs => h.step hs
  refine ⟨hinv.asked, fun c hc hpassed => ?_, hinv.reports, ?_⟩
  · exact hbacked.granted c hc (.inr (eq_of_beq hpassed))
  · exact (Nat.le_add_right _ _).trans hinv.transactions

/-- The user's registration of a bank, and a page of it that is loaded afterwards. -/
def approvedBank : List Event :=
  [.background (.registerForDomain (Utf16.ofString "lhv.ee") none), .background (.hashed 0),
    .background (.got 0), .background (.registered 0 .succeeds 0), .background (.set 0),
    .main [1], .read 0, .answered 0, .fired 2 (some sampleForm) ⟨false, none, none, none⟩]

theorem reports_approved_bank :
    ∃ t, Run samplePlatform {} approvedBank t ∧ .detectLoginForm sampleForm ∈ t.sent ∧
      FoundApproved samplePlatform approvedBank (Utf16.ofString "lhv.ee") := by
  obtain ⟨t, hrun, hsent, hdomain⟩ : ∃ t, Run samplePlatform {} approvedBank t ∧
      .detectLoginForm sampleForm ∈ t.sent ∧
      ∀ c ∈ t.checks, c.domain = Utf16.ofString "lhv.ee" :=
    ⟨_, Machine.run_of_exec rfl, by decide +kernel, by decide +kernel⟩
  obtain ⟨-, hfound, hreports, -⟩ := reports_approved hrun
  obtain ⟨c, hc, hpassed⟩ := hreports sampleForm hsent
  exact ⟨t, hrun, hsent, hdomain c hc ▸ hfound c hc hpassed⟩

end ContentPage

end SmartIdVault.ContentScripts
