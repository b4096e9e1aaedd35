import Mathlib.Data.List.Chain
import Mathlib.Data.List.Perm.Basic
import SmartIdVault.ContentScripts.Page

/-! What a page reports.  Between two changes of the location a login form is reported at most
twice, and once at least if nothing is left to wait for and the page has shown a form whenever a
timer looked.  It is reported for credentials, and transactions are reported at all, only after a
check that found the domain in the list of the approved ones, where a registration has put it. -/

namespace SmartIdVault.ContentScripts

open Domain (Platform)

/-! ### The messages of a page -/

/-- The login forms reported since the last change of the location, after one more message. -/
def countReport (n : Nat) : PageMessage → Nat
  | .tabDomainChanged .. => 0
  | .detectLoginForm _ | .loginFormDetectedUnapproved _ => n + 1
  | .detectTransaction _ => n

def formReports (sent : List PageMessage) : Nat := sent.foldl countReport 0

def PageMessage.url : PageMessage → Option Utf16
  | .tabDomainChanged _ url => some url
  | _ => none

/-- The domain that the page asks about when it sends the message. -/
def PageMessage.asksAbout (platform : Platform) : PageMessage → Option Utf16
  | .tabDomainChanged hostname url => some (ContentPage.approvalDomain platform hostname url)
  | _ => none

def PageMessage.isTransaction : PageMessage → Bool
  | .detectTransaction _ => true
  | _ => false

@[simp] theorem formReports_concat (sent : List PageMessage) (m : PageMessage) :
    formReports (sent ++ [m]) = countReport (formReports sent) m := by
  rw [formReports, List.foldl_append]
  rfl

theorem filterMap_asksAbout_concat {platform : Platform} {m : PageMessage}
    (sent : List PageMessage) (h : m.asksAbout platform = none) :
    (sent ++ [m]).filterMap (PageMessage.asksAbout platform) =
      sent.filterMap (PageMessage.asksAbout platform) := by
  rw [List.filterMap_append, List.filterMap_cons_none h, List.filterMap_nil, List.append_nil]

/-- The check has ended with a yes. -/
def ApprovalCheck.passed (c : ApprovalCheck) : Bool := c.stage == .ended true

namespace ContentPage

theorem count_eraseIdx {α : Type} [BEq α] {l : List α} {k : Nat} {a : α} (h : l[k]? = some a)
    (b : α) : l.count b = (l.eraseIdx k).count b + if a == b then 1 else 0 := by
  obtain ⟨hk, rfl⟩ := List.getElem?_eq_some_iff.mp h
  rw [← (List.getElem_cons_eraseIdx_perm hk).count_eq b, List.count_cons]

/-! ### At most twice, and only after a yes -/

/-- Before a form has been reported none has; a debounced look may come on top of one report.  The
checks are those of the pages that were reported, and each report of a transaction belongs to a
check that was passed. -/
structure Inv (platform : Platform) (s : ContentPage) : Prop where
  unreported : s.loginFormEmitted = false → formReports s.sent = 0
  debounced : s.loginDebounceTimer = true → formReports s.sent ≤ 1
  atMostTwo : formReports s.sent ≤ 2
  asked : s.checks.map (·.domain) = s.sent.filterMap (PageMessage.asksAbout platform)
  transactions : s.sent.countP PageMessage.isTransaction + s.timers.count .reportDomainTransaction ≤
    s.checks.countP ApprovalCheck.passed
  approval : s.isApprovedDomain = true → ∃ c ∈ s.checks, c.passed = true
  reports : ∀ d, .detectLoginForm d ∈ s.sent → ∃ c ∈ s.checks, c.passed = true

variable {platform : Platform} {s t : ContentPage} {c : ApprovalCheck} {i : Nat}

theorem Inv.initial : Inv platform {} where
  unreported _ := rfl
  debounced h := by cases h
  atMostTwo := by decide
  asked := rfl
  transactions := Nat.le_refl 0
  approval h := by cases h
  reports d h := by cases h

/-- A look at the page that reports the form it finds. -/
theorem Inv.emit (h : Inv platform s) (hroom : formReports s.sent ≤ 1)
    (hdebounced : s.loginDebounceTimer = true → formReports s.sent = 0)
    (form : Option LoginFormDetection) : Inv platform (s.emitLoginForm form) := by
  cases form with
  | none => exact h
  | some detection =>
    have hcount (n : Nat) : countReport n (if s.isApprovedDomain then .detectLoginForm detection
        else .loginFormDetectedUnapproved detection) = n + 1 := by
      split <;> rfl
    refine ⟨?_, ?_, ?_, ?_, ?_, h.approval, ?_⟩
    · intro hfalse
      cases hfalse
    · intro hdeb
      show formReports (s.sent ++ [_]) ≤ 1
      rw [formReports_concat, hcount, hdebounced hdeb]
    · show formReports (s.sent ++ [_]) ≤ 2
      rw [formReports_concat, hcount]
      omega
    · have hnone : (if s.isApprovedDomain then PageMessage.detectLoginForm detection
          else .loginFormDetectedUnapproved detection).asksAbout platform = none := by
        split <;> rfl
      exact h.asked.trans (filterMap_asksAbout_concat s.sent hnone).symm
    · show (s.sent ++ [_]).countP PageMessage.isTransaction + _ ≤ _
      rw [List.countP_append]
      have hnone : [if s.isApprovedDomain then PageMessage.detectLoginForm detection
          else .loginFormDetectedUnapproved detection].countP PageMessage.isTransaction = 0 := by
        split <;> rfl
      rw [hnone, Nat.add_zero]
      exact h.transactions
    · intro d hd
      rcases List.mem_append.mp hd with hd | hd
      · exact h.reports d hd
      · cases happroved : s.isApprovedDomain with
        | true => exact h.approval happroved
        | false =>
          rw [happroved] at hd
          cases List.mem_singleton.mp hd

theorem Inv.emitOnce (h : Inv platform s) (form : Option LoginFormDetection) :
    Inv platform (s.emitLoginFormOnce form) := by
  unfold emitLoginFormOnce
  split
  · exact h
  · rename_i hemitted
    have hnone : formReports s.sent = 0 := h.unreported (by simpa using hemitted)
    exact h.emit (by omega) (fun _ => hnone) form

/-- A check that has not been passed goes on. -/
theorem countP_passed_set (hc : s.checks[i]? = some c) (hopen : c.passed = false)
    (stage : CheckStage) : (s.checks.set i ⟨c.domain, stage⟩).countP ApprovalCheck.passed =
      s.checks.countP ApprovalCheck.passed + if stage = .ended true then 1 else 0 := by
  obtain ⟨hi, hget⟩ := List.getElem?_eq_some_iff.mp hc
  rw [List.countP_set hi, hget, hopen]
  simp [ApprovalCheck.passed]

theorem map_domain_set (hc : s.checks[i]? = some c) (stage : CheckStage) :
    (s.checks.set i ⟨c.domain, stage⟩).map (·.domain) = s.checks.map (·.domain) :=
  Tasks.map_set hc rfl

theorem exists_passed_set (hc : s.checks[i]? = some c) (hopen : c.passed = false)
    (stage : CheckStage) (h : ∃ x ∈ s.checks, x.passed = true) :
    ∃ x ∈ s.checks.set i ⟨c.domain, stage⟩, x.passed = true := by
  have hpos : 0 < s.checks.countP ApprovalCheck.passed := List.countP_pos_iff.mpr h
  apply List.countP_pos_iff.mp
  rw [countP_passed_set hc hopen stage]
  omega

theorem Inv.endCheck (h : Inv platform s) (hc : s.checks[i]? = some c) (hopen : c.passed = false)
    (approved : Bool) : Inv platform (s.endCheck i c approved) := by
  have hpassed := countP_passed_set hc hopen (.ended approved)
  have hstill := exists_passed_set hc hopen (.ended approved)
  refine ⟨h.unreported, h.debounced, h.atMostTwo, ?_, ?_, ?_, fun d hd => hstill (h.reports d hd)⟩
  · exact (map_domain_set hc _).trans h.asked
  · have hold := h.transactions
    show s.sent.countP PageMessage.isTransaction + (s.timers ++ (if approved then
      [Timer.reportDomainTransaction] else []) ++ [Timer.emitLoginForm]).count _ ≤
        (s.checks.set i ⟨c.domain, .ended approved⟩).countP ApprovalCheck.passed
    rw [hpassed, List.count_append, List.count_append]
    cases approved with
    | true =>
      show _ + (_ + 1 + 0) ≤ _ + 1
      omega
    | false =>
      show _ + (_ + 0 + 0) ≤ _ + 0
      omega
  · intro happroved
    obtain rfl : approved = true := happroved
    exact ⟨_, Tasks.mem_set_self hc _, rfl⟩

/-- The background has answered a check that was on its way. -/
theorem Inv.answer (h : Inv platform s) (hc : s.checks[i]? = some c) (hopen : c.passed = false)
    (approved : Bool) :
    Inv platform { s with checks := s.checks.set i ⟨c.domain, .answered approved⟩ } := by
  have hpassed := countP_passed_set hc hopen (.answered approved)
  have hstill := exists_passed_set hc hopen (.answered approved)
  refine ⟨h.unreported, h.debounced, h.atMostTwo, ?_, ?_, fun ha => hstill (h.approval ha),
    fun d hd => hstill (h.reports d hd)⟩
  · exact (map_domain_set hc _).trans h.asked
  · exact h.transactions.trans (Nat.le_of_eq hpassed.symm)

/-- The location is reported and its domain is asked about. -/
theorem Inv.changed (h : Inv platform s) {hostname href : Utf16}
    (hsent : t.sent = s.sent ++ [.tabDomainChanged hostname href])
    (hchecks : t.checks = s.checks ++ [⟨approvalDomain platform hostname href, .asked⟩])
    (htimers : t.timers.count .reportDomainTransaction = s.timers.count .reportDomainTransaction)
    (happroved : t.isApprovedDomain = s.isApprovedDomain) : Inv platform t := by
  have hcount : formReports t.sent = 0 := by
    rw [hsent, formReports_concat]
    rfl
  have hstill : (∃ x ∈ s.checks, x.passed = true) → ∃ x ∈ t.checks, x.passed = true := by
    rintro ⟨x, hx, hp⟩
    exact ⟨x, hchecks ▸ List.mem_append_left _ hx, hp⟩
  refine ⟨fun _ => hcount, fun _ => by omega, by omega, ?_, ?_, ?_, ?_⟩
  · rw [hchecks, hsent, List.map_append, List.filterMap_append, h.asked]
    rfl
  · have hold := h.transactions
    have hnew : [ApprovalCheck.mk (approvalDomain platform hostname href) .asked].countP
        ApprovalCheck.passed = 0 := rfl
    have hmessage :
        [PageMessage.tabDomainChanged hostname href].countP PageMessage.isTransaction = 0 := rfl
    rw [hchecks, hsent, List.countP_append, List.countP_append, htimers]
    omega
  · intro ha
    exact hstill (h.approval (happroved ▸ ha))
  · intro d hd
    rw [hsent] at hd
    rcases List.mem_append.mp hd with hd | hd
    · exact hstill (h.reports d hd)
    · cases List.mem_singleton.mp hd

/-- A timer has gone off, before its callback runs. -/
theorem Inv.erase (h : Inv platform s) {k : Nat} {timer : Timer} (hk : s.timers[k]? = some timer) :
    Inv platform { s with timers := s.timers.eraseIdx k } := by
  refine ⟨h.unreported, h.debounced, h.atMostTwo, h.asked, ?_, h.approval, h.reports⟩
  have hcount := count_eraseIdx hk .reportDomainTransaction
  have hold := h.transactions
  show s.sent.countP PageMessage.isTransaction + (s.timers.eraseIdx k).count _ ≤
    s.checks.countP ApprovalCheck.passed
  omega

theorem Inv.transaction (h : Inv platform s) {k : Nat}
    (hk : s.timers[k]? = some .reportDomainTransaction) (tx : Transaction.TransactionResult) :
    Inv platform { s with
      timers := s.timers.eraseIdx k
      sent := s.sent ++ [.detectTransaction tx] } := by
  have hcount := count_eraseIdx hk .reportDomainTransaction
  have hforms : formReports (s.sent ++ [.detectTransaction tx]) = formReports s.sent := by
    rw [formReports_concat]
    rfl
  refine ⟨?_, ?_, ?_, ?_, ?_, h.approval, ?_⟩
  · exact fun he => hforms ▸ h.unreported he
  · exact fun hd => hforms ▸ h.debounced hd
  · exact hforms ▸ h.atMostTwo
  · exact h.asked.trans (filterMap_asksAbout_concat s.sent rfl).symm
  · show (s.sent ++ [_]).countP PageMessage.isTransaction + (s.timers.eraseIdx k).count _ ≤
      s.checks.countP ApprovalCheck.passed
    have hold := h.transactions
    have hone : [PageMessage.detectTransaction tx].countP PageMessage.isTransaction = 1 := rfl
    rw [List.countP_append, hone]
    simp only [beq_self_eq_true, if_true] at hcount
    omega
  · intro d hd
    rcases List.mem_append.mp hd with hd | hd
    · exact h.reports d hd
    · cases List.mem_singleton.mp hd

theorem Inv.fire (h : Inv platform s) {k : Nat} {timer : Timer} (hk : s.timers[k]? = some timer)
    (form : Option LoginFormDetection) (result : Transaction.DetectResult) :
    Inv platform ({ s with timers := s.timers.eraseIdx k }.fire form result timer) := by
  cases timer with
  | reportDomainTransaction =>
    simp only [ContentPage.fire, ContentPage.reportDomainTransaction]
    split
    · exact h.transaction hk _
    · exact h.erase hk
  | emitLoginForm => exact (h.erase hk).emitOnce form
  | giveUpOnApproval =>
    simp only [ContentPage.fire]
    split
    · exact h.erase hk
    · have h := h.erase hk
      have hno : Inv platform { s with
          timers := s.timers.eraseIdx k, isApprovedDomain := false, checkedApproval := true } :=
        ⟨h.unreported, h.debounced, h.atMostTwo, h.asked, h.transactions, (fun ha => by cases ha),
          h.reports⟩
      exact hno.emitOnce form

theorem passed_eq_false (h : ∀ a, c.stage ≠ .ended a) : c.passed = false :=
  beq_eq_false_iff_ne.mpr (h true)

theorem Inv.step {e : Event} (h : Inv platform s) (hs : ContentPage.step platform s e = some t) :
    Inv platform t := by
  cases step_effect hs with
  | ignored => exact h
  | started href url hdone =>
    refine h.changed rfl rfl ?_ rfl
    show (s.timers ++ [Timer.giveUpOnApproval]).count _ = s.timers.count _
    rw [List.count_append]
    rfl
  | scheduled hemitted =>
    have hnone := h.unreported hemitted
    refine ⟨h.unreported, fun _ => ?_, h.atMostTwo, h.asked, h.transactions, h.approval, h.reports⟩
    show formReports s.sent ≤ 1
    omega
  | unchecked form hdebounced =>
    exact ⟨h.unreported, (fun hd => by cases hd), h.atMostTwo, h.asked, h.transactions, h.approval,
      h.reports⟩
  | debounced form hdebounced =>
    -- the timer that has fired is the one that allows for a second report
    have hquiet : Inv platform { s with loginDebounceTimer := false } :=
      ⟨h.unreported, (fun hd => by cases hd), h.atMostTwo, h.asked, h.transactions, h.approval,
        h.reports⟩
    exact hquiet.emit (h.debounced hdebounced) (fun hd => by cases hd) form
  | fired k form result timer hk => exact h.fire hk form result
  | read i domain hc => exact h.answer hc rfl _
  | ended _ i c approved hc hopen => exact h.endCheck hc (passed_eq_false hopen) approved
  | changed newUrl url => exact h.changed rfl rfl rfl rfl
  | invalidated =>
    exact ⟨h.unreported, (fun hd => by cases hd), h.atMostTwo, h.asked, h.transactions,
      h.approval, h.reports⟩
  | background => exact ⟨h.unreported, h.debounced, h.atMostTwo, h.asked, h.transactions,
      h.approval, h.reports⟩

/-! ### At least once -/

/-- The looks of the timers find a form. -/
def Event.findsForm : Event → Bool
  | .fired _ form _ => form.isSome
  | _ => true

/-- Nothing is left to wait for. -/
structure Quiet (s : ContentPage) : Prop where
  checks : ∀ c ∈ s.checks, ∃ a, c.stage = .ended a
  timers : s.timers = []

def pageUrls (sent : List PageMessage) : List Utf16 := sent.filterMap PageMessage.url

/-- What holds as long as the script runs: nothing has happened before `main`, and a form counts as
reported only if it has been since the last change of the location, of which the URLs differ. -/
structure Running (s : ContentPage) : Prop where
  unstarted : s.contentInitDone = false → s = { background := s.background }
  reported : s.loginFormEmitted = true → 0 < formReports s.sent
  pages : (pageUrls s.sent).IsChain (· ≠ ·)
  last : s.contentInitDone = true → (pageUrls s.sent).getLast? = some s.lastUrl

/-- A form has been reported, or a check or its timer is still to come. -/
def Pending (s : ContentPage) : Prop :=
  s.loginFormEmitted = true ∨ (∃ c ∈ s.checks, ∀ a, c.stage ≠ .ended a) ∨ .emitLoginForm ∈ s.timers

theorem pageUrls_concat (sent : List PageMessage) (m : PageMessage) :
    pageUrls (sent ++ [m]) = pageUrls sent ++ m.url.toList := by
  rw [pageUrls, List.filterMap_append, pageUrls]
  cases m <;> rfl

theorem Running.initial : Running {} where
  unstarted _ := rfl
  reported h := by cases h
  pages := .nil
  last h := by cases h

/-- A look that reports a form is one more report of the same page. -/
theorem Running.emit (h : Running s) (hdone : s.contentInitDone = true)
    (form : Option LoginFormDetection) : Running (s.emitLoginForm form) := by
  cases form with
  | none => exact h
  | some detection =>
    have hurl : (if s.isApprovedDomain then PageMessage.detectLoginForm detection
        else .loginFormDetectedUnapproved detection).url = none := by
      split <;> rfl
    have hurls := pageUrls_concat s.sent (if s.isApprovedDomain then .detectLoginForm detection
      else .loginFormDetectedUnapproved detection)
    rw [hurl, Option.toList_none, List.append_nil] at hurls
    refine ⟨fun hno => ?_, fun _ => ?_, ?_, fun _ => ?_⟩
    · exact absurd (hdone.symm.trans hno) (by decide)
    · show 0 < formReports (s.sent ++ [_])
      rw [formReports_concat]
      split <;> exact Nat.succ_pos _
    · show (pageUrls (s.sent ++ [_])).IsChain (· ≠ ·)
      rw [hurls]
      exact h.pages
    · show (pageUrls (s.sent ++ [_])).getLast? = _
      rw [hurls]
      exact h.last hdone

theorem Running.congr (h : Running s) (hdone : s.contentInitDone = true)
    (hd : t.contentInitDone = s.contentInitDone) (he : t.loginFormEmitted = s.loginFormEmitted)
    (hs : t.sent = s.sent) (hl : t.lastUrl = s.lastUrl) : Running t where
  unstarted hno := absurd (hdone.symm.trans (hd.symm.trans hno)) (by decide)
  reported hemitted := hs ▸ h.reported (he ▸ hemitted)
  pages := hs ▸ h.pages
  last _ := by rw [hs, hl]; exact h.last hdone

theorem Running.fire (h : Running s) (hdone : s.contentInitDone = true)
    (form : Option LoginFormDetection) (result : Transaction.DetectResult) (timer : Timer) :
    Running (s.fire form result timer) := by
  have once (s : ContentPage) (h : Running s) (hdone : s.contentInitDone = true) :
      Running (s.emitLoginFormOnce form) := by
    unfold emitLoginFormOnce
    split
    · exact h
    · exact h.emit hdone form
  cases timer with
  | reportDomainTransaction =>
    simp only [ContentPage.fire, ContentPage.reportDomainTransaction]
    split
    · rename_i tx _ _
      have hurls : pageUrls (s.sent ++ [.detectTransaction tx]) = pageUrls s.sent :=
        (pageUrls_concat s.sent _).trans (List.append_nil _)
      have hforms := formReports_concat s.sent (.detectTransaction tx)
      refine ⟨fun hno => absurd (hdone.symm.trans hno) (by decide), fun he => ?_, ?_, fun _ => ?_⟩
      · exact hforms ▸ h.reported he
      · exact hurls ▸ h.pages
      · exact hurls ▸ h.last hdone
    · exact h
  | emitLoginForm => exact once s h hdone
  | giveUpOnApproval =>
    simp only [ContentPage.fire]
    split
    · exact h
    · exact once _ (h.congr hdone rfl rfl rfl rfl) hdone

/-- Whatever needs the script to have started shows that it has. -/
theorem Running.done (h : Running s) (hne : s ≠ { background := s.background }) :
    s.contentInitDone = true := by
  cases hdone : s.contentInitDone with
  | true => rfl
  | false => exact absurd (h.unstarted hdone) hne

theorem Running.step {e : Event} (h : Running s) (hs : ContentPage.step platform s e = some t)
    (he : e ≠ .invalidated) : Running t := by
  cases step_effect hs with
  | ignored => exact h
  | started href url hdone =>
    have hs := h.unstarted hdone
    have hsent : s.sent = [] := by rw [hs]
    have hemitted : s.loginFormEmitted = false := by rw [hs]
    refine ⟨fun hno => (by cases hno), fun he => ?_, ?_, fun _ => ?_⟩
    · exact absurd (hemitted.symm.trans he) (by decide)
    · rw [hsent]
      exact .singleton href
    · rw [hsent]
      rfl
  | scheduled hemitted ho =>
    have hdone := h.done fun heq => by rw [heq] at ho; cases ho
    exact h.congr hdone rfl rfl rfl rfl
  | unchecked form hdebounced =>
    have hdone := h.done fun heq => by rw [heq] at hdebounced; cases hdebounced
    exact h.congr hdone rfl rfl rfl rfl
  | debounced form hdebounced =>
    have hdone := h.done fun heq => by rw [heq] at hdebounced; cases hdebounced
    have hquiet : Running { s with loginDebounceTimer := false } := h.congr hdone rfl rfl rfl rfl
    exact hquiet.emit hdone form
  | fired k form result timer hk =>
    have hdone := h.done fun heq => by rw [heq] at hk; cases hk
    have herased : Running { s with timers := s.timers.eraseIdx k } := h.congr hdone rfl rfl rfl rfl
    exact herased.fire hdone form result timer
  | read i domain hc =>
    have hdone := h.done fun heq => by rw [heq] at hc; cases hc
    exact h.congr hdone rfl rfl rfl rfl
  | ended _ i c approved hc =>
    have hdone := h.done fun heq => by rw [heq] at hc; cases hc
    exact h.congr hdone rfl rfl rfl rfl
  | changed newUrl url hne hl =>
    have hdone := h.done fun heq => by rw [heq] at hl; cases hl
    have hurls := pageUrls_concat s.sent (.tabDomainChanged url.hostname newUrl)
    refine ⟨fun hno => absurd (hdone.symm.trans hno) (by decide), (fun he => by cases he), ?_,
      fun _ => ?_⟩
    · show (pageUrls (s.sent ++ [_])).IsChain (· ≠ ·)
      rw [hurls]
      apply h.pages.append (.singleton newUrl)
      intro x hx y hy
      rw [h.last hdone, Option.mem_some_iff] at hx
      obtain rfl : newUrl = y := by simpa using hy
      rw [← hx]
      exact hne.symm
    · show (pageUrls (s.sent ++ [_])).getLast? = some newUrl
      rw [hurls]
      exact List.getLast?_concat
  | invalidated => exact absurd rfl he
  | background e b hb =>
    refine ⟨fun hno => ?_, h.reported, h.pages, h.last⟩
    rw [h.unstarted hno]

theorem Pending.emit (h : Pending s) (form : Option LoginFormDetection) :
    Pending (s.emitLoginForm form) := by
  cases form with
  | none => exact h
  | some detection => exact .inl rfl

theorem Pending.emitOnce (h : Pending s) (form : Option LoginFormDetection) :
    Pending (s.emitLoginFormOnce form) := by
  unfold emitLoginFormOnce
  split
  · exact h
  · exact h.emit form

/-- The timer after a check reports the form that it finds; the others leave what is pending. -/
theorem Pending.fire (h : Pending s) {k : Nat} {timer : Timer} (hk : s.timers[k]? = some timer)
    {form : Option LoginFormDetection} (hform : form.isSome = true)
    (result : Transaction.DetectResult) :
    Pending ({ s with timers := s.timers.eraseIdx k }.fire form result timer) := by
  have hother (hne : timer ≠ .emitLoginForm) :
      Pending { s with timers := s.timers.eraseIdx k } := by
    refine h.imp_right (.imp_right fun hmem => ?_)
    obtain ⟨j, hj⟩ := List.mem_iff_getElem?.mp hmem
    refine List.mem_eraseIdx_iff_getElem?.mpr ⟨j, ?_, hj⟩
    rintro rfl
    exact hne (Option.some.inj (hk.symm.trans hj))
  cases timer with
  | reportDomainTransaction =>
    simp only [ContentPage.fire, ContentPage.reportDomainTransaction]
    split <;> exact hother (by decide)
  | emitLoginForm =>
    obtain ⟨detection, rfl⟩ := Option.isSome_iff_exists.mp hform
    simp only [ContentPage.fire, emitLoginFormOnce]
    split
    · rename_i hemitted
      exact .inl hemitted
    · exact .inl rfl
  | giveUpOnApproval =>
    simp only [ContentPage.fire]
    split
    · exact hother (by decide)
    · have h := hother (by decide)
      have hno : Pending { s with
          timers := s.timers.eraseIdx k, isApprovedDomain := false, checkedApproval := true } := h
      exact hno.emitOnce form

theorem Pending.step {e : Event} (h : s.contentInitDone = true → Pending s)
    (hr : Running s) (hs : ContentPage.step platform s e = some t) (he : e ≠ .invalidated)
    (hform : e.findsForm = true) (hdone : t.contentInitDone = true) : Pending t := by
  cases step_effect hs with
  | ignored => exact h hdone
  | started href url =>
    refine .inr (.inl ⟨_, List.mem_append_right _ (List.mem_singleton_self _), fun a ha => ?_⟩)
    cases ha
  | scheduled => exact h hdone
  | unchecked => exact h hdone
  | debounced form =>
    have hpending : Pending { s with loginDebounceTimer := false } := by
      apply h
      cases form <;> exact hdone
    exact hpending.emit form
  | fired k form result timer hk =>
    exact (h (hr.done fun heq => by rw [heq] at hk; cases hk)).fire hk hform result
  | read i domain hc =>
    refine (h hdone).imp_right (.imp_left ?_)
    rintro ⟨c, hmem, hopen⟩
    obtain ⟨j, hj⟩ := List.mem_iff_getElem?.mp hmem
    by_cases hji : j = i
    · exact ⟨_, Tasks.mem_set_self hc _, fun a ha => by cases ha⟩
    · exact ⟨c, Tasks.mem_set_of_ne hji hj, hopen⟩
  | ended _ i c approved =>
    exact .inr (.inr (List.mem_append_right _ (List.mem_singleton_self _)))
  | changed newUrl url =>
    refine .inr (.inl ⟨_, List.mem_append_right _ (List.mem_singleton_self _), fun a ha => ?_⟩)
    cases ha
  | invalidated => exact absurd rfl he
  | background => exact h hdone

/-- In every run, whatever order the answers, the timers, the changes of the page and of its
location come in, a login form is reported at most twice between two changes of the location.  As
long as the script is not cut off, the locations that it reports differ from one to the next, and
when nothing is left to wait for, the form has been reported if the timers have found one. -/
theorem form_reported {es : List Event} (hrun : Run platform {} es t) :
    formReports t.sent ≤ 2 ∧
      ((∀ e ∈ es, e ≠ .invalidated) → (pageUrls t.sent).IsChain (· ≠ ·) ∧
        ((∀ e ∈ es, e.findsForm = true) → t.contentInitDone = true → t.Quiet →
          0 < formReports t.sent)) := by
  have hinv : Inv platform t := hrun.invariant_all .initial fun _ _ _ h hs => h.step hs
  refine ⟨hinv.atMostTwo, fun hon => ?_⟩
  have hrunning : Running t := hrun.invariant (I := Running) .initial
    (Machine.throughout_of_forall fun _ => hon) fun _ _ _ h he hs => h.step hs he
  refine ⟨hrunning.pages, fun hfinds hdone hquiet => hrunning.reported ?_⟩
  have hpending : Running t ∧ (t.contentInitDone = true → Pending t) := by
    refine hrun.invariant (I := fun s => Running s ∧ (s.contentInitDone = true → Pending s))
      (G := fun _ e => e ≠ .invalidated ∧ e.findsForm = true)
      ⟨.initial, fun hdone => by cases hdone⟩
      (Machine.throughout_of_forall fun _ e he => ⟨hon e he, hfinds e he⟩) ?_
    rintro s e t ⟨hr, hp⟩ ⟨he, hform⟩ hs
    exact ⟨hr.step hs he, fun hdone => .step hp hr hs he hform hdone⟩
  rcases hpending.2 hdone with hemitted | ⟨c, hc, hopen⟩ | htimer
  · exact hemitted
  · obtain ⟨a, ha⟩ := hquiet.checks c hc
    exact absurd ha (hopen a)
  · rw [hquiet.timers] at htimer
    cases htimer

def samplePlatform : Platform where
  parseUrl _ := some ⟨Utf16.ofString "https:", Utf16.ofString "www.lhv.ee"⟩
  dev := false

def sampleForm : LoginFormDetection := ⟨[1], [2], [3], [4]⟩

/-- The page changes before the check has ended, and again it is looked at after that. -/
def reportedTwice : List Event :=
  [.main [1], .mutation true, .failed 0, .fired 1 (some sampleForm) ⟨false, none, none, none⟩,
    .fired 0 (some sampleForm) ⟨false, none, none, none⟩, .debounced (some sampleForm)]

theorem form_reported_twice :
    ∃ t, Run samplePlatform {} reportedTwice t ∧ formReports t.sent = 2 := by
  obtain ⟨t, hrun, htwo⟩ : ∃ t, Run samplePlatform {} reportedTwice t ∧
      2 ≤ formReports t.sent := ⟨_, Machine.run_of_exec rfl, by decide⟩
  exact ⟨t, hrun, Nat.le_antisymm (form_reported hrun).1 htwo⟩

end ContentPage

end SmartIdVault.ContentScripts
