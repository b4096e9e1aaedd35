import SmartIdVault.ContentScripts.Manager
import SmartIdVault.Domain.Parser
import SmartIdVault.Transaction.Detection

/-! The content script of a page, `entrypoints/content/index.ts`.  It asks the background whether
the page's domain is approved, looks for a login form when a timer fires or the page has changed,
and asks anew when the location changes.  The answers, the timers, the observer of the page and the
calls of the manager in the background come in any order; what the page holds when it is looked at
comes with the event. -/

namespace SmartIdVault.ContentScripts

open Domain (Platform parseDomain)
open Transaction (TransactionResult DetectResult)

structure LoginFormDetection where
  domain : Utf16
  url : Utf16
  usernameSelector : Utf16
  passwordSelector : Utf16
  deriving DecidableEq

/-- What a page sends, apart from the questions of `checkDynamicApproval`. -/
inductive PageMessage where
  | tabDomainChanged (domain url : Utf16)
  | detectLoginForm (detection : LoginFormDetection)
  | loginFormDetectedUnapproved (detection : LoginFormDetection)
  | detectTransaction (transaction : TransactionResult)
  deriving DecidableEq

/-- Where a check stands: the question is on its way, or the answer, or the race of the two with the
time limit has ended. -/
inductive CheckStage where
  | asked
  | answered (approved : Bool)
  | ended (approved : Bool)
  deriving DecidableEq

structure ApprovalCheck where
  domain : Utf16
  stage : CheckStage
  deriving DecidableEq

/-- The timers that nothing clears: those of 1000 and 1500 ms after a check, and that of 2000 ms
after the start. -/
inductive Timer where
  | reportDomainTransaction
  | emitLoginForm
  | giveUpOnApproval
  deriving DecidableEq

/-- The variables of the module and of `main`, whether the listener for the location is there, and
what has been sent; and the manager in the background. -/
structure ContentPage where
  loginFormEmitted : Bool := false
  loginDebounceTimer : Bool := false
  observer : Bool := false
  contentInitDone : Bool := false
  checkedApproval : Bool := false
  isApprovedDomain : Bool := false
  lastUrl : Utf16 := []
  listening : Bool := false
  checks : List ApprovalCheck := []
  timers : List Timer := []
  sent : List PageMessage := []
  background : Manager := {}
  deriving DecidableEq

namespace ContentPage

/-- `read` is the answer of 'check-domain-approved', `failed` a check that is rejected or that runs
out of time. -/
inductive Event where
  | main (href : Utf16)
  | mutation (passwordAdded : Bool)
  | debounced (form : Option LoginFormDetection)
  | fired (k : Nat) (form : Option LoginFormDetection) (result : DetectResult)
  | read (i : Nat)
  | answered (i : Nat)
  | failed (i : Nat)
  | locationChanged (newUrl : Utf16)
  | invalidated
  | background (e : ContentScripts.Event)

def isDomainApproved (background : Manager) (domain : Utf16) : Bool :=
  background.getApprovedDomains.any (·.domain == domain)

def send (s : ContentPage) (m : PageMessage) : ContentPage := { s with sent := s.sent ++ [m] }

def checkDynamicApproval (s : ContentPage) (domain : Utf16) : ContentPage :=
  { s with checks := s.checks ++ [{ domain, stage := .asked }] }

/-- What follows a check. -/
def approvalChecked (s : ContentPage) (approved : Bool) : ContentPage :=
  { s with
    checkedApproval := true
    isApprovedDomain := approved
    timers := s.timers ++ (if approved then [.reportDomainTransaction] else []) ++
      [.emitLoginForm] }

def endCheck (s : ContentPage) (i : Nat) (c : ApprovalCheck) (approved : Bool) : ContentPage :=
  { s with checks := s.checks.set i { c with stage := .ended approved } }.approvalChecked approved

def emitLoginForm (s : ContentPage) : Option LoginFormDetection → ContentPage
  | none => s
  | some detection =>
    { s with loginFormEmitted := true }.send
      (if s.isApprovedDomain then .detectLoginForm detection
        else .loginFormDetectedUnapproved detection)

def emitLoginFormOnce (s : ContentPage) (form : Option LoginFormDetection) : ContentPage :=
  if s.loginFormEmitted then s else s.emitLoginForm form

def scheduleLoginDetection (s : ContentPage) : ContentPage := { s with loginDebounceTimer := true }

def reportDomainTransaction (s : ContentPage) (result : DetectResult) : ContentPage :=
  match result.success, result.transaction with
  | true, some transaction => s.send (.detectTransaction transaction)
  | _, _ => s

def fire (s : ContentPage) (form : Option LoginFormDetection) (result : DetectResult) :
    Timer → ContentPage
  | .reportDomainTransaction => s.reportDomainTransaction result
  | .emitLoginForm => s.emitLoginFormOnce form
  | .giveUpOnApproval =>
    if s.checkedApproval then s
    else { s with isApprovedDomain := false, checkedApproval := true }.emitLoginFormOnce form

/-- The domain that is asked about at a location: `parsed.data.registrableDomain`, or the host name
where `parseDomain` refuses the URL. -/
def approvalDomain (platform : Platform) (hostname href : Utf16) : Utf16 :=
  match parseDomain platform href with
  | .ok data => data.registrableDomain
  | .error _ => hostname

/-- `main`, on a page with host name `hostname`. -/
def main (platform : Platform) (s : ContentPage) (hostname href : Utf16) : ContentPage :=
  if s.contentInitDone then s
  else
    let s := { s with contentInitDone := true }.send (.tabDomainChanged hostname href)
    let s := s.checkDynamicApproval (approvalDomain platform hostname href)
    { s with
      timers := s.timers ++ [.giveUpOnApproval]
      observer := true
      lastUrl := href
      listening := true }

/-- The listener of 'wxt:locationchange'. -/
def locationChanged (platform : Platform) (s : ContentPage) (hostname newUrl : Utf16) :
    ContentPage :=
  if newUrl = s.lastUrl then s
  else
    let s := { s with lastUrl := newUrl, loginFormEmitted := false }.send
      (.tabDomainChanged hostname newUrl)
    { s with checkedApproval := false }.checkDynamicApproval
      (approvalDomain platform hostname newUrl)

/-- A location is a URL, so `new URL` does not throw on it. -/
def step (platform : Platform) (s : ContentPage) : Event → Option ContentPage
  | .main href => (platform.parseUrl href).map fun url => s.main platform url.hostname href
  | .mutation passwordAdded =>
    if s.observer then
      some (if !s.loginFormEmitted && passwordAdded then s.scheduleLoginDetection else s)
    else none
  | .debounced form =>
    if s.loginDebounceTimer then
      let s := { s with loginDebounceTimer := false }
      some (if s.checkedApproval then s.emitLoginForm form else s)
    else none
  | .fired k form result =>
    s.timers[k]?.map fun timer => { s with timers := s.timers.eraseIdx k }.fire form result timer
  | .read i =>
    match s.checks[i]? with
    | some ⟨domain, .asked⟩ =>
      some { s with
        checks := s.checks.set i ⟨domain, .answered (isDomainApproved s.background domain)⟩ }
    | _ => none
  | .answered i =>
    match s.checks[i]? with
    | some ⟨domain, .answered approved⟩ => some (s.endCheck i ⟨domain, .answered approved⟩ approved)
    | _ => none
  | .failed i =>
    match s.checks[i]? with
    | some ⟨_, .ended _⟩ | none => none
    | some c => some (s.endCheck i c false)
  | .locationChanged newUrl =>
    (platform.parseUrl newUrl).bind fun url =>
      if s.listening then some (s.locationChanged platform url.hostname newUrl) else none
  | .invalidated =>
    if s.contentInitDone then
      some { s with
        observer := false
        loginDebounceTimer := false
        contentInitDone := false
        listening := false }
    else none
  | .background e => (s.background.step e).map fun background => { s with background }

abbrev Run (platform : Platform) (s : ContentPage) (es : List Event) (t : ContentPage) : Prop :=
  Machine.Run (step platform) s es t

/-! ### What a step does -/

/-- What the events do that change anything.  A check ends with a yes only if that is the answer of
the background. -/
inductive Effect (platform : Platform) (s : ContentPage) : Event → ContentPage → Prop
  | ignored (e : Event) : Effect platform s e s
  | started (href : Utf16) (url : Domain.Url) (h : s.contentInitDone = false) :
      Effect platform s (.main href)
        { s with
          contentInitDone := true
          sent := s.sent ++ [.tabDomainChanged url.hostname href]
          checks := s.checks ++ [⟨approvalDomain platform url.hostname href, .asked⟩]
          timers := s.timers ++ [.giveUpOnApproval]
          observer := true, lastUrl := href, listening := true }
  | scheduled (h : s.loginFormEmitted = false) (ho : s.observer = true) :
      Effect platform s (.mutation true) { s with loginDebounceTimer := true }
  | unchecked (form : Option LoginFormDetection) (h : s.loginDebounceTimer = true) :
      Effect platform s (.debounced form) { s with loginDebounceTimer := false }
  | debounced (form : Option LoginFormDetection) (h : s.loginDebounceTimer = true) :
      Effect platform s (.debounced form)
        ({ s with loginDebounceTimer := false }.emitLoginForm form)
  | fired (k : Nat) (form : Option LoginFormDetection) (result : DetectResult) (timer : Timer)
      (h : s.timers[k]? = some timer) :
      Effect platform s (.fired k form result)
        ({ s with timers := s.timers.eraseIdx k }.fire form result timer)
  | read (i : Nat) (domain : Utf16) (h : s.checks[i]? = some ⟨domain, .asked⟩) :
      Effect platform s (.read i)
        { s with
          checks := s.checks.set i ⟨domain, .answered (isDomainApproved s.background domain)⟩ }
  | ended (e : Event) (i : Nat) (c : ApprovalCheck) (approved : Bool)
      (h : s.checks[i]? = some c) (hopen : ∀ a, c.stage ≠ .ended a)
      (hyes : approved = true → c.stage = .answered true) :
      Effect platform s e (s.endCheck i c approved)
  | changed (newUrl : Utf16) (url : Domain.Url) (h : newUrl ≠ s.lastUrl) (hl : s.listening = true) :
      Effect platform s (.locationChanged newUrl)
        { s with
          lastUrl := newUrl, loginFormEmitted := false, checkedApproval := false
          sent := s.sent ++ [.tabDomainChanged url.hostname newUrl]
          checks := s.checks ++ [⟨approvalDomain platform url.hostname newUrl, .asked⟩] }
  | invalidated :
      Effect platform s .invalidated
        { s with
          observer := false, loginDebounceTimer := false, contentInitDone := false
          listening := false }
  | background (e : ContentScripts.Event) (b : Manager) (h : s.background.step e = some b) :
      Effect platform s (.background e) { s with background := b }

theorem step_effect {platform : Platform} {s t : ContentPage} {e : Event}
    (hs : step platform s e = some t) : Effect platform s e t := by
  cases e with
  | main href =>
    obtain ⟨url, -, rfl⟩ := Option.map_eq_some_iff.mp hs
    unfold main
    split
    · exact .ignored _
    · rename_i hdone
      exact .started href url (by simpa using hdone)
  | mutation passwordAdded =>
    simp only [step] at hs
    split at hs
    · rename_i hobserver
      obtain rfl := Option.some.inj hs
      split
      · rename_i hnew
        obtain ⟨hemitted, rfl⟩ : s.loginFormEmitted = false ∧ passwordAdded = true := by
          simpa using hnew
        exact .scheduled hemitted hobserver
      · exact .ignored _
    · cases hs
  | debounced form =>
    simp only [step] at hs
    split at hs
    · rename_i hdebounced
      obtain rfl := Option.some.inj hs
      split
      · exact .debounced form hdebounced
      · exact .unchecked form hdebounced
    · cases hs
  | fired k form result =>
    obtain ⟨timer, hk, rfl⟩ := Option.map_eq_some_iff.mp hs
    exact .fired k form result timer hk
  | read i =>
    simp only [step] at hs
    split at hs
    · rename_i domain hc
      obtain rfl := Option.some.inj hs
      exact .read i domain hc
    · cases hs
  | answered i =>
    simp only [step] at hs
    split at hs
    · rename_i domain approved hc
      obtain rfl := Option.some.inj hs
      refine .ended _ i _ approved hc (fun a => by simp) fun hyes => ?_
      rw [hyes]
    · cases hs
  | failed i =>
    simp only [step] at hs
    split at hs
    · cases hs
    · cases hs
    · rename_i c hopen hc
      obtain rfl := Option.some.inj hs
      refine .ended _ i c false hc (fun a ha => ?_) (fun hyes => by cases hyes)
      exact hopen c.domain a (by rw [← ha])
  | locationChanged newUrl =>
    obtain ⟨url, -, hs⟩ := Option.bind_eq_some_iff.mp hs
    split at hs
    · rename_i hlistening
      obtain rfl := Option.some.inj hs
      unfold locationChanged
      split
      · exact .ignored _
      · rename_i hne
        exact .changed newUrl url hne hlistening
    · cases hs
  | invalidated =>
    simp only [step] at hs
    split at hs
    · obtain rfl := Option.some.inj hs
      exact .invalidated
    · cases hs
  | background e =>
    obtain ⟨b, hb, rfl⟩ := Option.map_eq_some_iff.mp hs
    exact .background e b hb

end ContentPage

end SmartIdVault.ContentScripts
