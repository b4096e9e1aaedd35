import SmartIdVault.Attestation.Lock
import SmartIdVault.Domain.Parser
import SmartIdVault.Lib.Tasks

/-! The attestation status of `entrypoints/background/attestationManager.ts`: a response of a
relying party with an attestation header has its tab asked for the code in the page, waits for the
lock, has the header verified, and then sets the status.  Responses, answers of tabs, refreshes of
the keys and the steps of the verifier interleave.  The demo mode is left out. -/

namespace SmartIdVault.Attestation

open Utf16 (ofString)

/-! ### What a response says -/

def bundledKey (domain keyId publicKeyHex notBefore notAfter : String) : TrustedRpSigningKey where
  domain := ofString domain
  keyId := ofString keyId
  publicKeyHex := ofString publicKeyHex
  notBefore := ofString notBefore
  notAfter := ofString notAfter

/-- The keys of `trusted-rp-keys.json`. -/
def bundledKeys : List TrustedRpSigningKey := [
  bundledKey "lhv.ee" "lhv-2026q1"
    ("0430ea585698203ec224270620005117658f4a567438a842d336b7edf0821b8602" ++
      "a0379f423d232aa0158ee6c8c06f18c6a083a507be31a21b13df2a2af86bd03b")
    "2025-06-01T00:00:00Z" "2027-01-01T00:00:00Z",
  bundledKey "lhv.ee" "lhv-2026q2"
    ("04b8ed46f6a4d9906a456189b6c90515ced1944df8a9c10ca0e55d03159245a55c" ++
      "ccf64c249486b07d4f9ce79fdcd39ec6d9b572f3886a14416797bafb249b4367")
    "2026-01-01T00:00:00Z" "2027-06-01T00:00:00Z",
  bundledKey "swedbank.ee" "swed-2026q1"
    ("043537574540d492b1f4c64815a9f44ad14f3dc6603f16b0898c5ab92ac6e59c79" ++
      "933aa154b135becc66f90a6b4a871961cdbe56962a212a2a75a9e18b1733f583")
    "2025-06-01T00:00:00Z" "2027-01-01T00:00:00Z",
  bundledKey "swedbank.ee" "swed-2026q2"
    ("04219b7e7f04e65941a5aaa0b4b022f1cabf55f1fd575902f1ec18af920717ee92" ++
      "a0fa72b8078a64a63ffbdbba66bc4c3939bcb9bb7e2e51e4820638021b15ddc2")
    "2026-01-01T00:00:00Z" "2027-06-01T00:00:00Z",
  bundledKey "seb.ee" "seb-2026q1"
    ("041aa14d1f963bd1263681a802de3f9e4130ca8033cabd74ff5a9522aeb7cedf47" ++
      "49fc6810a375c52eb5c8fd63016ffe2b6a2226db9230d5deccfc20a555a6dc5d")
    "2025-06-01T00:00:00Z" "2027-01-01T00:00:00Z",
  bundledKey "seb.ee" "seb-2026q2"
    ("041221d1ba0e1e4941a8da79525123e76177273607b3641319cb3de206b0826c76" ++
      "4321cfb61cfc74c4e7fa5587f7b20d0aaeb5faa5b680b277284f618e46b79b0d")
    "2026-01-01T00:00:00Z" "2027-06-01T00:00:00Z",
  bundledKey "tara.ria.ee" "tara-2026q1"
    ("04d8a39222eb15d6453958cbc44f58d02fd2b7ea2ce76e5edd42bc788195f0b76c" ++
      "16d2ba3ef416a949728822db70f7c889b31be937385bed0bcd0c8f65284099e6")
    "2025-06-01T00:00:00Z" "2027-01-01T00:00:00Z",
  bundledKey "tara.ria.ee" "tara-2026q2"
    ("0475a8cc4ddf82ff3f841901f219444a66f242c4ffc3a26c68fe31dc3d449b6744" ++
      "1227ece92be063c1e9ab5c6d586031354b3c7b9a7e3e2c8307b952ab7860ffbd")
    "2026-01-01T00:00:00Z" "2027-06-01T00:00:00Z"]

/-- A response, as far as `handleHeadersReceived` looks at it; the names of its headers are
ASCII. -/
structure ResponseDetails where
  responseHeaders : Option (List (Utf16 × Option Utf16))
  url : Utf16
  tabId : Int

/-- How `browser.tabs.sendMessage` ends, or the timeout before it does. -/
inductive TabReply
  | rejected
  | resolved (success : Bool) (controlCode : Option Utf16)

/-- `getDomCode`. -/
def TabReply.domCode : TabReply → Option Utf16
  | .rejected => none
  | .resolved success controlCode => if success then controlCode.filter (· ≠ []) else none

/-- The host is the domain or a subdomain of it. -/
def IsHostOf (hostname domain : Utf16) : Prop :=
  hostname = domain ∨ (Domain.dot :: domain).isSuffixOf hostname = true

instance (hostname domain : Utf16) : Decidable (IsHostOf hostname domain) :=
  inferInstanceAs (Decidable (_ ∨ _))

section

variable {κ : Type} (subtle : Subtle κ) (date : DateParser)
  (parseUrl : Utf16 → Option Domain.Url)

def extractRpDomain (url : Utf16) : Option Utf16 :=
  (parseUrl url).bind fun parsed => whitelistedRpDomains.find? (IsHostOf parsed.hostname)

def ResponseDetails.attestationHeader (details : ResponseDetails) : Option Utf16 :=
  (details.responseHeaders.bind fun headers =>
    (headers.find? fun h => Domain.toLowerCase h.1 = ofString "smartid-attestation").bind
      (·.2)).filter (· ≠ [])

/-! ### The manager -/

/-- Where the body of a caller of the lock stands: it awaits the lock or the code of the page, the
verifier's call `j`, or the audit log. -/
inductive Body
  | waiting
  | verifying (j : Nat)
  | logging (attestedCode : Option AttestedCode)
  | ended

/-- A response whose header is processed; `domCode` is the code of the page once the tab has
answered. -/
structure Received where
  details : ResponseDetails
  rawValue : Utf16
  rpDomain : Utf16
  domCode : Option (Option Utf16)
  body : Body := .waiting

/-- The verifier, the lock with `currentAttestationStatus`, and the responses in the order in which
they call the lock. -/
structure AttestationManager (κ : Type) where
  service : Service κ
  lock : Lock := {}
  received : List Received := []

inductive ManagerEvent
  | headersReceived (details : ResponseDetails)
  | tabReplied (i : Nat) (reply : TabReply)
  | job
  -- caller `i` has the lock and the code of the page
  | begun (i : Nat)
  | verified (i : Nat)
  | logged (i : Nat)
  | tick (now : Int)
  | keysRefreshed (manifest : SignedKeyManifest)
  -- the verifier's call `j` goes on
  | settled (j : Nat)

namespace AttestationManager

/-- The worker after `initializeAttestation`. -/
def started (clock : Int) : AttestationManager κ where
  service := { store := .new bundledKeys, clock }

def headersReceived (s : AttestationManager κ) (details : ResponseDetails) : AttestationManager κ :=
  match details.attestationHeader, extractRpDomain parseUrl details.url with
  | some rawValue, some rpDomain =>
    { s with
      lock := s.lock.call
      received := s.received ++ [{
        details, rawValue, rpDomain
        domCode := if details.tabId = 0 then some none else none }] }
  | _, _ => s

def setBody (s : AttestationManager κ) (i : Nat) (r : Received) (body : Body) :
    AttestationManager κ :=
  { s with received := s.received.set i { r with body } }

/-- The body of caller `i` up to its first `await` after the code of the page. -/
def begin (s : AttestationManager κ) (i : Nat) (r : Received) : AttestationManager κ :=
  let service := s.service.verifyHeader date r.rawValue r.rpDomain
  let body := if s.service.calls.length < service.calls.length
    then .verifying s.service.calls.length else .logging none
  { s.setBody i r body with service }

/-- The header has been verified or not, and that goes to the audit log. -/
def verified (s : AttestationManager κ) (i : Nat) (r : Received) :
    Option (AttestationManager κ) :=
  match r.body with
  | .verifying j =>
    match (s.service.calls[j]?).map Call.progress with
    | some (.resolved attestedCode) => some (s.setBody i r (.logging attestedCode))
    | _ => none
  | _ => none

/-- The end of the body: the status, and the release of the lock. -/
def logged (s : AttestationManager κ) (i : Nat) (r : Received) : Option (AttestationManager κ) :=
  match r.body with
  | .logging attestedCode => do
    let lock ← s.lock.step (.process i attestedCode r.domCode.join)
    let lock ← lock.step (.settle i)
    return { s.setBody i r .ended with lock }
  | _ => none

def step (s : AttestationManager κ) : ManagerEvent → Option (AttestationManager κ)
  | .headersReceived details => some (s.headersReceived parseUrl details)
  | .tabReplied i reply =>
    (s.received[i]?).bind fun r =>
      if r.domCode.isNone then
        some { s with received := s.received.set i { r with domCode := some reply.domCode } }
      else none
  | .job => (s.lock.step .job).map fun lock => { s with lock }
  | .begun i =>
    (s.received[i]?).bind fun r =>
      match r.body with
      | .waiting =>
        if s.lock.phase i = .running ∧ r.domCode.isSome then some (s.begin date i r) else none
      | _ => none
  | .verified i => (s.received[i]?).bind (s.verified i)
  | .logged i => (s.received[i]?).bind (s.logged i)
  | .tick now => (s.service.step subtle date (.tick now)).map fun service => { s with service }
  | .keysRefreshed manifest =>
    (s.service.step subtle date (.updateManifest manifest)).map fun service => { s with service }
  | .settled j => (s.service.step subtle date (.settle j)).map fun service => { s with service }

abbrev Run (s : AttestationManager κ) (es : List ManagerEvent) (t : AttestationManager κ) : Prop :=
  Machine.Run (step subtle date parseUrl) s es t

def status (s : AttestationManager κ) : AttestationStatus := s.lock.status

/-- What the response says is vouched for: it comes from a host of a whitelisted domain, and a call of
the verifier for its header and that domain has accepted the header, which a key of the domain
vouched for in the store that the call began with. -/
def VouchedFor (service : Service κ) (r : Received) (attested : AttestedCode) : Prop :=
  ∃ parsed header, parseUrl r.details.url = some parsed ∧
    r.rpDomain ∈ whitelistedRpDomains ∧ IsHostOf parsed.hostname r.rpDomain ∧
    r.details.attestationHeader = some r.rawValue ∧
    parseAttestationHeader r.rawValue = some header ∧
    attested = header.attestedCode r.rpDomain ∧
    ∃ c ∈ service.calls, c.domain = r.rpDomain ∧ c.header = some header ∧
      c.progress = .resolved (some attested) ∧
      Service.Vouched subtle date c.store c.startedAt r.rpDomain header

/-- The status is what one of the responses and the page of its tab give. -/
def Shown (s : AttestationManager κ) : Prop :=
  match s.status with
  | .notApplicable => True
  | .domOnly => ∃ r ∈ s.received, ∃ code, r.domCode = some (some code) ∧ code ≠ []
  | .verified attested =>
    ∃ r ∈ s.received, VouchedFor subtle date parseUrl s.service r attested ∧
      ∀ code, r.domCode = some (some code) → code = [] ∨ code = attested.controlCode
  | .ratDetected attested domCode =>
    ∃ r ∈ s.received, VouchedFor subtle date parseUrl s.service r attested ∧
      r.domCode = some (some domCode) ∧ domCode ≠ [] ∧ domCode ≠ attested.controlCode

/-- Keys are refreshed and headers are checked as in `Service.Undisturbed`. -/
def Undisturbed (s : AttestationManager κ) : ManagerEvent → Prop
  | .begun i => ∀ r, s.received[i]? = some r →
      s.service.Undisturbed date (.verifyHeader r.rawValue r.rpDomain)
  | .keysRefreshed manifest => s.service.Undisturbed date (.updateManifest manifest)
  | _ => True

end AttestationManager

/-! ### The verifier's calls -/

namespace Service

variable {subtle date} {s t : Service κ}

/-- Each call is still there, for the same header, and has not been resolved anew. -/
def Later (s t : Service κ) : Prop :=
  ∀ (j : Nat) (c : Call κ), s.calls[j]? = some c → ∃ c' : Call κ, t.calls[j]? = some c' ∧
    c'.domain = c.domain ∧ c'.header = c.header ∧
    ∀ code, c.progress = .resolved code → c'.progress = .resolved code

theorem Later.refl (h : t.calls = s.calls) : Later s t :=
  fun _ c hc => ⟨c, h ▸ hc, rfl, rfl, fun _ => id⟩

theorem Later.append {c : Call κ} (h : t.calls = s.calls ++ [c]) : Later s t :=
  fun _ c' hc' => ⟨c', h ▸ Tasks.get_append_of_get hc' c, rfl, rfl, fun _ => id⟩

theorem Later.set {i : Nat} {c : Call κ} {progress : Progress κ} (hc : s.calls[i]? = some c)
    (hopen : ∀ code, c.progress ≠ .resolved code)
    (h : t.calls = s.calls.set i { c with progress }) : Later s t := by
  intro j c' hc'
  by_cases hj : j = i
  · subst hj
    obtain rfl := Option.some.inj (hc.symm.trans hc')
    refine ⟨{ c with progress }, ?_, rfl, rfl, fun code hcode => absurd hcode (hopen code)⟩
    rw [h]
    exact Tasks.set_self hc _
  · exact ⟨c', h ▸ Tasks.get_set_of_ne hj hc', rfl, rfl, fun _ => id⟩

theorem verifyHeader_new {rawHeader rpDomain : Utf16}
    (h : s.calls.length < (s.verifyHeader date rawHeader rpDomain).calls.length) :
    ∃ c, (s.verifyHeader date rawHeader rpDomain).calls[s.calls.length]? = some c ∧
      c.domain = rpDomain ∧ c.header = parseAttestationHeader rawHeader := by
  unfold verifyHeader at h ⊢
  split at h
  · exact absurd h (lt_irrefl _)
  next header hparse =>
    split at h
    next htime =>
      simp only [htime, if_true]
      exact ⟨_, Tasks.append_self _ _, rfl, hparse.symm⟩
    next => exact absurd h (lt_irrefl _)

theorem afterLookup_ne (header : Option ParsedAttestationHeader) (found : KeyStore.Lookup κ)
    (code : AttestedCode) : Progress.afterLookup header found ≠ .resolved (some code) := by
  cases found <;> cases header <;> nofun

theorem settle_cases {i : Nat} {c : Call κ} (h : s.settle subtle i c = some t) :
    (∀ code, c.progress ≠ .resolved code) ∧
      ∃ progress, t.calls = s.calls.set i { c with progress } ∧
        ∀ code, progress = .resolved (some code) →
          ∃ header ∈ c.header, code = header.attestedCode c.domain := by
  unfold settle at h
  split at h
  next raw hprogress =>
    have hopen (code : Option AttestedCode) : c.progress ≠ .resolved code := by
      rw [hprogress]
      nofun
    split at h
    · cases h
      exact ⟨hopen, _, rfl, fun code hcode => absurd hcode (afterLookup_ne _ _ code)⟩
    · cases h
      exact ⟨hopen, _, rfl, fun code hcode => absurd hcode (afterLookup_ne _ _ code)⟩
  next cryptoKey header hprogress hheader =>
    have hopen (code : Option AttestedCode) : c.progress ≠ .resolved code := by
      rw [hprogress]
      nofun
    cases h
    refine ⟨hopen, _, rfl, fun code hcode => ⟨header, hheader, ?_⟩⟩
    split at hcode
    · cases hcode
      rfl
    · cases hcode
  next => cases h

/-- A call that has resolved to an attested code has it from its header. -/
def Attested (s : Service κ) : Prop :=
  ∀ c ∈ s.calls, ∀ code, c.progress = .resolved (some code) →
    ∃ header ∈ c.header, code = header.attestedCode c.domain

theorem Attested.settle {i : Nat} {c : Call κ} (h : s.Attested) (hc : s.calls[i]? = some c)
    (hs : s.settle subtle i c = some t) : t.Attested ∧ Later s t := by
  obtain ⟨hopen, progress, hcalls, hattested⟩ := settle_cases hs
  refine ⟨fun c' hc' code hcode => ?_, .set hc hopen hcalls⟩
  rw [hcalls] at hc'
  rcases Tasks.mem_set hc' with rfl | ⟨j, -, hj⟩
  · exact hattested code hcode
  · exact h c' (List.mem_of_getElem? hj) code hcode

theorem Attested.verifyHeader {rawHeader rpDomain : Utf16} (h : s.Attested) :
    (s.verifyHeader date rawHeader rpDomain).Attested ∧
      Later s (s.verifyHeader date rawHeader rpDomain) := by
  unfold Service.verifyHeader
  split
  · exact ⟨h, .refl rfl⟩
  · split
    · refine ⟨fun c hc code hcode => ?_, .append rfl⟩
      rcases List.mem_append.mp hc with hc | hc
      · exact h c hc code hcode
      · rw [List.mem_singleton.mp hc] at hcode
        simp only at hcode
        exact (afterLookup_ne _ _ code hcode).elim
    · exact ⟨h, .refl rfl⟩

end Service

/-! ### The status -/

namespace AttestationManager

/-- The verifier has found the header of the response to attest the code. -/
def Accepted (service : Service κ) (r : Received) (code : AttestedCode) : Prop :=
  ∃ c ∈ service.calls, c.domain = r.rpDomain ∧ c.header = parseAttestationHeader r.rawValue ∧
    c.progress = .resolved (some code)

/-- What is known of a response whose body has got that far. -/
structure Received.Sound (service : Service κ) (r : Received) : Prop where
  header : r.details.attestationHeader = some r.rawValue
  domain : extractRpDomain parseUrl r.details.url = some r.rpDomain
  answered : r.domCode = none → r.body = .waiting
  verifying : ∀ j, r.body = .verifying j → ∃ c, service.calls[j]? = some c ∧
    c.domain = r.rpDomain ∧ c.header = parseAttestationHeader r.rawValue
  logging : ∀ code, r.body = .logging (some code) → Accepted service r code

/-- The status is the one that a response and its page give. -/
def Given (s : AttestationManager κ) : Prop :=
  s.status = .notApplicable ∨ ∃ r ∈ s.received, ∃ attestedCode domCode, r.domCode = some domCode ∧
    s.status = verifyControlCode attestedCode domCode ∧
    ∀ code, attestedCode = some code → Accepted s.service r code

structure Inv (s : AttestationManager κ) : Prop where
  service : s.service.Inv subtle date
  attested : s.service.Attested
  received : ∀ r ∈ s.received, Received.Sound parseUrl s.service r
  given : s.Given

variable {subtle date parseUrl} {s t : AttestationManager κ} {service : Service κ} {r r' : Received}
  {code : AttestedCode} {i : Nat}

theorem Accepted.later {service' : Service κ} (hlater : service.Later service')
    (h : Accepted service r code) : Accepted service' r code := by
  obtain ⟨c, hc, hdomain, hheader, hprogress⟩ := h
  obtain ⟨j, hj⟩ := List.mem_iff_getElem?.mp hc
  obtain ⟨c', hc', hdomain', hheader', hresolved⟩ := hlater j c hj
  exact ⟨c', List.mem_of_getElem? hc', hdomain'.trans hdomain, hheader'.trans hheader,
    hresolved _ hprogress⟩

theorem Received.Sound.later {service' : Service κ} (hlater : service.Later service')
    (h : Received.Sound parseUrl service r) : Received.Sound parseUrl service' r :=
  { h with
    verifying := fun j hj => by
      obtain ⟨c, hc, hdomain, hheader⟩ := h.verifying j hj
      obtain ⟨c', hc', hdomain', hheader', -⟩ := hlater j c hc
      exact ⟨c', hc', hdomain'.trans hdomain, hheader'.trans hheader⟩
    logging := fun code hcode => (h.logging code hcode).later hlater }

/-- The verifier goes on. -/
theorem Inv.setService (h : s.Inv subtle date parseUrl) (hservice : service.Inv subtle date)
    (hattested : service.Attested) (hlater : s.service.Later service) :
    ({ s with service } : AttestationManager κ).Inv subtle date parseUrl where
  service := hservice
  attested := hattested
  received r hr := (h.received r hr).later hlater
  given := h.given.imp_right fun ⟨r, hr, attestedCode, domCode, hdom, hstatus, haccepted⟩ =>
    ⟨r, hr, attestedCode, domCode, hdom, hstatus, fun code hcode =>
      (haccepted code hcode).later hlater⟩

/-- The lock goes on and leaves the status as it is. -/
theorem Inv.setLock {lock : Lock} (h : s.Inv subtle date parseUrl)
    (hstatus : lock.status = s.lock.status) :
    ({ s with lock } : AttestationManager κ).Inv subtle date parseUrl :=
  { h with
    given := by
      have hgiven := h.given
      unfold Given status at hgiven ⊢
      simpa only [hstatus] using hgiven }

/-- A response gets on and keeps what its tab has answered. -/
theorem Inv.setReceived (h : s.Inv subtle date parseUrl) (hr : s.received[i]? = some r)
    (hsound : Received.Sound parseUrl s.service r') (hraw : r'.rawValue = r.rawValue)
    (hdomain : r'.rpDomain = r.rpDomain)
    (hkept : ∀ domCode, r.domCode = some domCode → r'.domCode = some domCode) :
    ({ s with received := s.received.set i r' } : AttestationManager κ).Inv subtle date
      parseUrl where
  service := h.service
  attested := h.attested
  received r₁ hr₁ := by
    rcases Tasks.mem_set hr₁ with rfl | ⟨j, -, hj⟩
    · exact hsound
    · exact h.received r₁ (List.mem_of_getElem? hj)
  given := h.given.imp_right fun ⟨r₁, hr₁, attestedCode, domCode, hdom, hstatus, haccepted⟩ => by
    obtain ⟨j, hj⟩ := List.mem_iff_getElem?.mp hr₁
    by_cases hji : j = i
    · subst hji
      obtain rfl := Option.some.inj (hr.symm.trans hj)
      refine ⟨r', Tasks.mem_set_self hr r', attestedCode, domCode, hkept _ hdom, hstatus, ?_⟩
      intro code hcode
      obtain ⟨c, hc, hcdomain, hcheader, hprogress⟩ := haccepted code hcode
      exact ⟨c, hc, hcdomain.trans hdomain.symm, hcheader.trans (congrArg _ hraw.symm), hprogress⟩
    · exact ⟨r₁, Tasks.mem_set_of_ne hji hj, attestedCode, domCode, hdom, hstatus, haccepted⟩

theorem status_call (lock : Lock) : lock.call.status = lock.status := by
  unfold Lock.call
  split
  · rfl
  · split <;> rfl

theorem status_job {lock lock' : Lock} (h : lock.step .job = some lock') :
    lock'.status = lock.status := by
  simp only [Lock.step] at h
  split at h
  · cases h
  next job rest hjobs =>
    cases h
    cases job <;> rfl

theorem Inv.headersReceived (h : s.Inv subtle date parseUrl) (details : ResponseDetails) :
    (s.headersReceived parseUrl details).Inv subtle date parseUrl := by
  unfold AttestationManager.headersReceived
  split
  next rawValue rpDomain hraw hdomain =>
    have hlock := h.setLock (status_call s.lock)
    refine ⟨h.service, h.attested, fun r hr => ?_, hlock.given.imp_right ?_⟩
    · rcases List.mem_append.mp hr with hr | hr
      · exact h.received r hr
      · rw [List.mem_singleton.mp hr]
        exact ⟨hraw, hdomain, fun _ => rfl, fun _ => nofun, fun _ => nofun⟩
    · exact fun ⟨r, hr, hgiven⟩ => ⟨r, List.mem_append_left _ hr, hgiven⟩
  next => exact h

theorem Inv.begin (h : s.Inv subtle date parseUrl) (hr : s.received[i]? = some r)
    (hanswered : r.domCode.isSome = true)
    (hG : s.service.Undisturbed date (.verifyHeader r.rawValue r.rpDomain)) :
    (s.begin date i r).Inv subtle date parseUrl := by
  have hsound := h.received r (List.mem_of_getElem? hr)
  obtain ⟨hattested, hlater⟩ : (s.service.verifyHeader date r.rawValue r.rpDomain).Attested ∧
      Service.Later s.service (s.service.verifyHeader date r.rawValue r.rpDomain) :=
    h.attested.verifyHeader
  have hnext := h.setService (h.service.verifyHeader hG) hattested hlater
  refine hnext.setReceived hr ?_ rfl rfl fun _ => id
  have hlaterSound := hsound.later hlater
  split
  next hnew =>
    exact { hlaterSound with
      answered := fun hnone => by simp [show r.domCode = none from hnone] at hanswered
      verifying := fun j hj => by
        cases hj
        exact Service.verifyHeader_new hnew
      logging := fun _ => nofun }
  next =>
    exact { hlaterSound with
      answered := fun hnone => by simp [show r.domCode = none from hnone] at hanswered
      verifying := fun _ => nofun
      logging := fun _ => nofun }

theorem Inv.verified (h : s.Inv subtle date parseUrl) (hr : s.received[i]? = some r)
    (hstep : s.verified i r = some t) : t.Inv subtle date parseUrl := by
  have hsound := h.received r (List.mem_of_getElem? hr)
  unfold AttestationManager.verified at hstep
  split at hstep
  next j hbody =>
    split at hstep
    next attestedCode hprogress =>
      cases hstep
      obtain ⟨c, hc, hresolved⟩ := Option.map_eq_some_iff.mp hprogress
      obtain ⟨c', hc', hdomain, hheader⟩ := hsound.verifying j hbody
      obtain rfl := Option.some.inj (hc.symm.trans hc')
      refine h.setReceived hr ?_ rfl rfl fun _ => id
      exact { hsound with
        answered := fun hnone => by
          rw [hsound.answered hnone] at hbody
          cases hbody
        verifying := fun _ => nofun
        logging := fun code hcode => by
          cases hcode
          exact ⟨c, List.mem_of_getElem? hc, hdomain, hheader, hresolved⟩ }
    next => cases hstep
  next => cases hstep

theorem Inv.logged (h : s.Inv subtle date parseUrl) (hr : s.received[i]? = some r)
    (hstep : s.logged i r = some t) : t.Inv subtle date parseUrl := by
  have hsound := h.received r (List.mem_of_getElem? hr)
  unfold AttestationManager.logged at hstep
  split at hstep
  next attestedCode hbody =>
    obtain ⟨lock, hprocess, hstep⟩ := Option.bind_eq_some_iff.mp hstep
    obtain ⟨lock', hsettle, hstep⟩ := Option.bind_eq_some_iff.mp hstep
    cases hstep
    simp only [Lock.step, Option.ite_none_right_eq_some, Option.some.injEq] at hprocess hsettle
    obtain ⟨-, rfl⟩ := hprocess
    obtain ⟨-, rfl⟩ := hsettle
    obtain ⟨domCode, hdom⟩ : ∃ domCode, r.domCode = some domCode := by
      refine Option.ne_none_iff_exists'.mp fun hnone => ?_
      rw [hsound.answered hnone] at hbody
      cases hbody
    have hended : Received.Sound parseUrl s.service { r with body := .ended } := { hsound with
      answered := fun hnone => by
        rw [hsound.answered hnone] at hbody
        cases hbody
      verifying := fun _ hended => by cases hended
      logging := fun _ hended => by cases hended }
    have hset := h.setReceived hr hended rfl rfl fun _ => id
    refine ⟨hset.service, hset.attested, hset.received, .inr ⟨{ r with body := .ended },
      Tasks.mem_set_self hr _, attestedCode, domCode, hdom, ?_, fun code hcode => ?_⟩⟩
    · simp [AttestationManager.status, hdom]
    · subst hcode
      exact hsound.logging code hbody
  next => cases hstep

theorem Inv.step {e : ManagerEvent} (h : s.Inv subtle date parseUrl) (hG : s.Undisturbed date e)
    (hstep : s.step subtle date parseUrl e = some t) : t.Inv subtle date parseUrl := by
  cases e with
  | headersReceived details =>
    cases hstep
    exact h.headersReceived details
  | tabReplied i reply =>
    obtain ⟨r, hr, hstep⟩ := Option.bind_eq_some_iff.mp hstep
    have hsound := h.received r (List.mem_of_getElem? hr)
    split at hstep
    next hnone =>
      cases hstep
      rw [Option.isNone_iff_eq_none] at hnone
      refine h.setReceived hr { hsound with answered := fun hsome => by cases hsome } rfl rfl ?_
      intro domCode hdom
      rw [hnone] at hdom
      cases hdom
    next => cases hstep
  | job =>
    obtain ⟨lock, hlock, rfl⟩ := Option.map_eq_some_iff.mp hstep
    exact h.setLock (status_job hlock)
  | begun i =>
    obtain ⟨r, hr, hstep⟩ := Option.bind_eq_some_iff.mp hstep
    split at hstep
    next hbody =>
      simp only [Option.ite_none_right_eq_some, Option.some.injEq] at hstep
      obtain ⟨⟨-, hanswered⟩, rfl⟩ := hstep
      exact h.begin hr hanswered (hG r hr)
    next => cases hstep
  | verified i =>
    obtain ⟨r, hr, hstep⟩ := Option.bind_eq_some_iff.mp hstep
    exact h.verified hr hstep
  | logged i =>
    obtain ⟨r, hr, hstep⟩ := Option.bind_eq_some_iff.mp hstep
    exact h.logged hr hstep
  | tick now =>
    obtain ⟨service, hservice, rfl⟩ := Option.map_eq_some_iff.mp hstep
    have hinv := h.service.step (e := .tick now) trivial hservice
    simp only [Service.step, Option.ite_none_right_eq_some, Option.some.injEq] at hservice
    obtain ⟨-, rfl⟩ := hservice
    exact h.setService hinv h.attested (.refl rfl)
  | keysRefreshed manifest =>
    cases hstep
    have hinv := h.service.step (e := .updateManifest manifest) hG rfl
    exact h.setService hinv h.attested (.refl rfl)
  | settled j =>
    obtain ⟨service, hservice, rfl⟩ := Option.map_eq_some_iff.mp hstep
    have hinv := h.service.step (e := .settle j) trivial hservice
    obtain ⟨c, hc, hsettle⟩ := Option.bind_eq_some_iff.mp hservice
    obtain ⟨hattested, hlater⟩ := h.attested.settle hc hsettle
    exact h.setService hinv hattested hlater

theorem Inv.started (clock : Int) :
    (started clock : AttestationManager κ).Inv subtle date parseUrl := by
  have hcolon : ∀ key ∈ bundledKeys, (0x3a : UInt16) ∉ key.domain := by decide +kernel
  have hkeys : (({ store := ({} : KeyStore κ).addKeys bundledKeys, clock } : Service κ)).Inv
      subtle date :=
    (Service.Inv.init clock).addKeys fun key hkey => ⟨hcolon key hkey, fun _ => nofun⟩
  exact ⟨hkeys, fun _ => nofun, fun _ => nofun, .inl rfl⟩

/-- What is accepted is vouched for. -/
theorem Accepted.vouchedFor (h : s.Inv subtle date parseUrl) (hr : r ∈ s.received)
    (haccepted : Accepted s.service r code) :
    VouchedFor subtle date parseUrl s.service r code := by
  have hsound := h.received r hr
  obtain ⟨c, hc, hdomain, hheader, hresolved⟩ := haccepted
  obtain ⟨header, hmem, hvouched⟩ := h.service.sound c hc code hresolved
  obtain ⟨header', hmem', rfl⟩ := h.attested c hc code hresolved
  obtain rfl := Option.some.inj (hmem.symm.trans hmem')
  obtain ⟨parsed, hparsed, hfind⟩ := Option.bind_eq_some_iff.mp hsound.domain
  have hhost := List.find?_some hfind
  rw [hdomain] at hvouched hresolved ⊢
  exact ⟨parsed, header, hparsed, List.mem_of_find?_eq_some hfind, of_decide_eq_true hhost,
    hsound.header, hheader.symm.trans hmem, rfl, c, hc, hdomain, hmem, hresolved, hvouched⟩

/-- **The attestation status.**  However responses, tabs, refreshes of the keys and the verifier
interleave, a status that shows an attested code shows the one in the header of a response from a
host of a whitelisted domain, which a key of that domain vouched for when a check of it began, and it
says whether the code in the page of that response's tab agrees. -/
theorem status_shown {clock : Int} {es : List ManagerEvent}
    (hrun : Run subtle date parseUrl (started clock) es s)
    (hG : Machine.Throughout (AttestationManager.step subtle date parseUrl) (Undisturbed date)
      (started clock) es) : s.Shown subtle date parseUrl := by
  have hinv : s.Inv subtle date parseUrl :=
    hrun.invariant (I := Inv subtle date parseUrl) (.started clock) hG
      fun _ _ _ h hG hstep => h.step hG hstep
  unfold Shown
  obtain hnone | ⟨r, hr, attestedCode, domCode, hdom, hstatus, haccepted⟩ := hinv.given
  · rw [hnone]
    trivial
  rw [hstatus]
  unfold verifyControlCode
  cases attestedCode with
  | none =>
    cases hcode : domCode.filter (· ≠ []) with
    | none => trivial
    | some code =>
      obtain ⟨rfl, hne⟩ := Option.filter_eq_some_iff.mp hcode
      exact ⟨r, hr, code, hdom, of_decide_eq_true hne⟩
  | some attested =>
    have hvouched := (haccepted attested rfl).vouchedFor hinv hr
    cases hcode : domCode.filter (· ≠ []) with
    | none =>
      refine ⟨r, hr, hvouched, fun code hsome => .inl ?_⟩
      obtain rfl := Option.some.inj (hdom.symm.trans hsome)
      simpa [Option.filter_eq_none_iff] using hcode
    | some code =>
      obtain ⟨rfl, hne⟩ := Option.filter_eq_some_iff.mp hcode
      by_cases heq : attested.controlCode = code
      · simp only [if_pos heq]
        refine ⟨r, hr, hvouched, fun code' hsome => .inr ?_⟩
        rw [hdom] at hsome
        cases hsome
        exact heq.symm
      · simp only [if_neg heq]
        exact ⟨r, hr, hvouched, hdom, of_decide_eq_true hne, fun hcode => heq hcode.symm⟩

end AttestationManager

/-! ### Undisturbed runs can be checked -/

def Progress.raw : Progress κ → Option Bytes
  | .importing raw => some raw
  | _ => none

theorem Progress.mem_raw {progress : Progress κ} {raw : Bytes} :
    raw ∈ progress.raw ↔ progress = .importing raw := by
  cases progress <;> simp [Progress.raw, eq_comm]

instance (s : Service κ) (key : TrustedRpSigningKey) : Decidable (s.Replaceable key) :=
  decidable_of_iff (0x3a ∉ key.domain ∧ ∀ c ∈ s.calls, ∀ raw ∈ c.progress.raw,
      entryId c.domain c.keyId = key.id →
        ∀ old ∈ s.store.keys key.id, old.publicKeyHex = key.publicKeyHex) <|
    and_congr_right fun _ => forall₃_congr fun _ _ _ => by rw [Progress.mem_raw]

instance (s : Service κ) : (e : ServiceEvent) → Decidable (s.Undisturbed date e)
  | .addKey key => inferInstanceAs (Decidable (s.Replaceable key))
  | .updateManifest manifest =>
    inferInstanceAs (Decidable (manifest.manifestSignature ≠ [] →
      s.store.manifestVersion < manifest.version.value →
        ∀ key ∈ manifest.keys, s.Replaceable key))
  | .verifyHeader rawHeader rpDomain =>
    inferInstanceAs (Decidable (∀ header ∈ parseAttestationHeader rawHeader,
      validateTimestamp s.clock header.payload.ts →
        (s.store.importedKeys (entryId rpDomain header.keyId)).isSome →
          0x3a ∉ rpDomain ∧ ∀ key ∈ s.store.keys (entryId rpDomain header.keyId),
            key.isKeyActive date s.clock))
  | .tick _ | .getImportedKey _ _ | .settle _ => isTrue trivial

instance (s : AttestationManager κ) : (e : ManagerEvent) → Decidable (s.Undisturbed date e)
  | .begun i =>
    inferInstanceAs (Decidable (∀ r ∈ s.received[i]?,
      s.service.Undisturbed date (.verifyHeader r.rawValue r.rpDomain)))
  | .keysRefreshed manifest =>
    inferInstanceAs (Decidable (s.service.Undisturbed date (.updateManifest manifest)))
  | .headersReceived _ | .tabReplied _ _ | .job | .verified _ | .logged _ | .tick _ | .settled _ =>
    isTrue trivial

end

/-! ### A response of LHV -/

/-- `Date` on the dates of the first bundled key. -/
def bundledDates : DateParser := fun text =>
  if text = ofString "2025-06-01T00:00:00Z" then some 1748736000000
  else if text = ofString "2027-01-01T00:00:00Z" then some 1798761600000
  else none

def sampleParseUrl (url : Utf16) : Option Domain.Url :=
  if url = ofString "https://www.lhv.ee/" then
    some { protocol := ofString "https:", hostname := ofString "www.lhv.ee" }
  else none

/-- A response with the code 4321. -/
def sampleResponse : ResponseDetails where
  responseHeaders := some [(ofString "SmartID-Attestation", some (
    ofString "v1;eyJjb2RlIjoiNDMyMSIsInRzIjoxNzk4NzYxNTkwfQ;" ++
      ofString "eyJjb2RlIjoiNDMyMSIsInRzIjoxNzk4NzYxNTkwfQ;lhv-2026q1"))]
  url := ofString "https://www.lhv.ee/"
  tabId := 7

/-- The tab says that the page has the code 4322. -/
def sampleAttestation : List ManagerEvent :=
  [.headersReceived sampleResponse, .job, .tabReplied 0 (.resolved true (some (ofString "4322"))),
    .begun 0, .settled 0, .settled 0, .verified 0, .logged 0]

def isRatDetected : AttestationStatus → Bool
  | .ratDetected attested domCode =>
    attested.controlCode = ofString "4321" && domCode = ofString "4322"
  | _ => false

theorem status_shown_sample :
    ∃ s, AttestationManager.Run .echo bundledDates sampleParseUrl
      (AttestationManager.started 1798761590000) sampleAttestation s ∧
      s.Shown .echo bundledDates sampleParseUrl ∧ isRatDetected s.status = true := by
  have hexec : (Machine.exec (AttestationManager.step .echo bundledDates sampleParseUrl)
      (.started 1798761590000) sampleAttestation).any (fun s => isRatDetected s.status) = true := by
    decide +kernel
  obtain ⟨s, hrun, hs⟩ := Machine.exists_run_with hexec
  exact ⟨s, hrun, AttestationManager.status_shown hrun (by decide +kernel), hs⟩

end SmartIdVault.Attestation
