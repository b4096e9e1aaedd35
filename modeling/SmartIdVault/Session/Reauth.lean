import SmartIdVault.Auth.MfaGate
import SmartIdVault.Lib.Base64
import SmartIdVault.Lib.Sha256
import SmartIdVault.Session.Carried

/-! What activates a session: an assertion that the replay cache accepts, or a silent
re-authentication, for which the authenticator evaluates its pseudo-random function at a salt that
came with a credential.  The handlers go on from one await to the next among the calls of the
session manager, and a restart of the service worker drops them. -/

namespace SmartIdVault.SessionManager

open Auth (MfaAssertion MfaGate)

/-- The await at which `performSilentReauth` stands, with the reply once it is there.  What it has
read before is kept for the log. -/
inductive Reauth where
  | isPrfAvailable (reply : Option Bool)
  | getPrfSalt (reply : Option (Option (List Char)))
  | assertPrfCredential (salt : Bytes) (reply : Option (Option Bytes))
  | getRemoteStatic (salt prfKey : Bytes) (reply : Option (Option Bytes))
  | createOffscreenDocument (salt prfKey remoteStaticPublicKey : Bytes)
  | activateSession (task : Nat)
  deriving DecidableEq

/-- What `check-session` does afterwards is a call of `getSession` like any other. -/
inductive ReauthCaller where
  | checkSession
  | tryRestoreSession
  deriving DecidableEq

inductive Caching where
  | transmitCredentialToAndroid
  | cachePrfCredentialId
  | setPrfSalt
  | setPrfAvailable
  deriving DecidableEq

inductive Handler where
  | performSilentReauth (caller : ReauthCaller) (pc : Reauth)
  | prfCredentialCreated (credentialId : Utf16) (prfSalt : Bytes) (pc : Caching)
  | passkeyCredentialCreated (credentialId : Utf16) (prfSalt : Option Bytes) (pc : Caching)
  | done
  deriving DecidableEq

/-- Why `activateSession` was called. -/
inductive Cause where
  | assertion (tuple : Utf16) (reservedAt : Int)
  | reauth (salt prfKey remoteStaticPublicKey : Bytes)
  deriving DecidableEq

/-- The limiter and the cache of the assertions, the session manager, what else session storage has
(`device` is the `remoteStaticPublicKey` of `pairing:device`), the handlers that are under way, and
the calls of `activateSession` so far. -/
structure Authentication where
  gate : MfaGate
  manager : Manager
  prfCredentialId : Option Utf16 := none
  prfSalt : Option (List Char) := none
  device : Option Bytes := none
  handlers : List Handler := []
  activations : List (Cause × MfaSession) := []

/-- `call` is a call of the session manager that no handler below makes. -/
inductive AuthEvent where
  | mfaAssertion (a : MfaAssertion)
  | settle (i : Nat) (checkedAt reservedAt : Int) (bytes : Bytes)
  | prfCredentialCreated (credentialId : Utf16) (prfEnabled : Bool) (prfSalt : Bytes)
  | passkeyCredentialCreated (credentialId : Utf16) (prfEnabled : Bool) (prfSalt : Option Bytes)
  | setDevice (remoteStaticPublicKey : Option Bytes)
  | performSilentReauth (caller : ReauthCaller) (checkPrfSupport : Bool)
  -- the authenticator answers handler `i`; it has given no output if it fails
  | assertPrfCredential (i : Nat) (salt : Bytes) (prfOutput : Option Bytes)
  | resume (i : Nat) (bytes : Bytes)
  | call (e : Event)
  | restart
  | browserRestart
  deriving DecidableEq

def Event.isDirect : Event → Bool
  | .activateSession _ _ | .restorePersistedSession | .setPrfAvailable | .restart
  | .browserRestart => false
  | .clearSession | .getSession | .verifySession | .resetIdleTimeout | .onAlarm _
  | .onStateChanged _ | .run _ | .pass _ => true

variable (digest : Bytes → Bytes) (scalarMultBase : Bytes → Option Bytes)

/-- The key pair of `deriveNoiseKeypair`, public key first; `scalarMultBase` throws on a secret key
that it does not take. -/
def deriveNoiseKeypair (seed32 : Bytes) : Option (Bytes × Bytes) :=
  (scalarMultBase seed32).map (·, seed32)

namespace Authentication

def init (now : Int) : Authentication where
  gate := .init now
  manager := .init now

def put (s : Authentication) (i : Nat) (h : Handler) : Authentication :=
  { s with handlers := s.handlers.set i h }

def start (s : Authentication) (h : Handler) : Authentication :=
  { s with handlers := s.handlers ++ [h] }

def call (s : Authentication) (e : Event) : Option Authentication :=
  (s.manager.step e).map fun manager => { s with manager }

def activate (s : Authentication) (cause : Cause) (bytes : Bytes) : Option Authentication :=
  (s.call (.activateSession bytes none)).map fun t =>
    { t with activations := s.activations ++ [(cause, s.manager.newSession bytes none)] }

/-- What the caller does when `performSilentReauth` has come to `ok`. -/
def settled (s : Authentication) (caller : ReauthCaller) (ok : Bool) : Option Authentication :=
  match caller, ok with
  | .tryRestoreSession, false => s.call .restorePersistedSession
  | .tryRestoreSession, true | .checkSession, _ => some s

def reauth (s : Authentication) (i : Nat) (caller : ReauthCaller) (bytes : Bytes)
    (pc : Reauth) : Option Authentication :=
  let goOn (pc : Reauth) := some (s.put i (.performSilentReauth caller pc))
  let finish (ok : Bool) := (s.put i .done).settled caller ok
  match pc with
  | .isPrfAvailable none => goOn (.isPrfAvailable (some s.manager.browser.prfAvailable))
  | .isPrfAvailable (some prfAvailable) =>
    if prfAvailable then goOn (.getPrfSalt none) else finish false
  | .getPrfSalt none => goOn (.getPrfSalt (some s.prfSalt))
  | .getPrfSalt (some saltBase64) =>
    match saltBase64.filter (· ≠ []) with
    | none => finish false
    | some saltBase64 =>
      match Base64.atob saltBase64 with
      | some salt => goOn (.assertPrfCredential salt none)
      -- `atob` throws, and nothing catches it
      | none => some (s.put i .done)
  | .assertPrfCredential _ none => none
  | .assertPrfCredential salt (some result) =>
    match result with
    | some prfOutput => goOn (.getRemoteStatic salt prfOutput none)
    | none => finish false
  | .getRemoteStatic salt prfKey none => goOn (.getRemoteStatic salt prfKey (some s.device))
  | .getRemoteStatic salt prfKey (some cached) =>
    match cached.filter (· ≠ []) with
    | some remoteStaticPublicKey =>
      if (deriveNoiseKeypair scalarMultBase prfKey).isSome then
        goOn (.createOffscreenDocument salt prfKey remoteStaticPublicKey)
      else finish false
    | none => finish false
  | .createOffscreenDocument salt prfKey remoteStaticPublicKey =>
    (s.put i (.performSilentReauth caller (.activateSession s.manager.tasks.length))).activate
      (.reauth salt prfKey remoteStaticPublicKey) bytes
  | .activateSession task =>
    if s.manager.tasks[task]?.any fun t => t.call.isDone then finish true else none

def resume (s : Authentication) (i : Nat) (bytes : Bytes) : Handler → Option Authentication
  | .performSilentReauth caller pc => s.reauth scalarMultBase i caller bytes pc
  | .prfCredentialCreated credentialId prfSalt pc =>
    match pc with
    | .transmitCredentialToAndroid => none
    | .cachePrfCredentialId =>
      some { s.put i (.prfCredentialCreated credentialId prfSalt .setPrfSalt) with
        prfCredentialId := some credentialId }
    | .setPrfSalt =>
      some { s.put i (.prfCredentialCreated credentialId prfSalt .setPrfAvailable) with
        prfSalt := some (Base64.encode prfSalt) }
    | .setPrfAvailable => (s.put i .done).call .setPrfAvailable
  | .passkeyCredentialCreated credentialId prfSalt pc =>
    match pc with
    | .transmitCredentialToAndroid =>
      some (s.put i (.passkeyCredentialCreated credentialId prfSalt .cachePrfCredentialId))
    | .cachePrfCredentialId =>
      some { s.put i (match prfSalt with
          | some _ => .passkeyCredentialCreated credentialId prfSalt .setPrfSalt
          | none => .done) with
        prfCredentialId := some credentialId }
    | .setPrfSalt =>
      some { s.put i .done with prfSalt := (prfSalt.map Base64.encode).or s.prfSalt }
    | .setPrfAvailable => none
  | .done => none

def step (s : Authentication) : AuthEvent → Option Authentication
  | .mfaAssertion a =>
    (s.gate.step digest (.assertion a s.manager.browser.now)).map fun gate => { s with gate }
  | .settle i checkedAt reservedAt bytes =>
    if s.manager.browser.now ≤ checkedAt then
      (s.gate.step digest (.settle i checkedAt reservedAt)).bind fun gate =>
        let t := { s with gate, manager.browser.now := gate.replay.now }
        match gate.outcomes.getLast?, s.gate.replay.waiting[i]? with
        | some (.activated now), some tuple => t.activate (.assertion tuple now) bytes
        | _, _ => some t
    else none
  | .prfCredentialCreated credentialId prfEnabled prfSalt =>
    if prfEnabled then
      some (s.start (.prfCredentialCreated credentialId prfSalt .cachePrfCredentialId))
    else some s
  | .passkeyCredentialCreated credentialId prfEnabled prfSalt =>
    if prfEnabled then
      some (s.start (.passkeyCredentialCreated credentialId prfSalt .transmitCredentialToAndroid))
    else some s
  | .setDevice remoteStaticPublicKey => some { s with device := remoteStaticPublicKey }
  | .performSilentReauth caller checkPrfSupport =>
    if checkPrfSupport then some (s.start (.performSilentReauth caller (.isPrfAvailable none)))
    else s.settled caller false
  | .assertPrfCredential i salt prfOutput =>
    match s.handlers[i]? with
    | some (.performSilentReauth caller (.assertPrfCredential asked none)) =>
      if asked = salt then
        some (s.put i (.performSilentReauth caller (.assertPrfCredential salt (some prfOutput))))
      else none
    | _ => none
  | .resume i bytes => s.handlers[i]?.bind (s.resume scalarMultBase i bytes)
  | .call e => if e.isDirect then s.call e else none
  | .restart =>
    (s.call .restart).map fun t =>
      { t with gate := .init s.manager.browser.now, handlers := [] }
  | .browserRestart =>
    (s.call .browserRestart).map fun t =>
      { t with
        gate := .init s.manager.browser.now
        handlers := []
        prfCredentialId := none
        prfSalt := none
        device := none }

abbrev Run : Authentication → List AuthEvent → Authentication → Prop :=
  Machine.Run (step digest scalarMultBase)

end Authentication

/-! ### What stands behind a session -/

/-- The salt came with a credential for which the authenticator has a pseudo-random function. -/
def Offered (es : List AuthEvent) (salt : Bytes) : Prop :=
  ∃ credentialId, .prfCredentialCreated credentialId true salt ∈ es ∨
    .passkeyCredentialCreated credentialId true (some salt) ∈ es

/-- The authenticator has given `prfKey` for the salt. -/
def Answered (es : List AuthEvent) (salt prfKey : Bytes) : Prop :=
  ∃ i, .assertPrfCredential i salt (some prfKey) ∈ es

/-- The tuple is that of an assertion with all its parts. -/
def Presented (es : List AuthEvent) (tuple : Utf16) : Prop :=
  ∃ a, .mfaAssertion a ∈ es ∧ a.isComplete = true ∧ a.assertionTuple = tuple

def Cause.Justified (es : List AuthEvent) : Cause → Prop
  | .assertion tuple _ => Presented es tuple
  | .reauth salt prfKey remoteStaticPublicKey =>
    (salt ≠ [] ∧ Offered es salt) ∧ Answered es salt prfKey ∧
      remoteStaticPublicKey ≠ [] ∧ .setDevice (some remoteStaticPublicKey) ∈ es

/-- What a handler carries has come with the events so far. -/
def Reauth.Sound (es : List AuthEvent) : Reauth → Prop
  | .isPrfAvailable _ | .activateSession _ => True
  | .getPrfSalt reply =>
    ∀ saltBase64 ∈ reply.bind id, ∃ salt, Offered es salt ∧ saltBase64 = Base64.encode salt
  | .assertPrfCredential salt reply =>
    (salt ≠ [] ∧ Offered es salt) ∧ ∀ prfKey ∈ reply.bind id, Answered es salt prfKey
  | .getRemoteStatic salt prfKey reply =>
    (salt ≠ [] ∧ Offered es salt) ∧ Answered es salt prfKey ∧
      ∀ cached ∈ reply.bind id, .setDevice (some cached) ∈ es
  | .createOffscreenDocument salt prfKey remoteStaticPublicKey =>
    (Cause.reauth salt prfKey remoteStaticPublicKey).Justified es

/-- `saltStored` is whether there is a salt in session storage. -/
def Handler.Sound (es : List AuthEvent) (saltStored : Bool) : Handler → Prop
  | .performSilentReauth _ pc => pc.Sound es
  | .prfCredentialCreated _ prfSalt pc =>
    Offered es prfSalt ∧ (pc = .setPrfAvailable → saltStored = true)
  | .passkeyCredentialCreated _ prfSalt _ => ∀ salt ∈ prfSalt, Offered es salt
  | .done => True

/-- A call of `activateSession` for a reason, before `now`. -/
structure Accounted (es : List AuthEvent) (now : Int) (a : Cause × MfaSession) : Prop where
  justified : a.1.Justified es
  verifiedAt : a.2.mfaVerifiedAt ≤ now
  expiry : a.2.expiry = a.2.mfaVerifiedAt + sessionTtlMs
  reservedAt : ∀ tuple reservedAt, a.1 = .assertion tuple reservedAt →
    reservedAt = a.2.mfaVerifiedAt

theorem Accounted.later {es : List AuthEvent} {now now' : Int} {a : Cause × MfaSession}
    (h : Accounted es now a) (hnow : now ≤ now') : Accounted es now' a :=
  { h with verifiedAt := h.verifiedAt.trans hnow }

/-- Every session is that of an activation, or a copy of it, and the flag in session storage stands
for a salt. -/
structure Authentication.Sound (es : List AuthEvent) (s : Authentication) : Prop where
  waiting : ∀ tuple ∈ s.gate.replay.waiting, Presented es tuple
  salt : ∀ saltBase64 ∈ s.prfSalt, ∃ salt, Offered es salt ∧ saltBase64 = Base64.encode salt
  available : s.manager.browser.prfAvailable = true → s.prfSalt.isSome = true
  device : ∀ cached ∈ s.device, .setDevice (some cached) ∈ es
  handlers : ∀ h ∈ s.handlers, h.Sound es s.prfSalt.isSome
  sessions : ∀ session, s.manager.Has session → ∃ a ∈ s.activations, session.Copies a.2
  activations : ∀ a ∈ s.activations, Accounted es s.manager.browser.now a

/-! ### More events -/

section Mono

variable {es es' : List AuthEvent} (hes : es ⊆ es')
include hes

theorem Offered.mono {salt : Bytes} (h : Offered es salt) : Offered es' salt :=
  h.imp fun _ => Or.imp (@hes _) (@hes _)

theorem Answered.mono {salt prfKey : Bytes} (h : Answered es salt prfKey) :
    Answered es' salt prfKey := h.imp fun _ => @hes _

theorem Presented.mono {tuple : Utf16} (h : Presented es tuple) : Presented es' tuple :=
  h.imp fun _ => And.imp_left (@hes _)

theorem Cause.Justified.mono {c : Cause} (h : c.Justified es) : c.Justified es' := by
  cases c with
  | assertion tuple reservedAt => exact Presented.mono hes h
  | reauth salt prfKey remoteStaticPublicKey =>
    exact ⟨⟨h.1.1, h.1.2.mono hes⟩, h.2.1.mono hes, h.2.2.1, hes h.2.2.2⟩

theorem Reauth.Sound.mono {pc : Reauth} (h : pc.Sound es) : pc.Sound es' := by
  cases pc with
  | isPrfAvailable | activateSession => trivial
  | getPrfSalt reply =>
    exact fun saltBase64 hsalt => (h saltBase64 hsalt).imp fun _ => And.imp_left (·.mono hes)
  | assertPrfCredential salt reply =>
    exact ⟨⟨h.1.1, h.1.2.mono hes⟩, fun prfKey hkey => (h.2 prfKey hkey).mono hes⟩
  | getRemoteStatic salt prfKey reply =>
    exact ⟨⟨h.1.1, h.1.2.mono hes⟩, h.2.1.mono hes, fun cached hcached => hes (h.2.2 cached hcached)⟩
  | createOffscreenDocument salt prfKey remoteStaticPublicKey =>
    exact Cause.Justified.mono hes (c := .reauth ..) h

theorem Handler.Sound.mono {saltStored : Bool} {h : Handler} (hsound : h.Sound es saltStored) :
    h.Sound es' saltStored := by
  cases h with
  | performSilentReauth caller pc => exact Reauth.Sound.mono hes hsound
  | prfCredentialCreated credentialId prfSalt pc => exact ⟨hsound.1.mono hes, hsound.2⟩
  | passkeyCredentialCreated credentialId prfSalt pc =>
    exact fun salt hsalt => (hsound salt hsalt).mono hes
  | done => trivial

theorem Authentication.Sound.mono {s : Authentication} (h : s.Sound es) : s.Sound es' where
  waiting tuple htuple := (h.waiting tuple htuple).mono hes
  salt saltBase64 hsalt := (h.salt saltBase64 hsalt).imp fun _ => And.imp_left (·.mono hes)
  available := h.available
  device cached hcached := hes (h.device cached hcached)
  handlers handler hhandler := (h.handlers handler hhandler).mono hes
  sessions := h.sessions
  activations a ha := { h.activations a ha with justified := (h.activations a ha).justified.mono hes }

end Mono

/-! ### What a step keeps -/

namespace Authentication

variable {digest : Bytes → Bytes} {scalarMultBase : Bytes → Option Bytes} {es : List AuthEvent}
  {s t : Authentication} {i : Nat} {caller : ReauthCaller} {bytes : Bytes}

theorem Sound.put {h : Handler} (hs : s.Sound es) (hh : h.Sound es s.prfSalt.isSome) :
    (s.put i h).Sound es :=
  { hs with
    handlers := fun h' hh' => by
      obtain rfl | ⟨j, -, hj⟩ := Tasks.mem_set hh'
      · exact hh
      · exact hs.handlers h' (List.mem_of_getElem? hj) }

theorem Sound.start {h : Handler} (hs : s.Sound es) (hh : h.Sound es s.prfSalt.isSome) :
    (s.start h).Sound es :=
  { hs with
    handlers := fun h' hh' => by
      rcases List.mem_append.mp hh' with hh' | hh'
      · exact hs.handlers h' hh'
      · exact List.mem_singleton.mp hh' ▸ hh }

/-- A call of the session manager that makes no session. -/
theorem Sound.call {e : Event} (hs : s.Sound es) (he : ∀ bytes name, e ≠ .activateSession bytes name)
    (hprf : e = .setPrfAvailable → s.prfSalt.isSome = true) (hcall : s.call e = some t) :
    t.Sound es := by
  obtain ⟨manager, hstep, rfl⟩ := Option.map_eq_some_iff.mp hcall
  exact { hs with
    available := fun h => (Manager.prfAvailable_step hstep h).elim hs.available hprf
    sessions := fun session hsession => by
      obtain ⟨original, horiginal, hcopies⟩ | ⟨bytes, name, rfl, -⟩ :=
        Manager.has_of_step hstep hsession
      · obtain ⟨a, ha, hcopies'⟩ := hs.sessions original horiginal
        exact ⟨a, ha, hcopies.trans hcopies'⟩
      · exact absurd rfl (he bytes name)
    activations := fun a ha => (hs.activations a ha).later (Manager.now_step hstep) }

/-- A call of `activateSession`. -/
theorem Sound.activate {c : Cause} (hs : s.Sound es) (hc : c.Justified es)
    (hat : ∀ tuple reservedAt, c = .assertion tuple reservedAt →
      reservedAt = s.manager.browser.now)
    (hactivate : s.activate c bytes = some t) : t.Sound es := by
  obtain ⟨u, hcall, rfl⟩ := Option.map_eq_some_iff.mp hactivate
  obtain ⟨manager, hstep, rfl⟩ := Option.map_eq_some_iff.mp hcall
  have hnow := Manager.now_step hstep
  exact { hs with
    available := fun h => (Manager.prfAvailable_step hstep h).elim hs.available nofun
    sessions := fun session hsession => by
      obtain ⟨original, horiginal, hcopies⟩ | ⟨_, _, heq, rfl⟩ :=
        Manager.has_of_step hstep hsession
      · obtain ⟨a, ha, hcopies'⟩ := hs.sessions original horiginal
        exact ⟨a, List.mem_append_left _ ha, hcopies.trans hcopies'⟩
      · cases heq
        exact ⟨_, List.mem_append_right _ (List.mem_singleton_self _), .refl _⟩
    activations := fun a ha => by
      rcases List.mem_append.mp ha with ha | ha
      · exact (hs.activations a ha).later hnow
      · rw [List.mem_singleton.mp ha]
        exact ⟨hc, hnow, rfl, hat⟩ }

theorem Sound.settled {ok : Bool} (hs : s.Sound es) (h : s.settled caller ok = some t) :
    t.Sound es := by
  cases caller with
  | checkSession =>
    cases h
    exact hs
  | tryRestoreSession =>
    cases ok with
    | false => exact hs.call (e := .restorePersistedSession) (fun _ _ => nofun) nofun h
    | true =>
      cases h
      exact hs

/-- A step of `performSilentReauth`. -/
theorem Sound.reauth {pc : Reauth} (hs : s.Sound es) (hpc : pc.Sound es)
    (h : s.reauth scalarMultBase i caller bytes pc = some t) : t.Sound es := by
  have goOn {pc : Reauth} (h : some (s.put i (.performSilentReauth caller pc)) = some t)
      (hpc : pc.Sound es) : t.Sound es := by
    cases h
    exact hs.put hpc
  have finish {ok : Bool} (h : (s.put i .done).settled caller ok = some t) : t.Sound es :=
    Sound.settled (hs.put (h := .done) trivial) h
  rcases pc with (_ | prfAvailable) | (_ | saltBase64) | ⟨salt, _ | result⟩ |
    ⟨salt, prfKey, _ | cached⟩ | ⟨salt, prfKey, remoteStaticPublicKey⟩ | task
  case isPrfAvailable.none => exact goOn h trivial
  case isPrfAvailable.some =>
    simp only [Authentication.reauth] at h
    split at h
    · exact goOn h nofun
    · exact finish h
  case getPrfSalt.none =>
    exact goOn h fun saltBase64 hsalt => hs.salt saltBase64 hsalt
  case getPrfSalt.some =>
    simp only [Authentication.reauth] at h
    split at h
    · exact finish h
    next saltBase64' hsalt =>
      obtain ⟨rfl, hne⟩ := Option.filter_eq_some_iff.mp hsalt
      split at h
      next salt hatob =>
        obtain ⟨salt', hoffered, rfl⟩ := hpc _ rfl
        rw [Base64.atob_encode, Option.some.injEq] at hatob
        subst hatob
        refine goOn h ⟨⟨?_, hoffered⟩, nofun⟩
        rintro rfl
        simp [Base64.encode] at hne
      next =>
        cases h
        exact hs.put (h := .done) trivial
  case assertPrfCredential.none => cases h
  case assertPrfCredential.some =>
    cases result with
    | some prfOutput => exact goOn h ⟨hpc.1, hpc.2 prfOutput rfl, nofun⟩
    | none => exact finish h
  case getRemoteStatic.none => exact goOn h ⟨hpc.1, hpc.2.1, hs.device⟩
  case getRemoteStatic.some =>
    simp only [Authentication.reauth] at h
    split at h
    next remoteStaticPublicKey hcached =>
      obtain ⟨rfl, hne⟩ := Option.filter_eq_some_iff.mp hcached
      split at h
      · exact goOn h ⟨hpc.1, hpc.2.1, of_decide_eq_true hne, hpc.2.2 _ rfl⟩
      · exact finish h
    next => exact finish h
  case createOffscreenDocument =>
    have hput := hs.put (i := i)
      (h := .performSilentReauth caller (.activateSession s.manager.tasks.length)) trivial
    exact hput.activate (c := .reauth salt prfKey remoteStaticPublicKey) hpc (fun _ _ => nofun) h
  case activateSession =>
    simp only [Authentication.reauth] at h
    split at h
    · exact finish h
    · cases h

/-- A step of a handler. -/
theorem Sound.resume {handler : Handler} (hs : s.Sound es)
    (hhandler : handler.Sound es s.prfSalt.isSome)
    (h : s.resume scalarMultBase i bytes handler = some t) : t.Sound es := by
  have stored {saltBase64 : List Char} {handler : Handler} (hs : s.Sound es)
      (hsalt : ∃ salt, Offered es salt ∧ saltBase64 = Base64.encode salt)
      (hhandler : handler.Sound es true) :
      Sound es { s.put i handler with prfSalt := some saltBase64 } := by
    have hmore (h : Handler) (hh : h.Sound es s.prfSalt.isSome) : h.Sound es true := by
      cases h with
      | prfCredentialCreated => exact ⟨hh.1, fun _ => rfl⟩
      | _ => exact hh
    exact { hs with
      salt := fun saltBase64' hsalt' => Option.some.inj hsalt' ▸ hsalt
      available := fun _ => rfl
      handlers := fun h' hh' => by
        obtain rfl | ⟨j, -, hj⟩ := Tasks.mem_set hh'
        · exact hhandler
        · exact hmore h' (hs.handlers h' (List.mem_of_getElem? hj)) }
  rcases handler with ⟨caller, pc⟩ | ⟨credentialId, prfSalt, pc⟩ | ⟨credentialId, prfSalt, pc⟩ | _
  case performSilentReauth => exact hs.reauth hhandler h
  case prfCredentialCreated =>
    cases pc with
    | transmitCredentialToAndroid => cases h
    | cachePrfCredentialId =>
      cases h
      have hput := hs.put (i := i) (h := .prfCredentialCreated credentialId prfSalt .setPrfSalt)
        ⟨hhandler.1, nofun⟩
      exact { hput with }
    | setPrfSalt =>
      cases h
      exact stored hs ⟨prfSalt, hhandler.1, rfl⟩ ⟨hhandler.1, fun _ => rfl⟩
    | setPrfAvailable =>
      have hput := hs.put (i := i) (h := .done) trivial
      exact hput.call (e := .setPrfAvailable) (fun _ _ => nofun) (fun _ => hhandler.2 rfl) h
  case passkeyCredentialCreated =>
    cases pc with
    | transmitCredentialToAndroid =>
      cases h
      exact hs.put hhandler
    | cachePrfCredentialId =>
      cases prfSalt with
      | none =>
        cases h
        exact { hs.put (i := i) (h := .done) trivial with }
      | some salt =>
        cases h
        have hput := hs.put (i := i)
          (h := .passkeyCredentialCreated credentialId (some salt) .setPrfSalt) hhandler
        exact { hput with }
    | setPrfSalt =>
      cases h
      cases prfSalt with
      | none => exact { hs.put (i := i) (h := .done) trivial with }
      | some salt => exact stored hs ⟨salt, hhandler salt rfl, rfl⟩ trivial
    | setPrfAvailable => cases h
  case done => cases h

theorem Sound.init (now : Int) : Sound [] (init now) where
  waiting tuple htuple := by cases htuple
  salt saltBase64 hsalt := by cases hsalt
  available h := by cases h
  device cached hcached := by cases hcached
  handlers h hh := by cases hh
  sessions session hsession := by
    obtain ⟨key, hstored⟩ | ⟨t, ht, -⟩ := hsession
    · cases hstored
    · cases ht
  activations a ha := by cases ha

/-- The gate takes its tuples from assertions, and hands on one that it has activated. -/
theorem Sound.settle {checkedAt reservedAt : Int} {gate : MfaGate} (hs : s.Sound es)
    (hnow : s.manager.browser.now ≤ checkedAt)
    (hgate : s.gate.step digest (.settle i checkedAt reservedAt) = some gate) :
    Sound es { s with gate, manager.browser.now := gate.replay.now } ∧
      (∀ tuple ∈ s.gate.replay.waiting[i]?, Presented es tuple) ∧
      ∀ now, gate.outcomes.getLast? = some (.activated now) → now = gate.replay.now := by
  obtain ⟨hchecked, hwaiting, hlast⟩ := Auth.MfaGate.step_settle hgate
  refine ⟨{ hs with
    waiting := fun tuple htuple => ?_
    sessions := fun session hsession => hs.sessions session hsession
    activations := fun a ha => (hs.activations a ha).later (hnow.trans hchecked) }, ?_, hlast⟩
  · rw [hwaiting] at htuple
    exact hs.waiting tuple (List.mem_of_mem_eraseIdx htuple)
  · exact fun tuple htuple => hs.waiting tuple (List.mem_of_getElem? htuple)

/-- What one event keeps. -/
theorem Sound.step {e : AuthEvent} (hs : s.Sound es)
    (h : s.step digest scalarMultBase e = some t) : t.Sound (es ++ [e]) := by
  have hes : es ⊆ es ++ [e] := List.subset_append_left ..
  have hmem : e ∈ es ++ [e] := List.mem_append_right _ (List.mem_singleton_self e)
  replace hs := hs.mono hes
  cases e with
  | mfaAssertion a =>
    obtain ⟨gate, hgate, rfl⟩ := Option.map_eq_some_iff.mp h
    refine { hs with waiting := fun tuple htuple => ?_ }
    cases Auth.MfaGate.step_effect hgate with
    | refused => exact hs.waiting tuple htuple
    | admitted hcomplete =>
      rcases List.mem_append.mp htuple with htuple | htuple
      · exact hs.waiting tuple htuple
      · exact ⟨a, hmem, hcomplete, (List.mem_singleton.mp htuple).symm⟩
  | settle i checkedAt reservedAt bytes =>
    simp only [Authentication.step, Option.ite_none_right_eq_some] at h
    obtain ⟨hnow, h⟩ := h
    obtain ⟨gate, hgate, h⟩ := Option.bind_eq_some_iff.mp h
    obtain ⟨hsettled, hpresented, hat⟩ := hs.settle hnow hgate
    split at h
    next now tuple hlast htuple =>
      refine hsettled.activate (c := .assertion tuple now) (hpresented tuple htuple) ?_ h
      rintro _ _ ⟨⟩
      exact hat now hlast
    next =>
      cases h
      exact hsettled
  | prfCredentialCreated credentialId prfEnabled prfSalt =>
    simp only [Authentication.step] at h
    split at h
    next henabled =>
      cases h
      subst henabled
      exact hs.start ⟨⟨credentialId, .inl hmem⟩, nofun⟩
    next =>
      cases h
      exact hs
  | passkeyCredentialCreated credentialId prfEnabled prfSalt =>
    simp only [Authentication.step] at h
    split at h
    next henabled =>
      cases h
      subst henabled
      refine hs.start (h := .passkeyCredentialCreated ..) ?_
      rintro salt rfl
      exact ⟨credentialId, .inr hmem⟩
    next =>
      cases h
      exact hs
  | setDevice remoteStaticPublicKey =>
    cases h
    refine { hs with device := ?_ }
    rintro cached rfl
    exact hmem
  | performSilentReauth caller checkPrfSupport =>
    simp only [Authentication.step] at h
    split at h
    · cases h
      exact hs.start (h := .performSilentReauth caller (.isPrfAvailable none)) trivial
    · exact hs.settled h
  | assertPrfCredential i salt prfOutput =>
    simp only [Authentication.step] at h
    split at h
    next caller asked hhandler =>
      split at h
      next heq =>
        cases h
        subst heq
        have hasked := (hs.handlers _ (List.mem_of_getElem? hhandler)).1
        refine hs.put (h := .performSilentReauth caller (.assertPrfCredential asked _)) ⟨hasked, ?_⟩
        rintro prfKey hkey
        cases hkey
        exact ⟨i, hmem⟩
      next => cases h
    next => cases h
  | resume i bytes =>
    obtain ⟨handler, hhandler, h⟩ := Option.bind_eq_some_iff.mp h
    exact hs.resume (hs.handlers handler (List.mem_of_getElem? hhandler)) h
  | call e =>
    simp only [Authentication.step, Option.ite_none_right_eq_some] at h
    obtain ⟨hdirect, h⟩ := h
    exact hs.call (by rintro _ _ rfl; cases hdirect) (by rintro rfl; cases hdirect) h
  | restart =>
    simp only [Authentication.step] at h
    obtain ⟨u, hcall, rfl⟩ := Option.map_eq_some_iff.mp h
    have hu := hs.call (e := .restart) (fun _ _ => nofun) nofun hcall
    exact { hu with
      waiting := fun tuple htuple => by cases htuple
      handlers := fun h hh => by cases hh }
  | browserRestart =>
    simp only [Authentication.step] at h
    obtain ⟨u, hcall, rfl⟩ := Option.map_eq_some_iff.mp h
    have hu := hs.call (e := .browserRestart) (fun _ _ => nofun) nofun hcall
    exact { hu with
      waiting := fun tuple htuple => by cases htuple
      salt := fun saltBase64 hsalt => by cases hsalt
      available := fun havailable => by
        cases hcall
        cases havailable
      device := fun cached hcached => by cases hcached
      handlers := fun h hh => by cases hh }

/-- Whatever the order in which the handlers and the calls go on, and whenever the service worker or
the browser starts anew: a session that is stored, or that a call hands out, is that of one call of
`activateSession`, or a copy of it.  That call was made for a complete assertion, when its
reservation was made, or for what the authenticator gave for the salt of a credential, with a device
paired.  It was made five minutes ago at most, unless the session has run out.  And where
re-authentication is said to be available, there is such a salt. -/
theorem sessions_accounted {now : Int} (hrun : Run digest scalarMultBase (init now) es s) :
    (∀ session, s.manager.Has session → ∃ a ∈ s.activations,
      session.Copies a.2 ∧ Accounted es s.manager.browser.now a ∧
        (session.Live s.manager.browser.now →
          s.manager.browser.now ≤ a.2.mfaVerifiedAt + sessionTtlMs)) ∧
    (s.manager.browser.prfAvailable = true →
      ∃ salt, s.prfSalt = some (Base64.encode salt) ∧ Offered es salt) := by
  have hs : s.Sound es := by
    refine Machine.Run.history hrun (Sound.init now) ?_
    intro pre e post s t _ hs hstep
    exact hs.step hstep
  constructor
  · intro session hsession
    obtain ⟨a, ha, hcopies⟩ := hs.sessions session hsession
    have haccounted := hs.activations a ha
    refine ⟨a, ha, hcopies, haccounted, fun hlive => ?_⟩
    rw [← haccounted.expiry, ← hcopies.expiry]
    exact hlive
  · intro havailable
    obtain ⟨saltBase64, hsalt⟩ := Option.isSome_iff_exists.mp (hs.available havailable)
    obtain ⟨salt, hoffered, rfl⟩ := hs.salt saltBase64 hsalt
    exact ⟨salt, hsalt, hoffered⟩

section Sample

def samplePrfKey : Bytes := List.replicate 32 7

/-- The public key of `samplePrfKey`; nothing is known of other keys. -/
def samplePublicKey (secretKey : Bytes) : Option Bytes :=
  if secretKey = samplePrfKey then
    some [0x13, 0xbe, 0x4f, 0xea, 0xea, 0xf2, 0x04, 0xc7, 0xfd, 0x33, 0x58, 0xfc, 0x9c, 0x00, 0x72,
      0x18, 0x81, 0xd1, 0x74, 0x27, 0x81, 0x28, 0x22, 0x7e, 0xc6, 0x74, 0xf3, 0x7f, 0x7f, 0xe9,
      0x7b, 0x6d]
  else none

/-- A credential comes with its salt, a device is paired, and a re-authentication goes to its end. -/
def reauthenticated : List AuthEvent :=
  [.prfCredentialCreated [0x63] true [1, 2, 3], .resume 0 [], .resume 0 [], .resume 0 [],
    .setDevice (some [9]), .performSilentReauth .tryRestoreSession true, .resume 1 [], .resume 1 [],
    .resume 1 [], .resume 1 [], .assertPrfCredential 1 [1, 2, 3] (some samplePrfKey), .resume 1 [],
    .resume 1 [], .resume 1 [], .resume 1 (List.replicate 32 5), .call (.run 0)]

theorem sessions_accounted_sample :
    ∃ s session, Run Sha256.sha256 samplePublicKey (init 1) reauthenticated s ∧
      s.manager.Has session ∧ session.Live s.manager.browser.now ∧
      ∃ a ∈ s.activations, session.Copies a.2 ∧
        Accounted reauthenticated s.manager.browser.now a ∧
        s.manager.browser.now ≤ a.2.mfaVerifiedAt + sessionTtlMs := by
  let session : MfaSession :=
    { sessionToken := generateSessionToken (List.replicate 32 5), mfaVerifiedAt := 1
      expiry := 1 + sessionTtlMs, deviceName := none }
  obtain ⟨s, hrun, hs⟩ : ∃ s, Run Sha256.sha256 samplePublicKey (init 1) reauthenticated s ∧
      decide (s.manager.browser.stored .session = some session ∧ s.manager.browser.now = 1) = true :=
    Machine.exists_run_with (by decide +kernel)
  obtain ⟨hstored, hnow⟩ := of_decide_eq_true hs
  have hlive : session.Live s.manager.browser.now := by
    rw [hnow]
    decide
  have hhas : s.manager.Has session := .inl ⟨.session, hstored⟩
  obtain ⟨a, ha, hcopies, haccounted, hfresh⟩ := (sessions_accounted hrun).1 session hhas
  exact ⟨s, session, hrun, hhas, hlive, a, ha, hcopies, haccounted, hfresh hlive⟩

end Sample

end Authentication

end SmartIdVault.SessionManager
