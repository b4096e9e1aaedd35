import Mathlib.Data.List.Nodup
import SmartIdVault.Auth.Release
import SmartIdVault.Challenge.Contexts
import SmartIdVault.Lib.Json
import SmartIdVault.Lib.Machine
import SmartIdVault.Lib.Tasks

/-! The auth pages beside the handlers of the background: `handleChallengeAssert` of `auth/main.ts`
with `createAssertionRequest`.  A page asks for a signature on the challenge in its address and
sends it with what it finds in `pending:assertion`, where another flow may have written in the
meantime.  Such a message has components that do not hash to the challenge. -/

namespace SmartIdVault.Auth

open Challenge (ChallengeDerivationInput serializeChallengeComponents deriveChallenge)
open Transport (arrayFrom uint8Array uint8Array_arrayFrom)
open Utf16 (ofString)
open Utf8 (textEncode)

/-! ### The request for an assertion -/

/-- What is read of a `PublicKeyCredential` with an assertion. -/
structure PublicKeyCredential where
  rawId : Bytes
  authenticatorData : Bytes
  signature : Bytes
  clientDataJSON : Bytes
  deriving DecidableEq, Repr

/-- How the race of `navigator.credentials.get` and the timer of `withTimeout` ends. -/
inductive CredentialsGet
  | resolved (assertion : Option PublicKeyCredential)
  | rejected (message : Utf16)
  deriving DecidableEq, Repr

inductive AssertionRequestOutcome
  | success (data : PublicKeyCredential)
  | failure (error : Utf16) (timedOut : Bool)
  deriving DecidableEq, Repr

def biometricTimedOut : Utf16 := ofString "Biometric verification timed out"
def biometricCancelled : Utf16 := ofString "Biometric verification cancelled"

/-- `message.includes(part)`. -/
def includes (message part : Utf16) : Bool := message.tails.any fun rest => part.isPrefixOf rest

def createAssertionRequest : CredentialsGet → AssertionRequestOutcome
  | .resolved (some assertion) => .success assertion
  | .resolved none => .failure biometricCancelled false
  | .rejected message =>
    let isTimeout :=
      includes message (ofString "timed out") || includes message (ofString "Timed out")
    .failure (if isTimeout then biometricTimedOut else message) isTimeout

/-! ### The messages of a page -/

/-- The message with an assertion: what has been signed, and what was pending. -/
def verifiedData (pending : PendingAssertion) (data : PublicKeyCredential) : AssertionData where
  status := verified
  credentialId := some (Utf16.ofChars (Base64.encode data.rawId))
  tlvComponents := some pending.tlvComponents
  sessionNonce := some pending.sessionNonce
  origin := some pending.origin
  controlCode := some pending.controlCode
  authenticatorData := some (arrayFrom data.authenticatorData)
  signature := some (arrayFrom data.signature)
  clientDataJSON := some (arrayFrom data.clientDataJSON)

def failedData (timedOut : Bool) (error : Utf16) : AssertionData where
  status := ofString (if timedOut then "timeout" else "cancelled")
  error := some error

def errorData (error : Utf16) : AssertionData where
  status := ofString "error"
  error := some error

theorem failedData_status (timedOut : Bool) (error : Utf16) :
    (failedData timedOut error).status ≠ verified := by
  cases timedOut
  · show ofString "cancelled" ≠ verified
    decide
  · show ofString "timeout" ≠ verified
    decide

theorem errorData_status (error : Utf16) : (errorData error).status ≠ verified := by
  show ofString "error" ≠ verified
  decide

/-! ### Pages -/

/-- Where a page stands: before `pending:assertion`, the cached credential, the authenticator or the
answer to a message it has posted.  That message has an assertion, or an error, of the `catch` or
not. -/
inductive PageStage
  | reading
  | asking (pending : PendingAssertion)
  | verifying (pending : PendingAssertion) (allowCredentialId : Option Bytes)
  | relaying (post : Nat)
  | reporting (post : Nat) (caught : Bool)
  | closed
  deriving DecidableEq

/-- A page that has been loaded: in a tab, for a flow, with the challenge in its address. -/
structure AuthPage where
  tab : Nat
  flow : Nat
  challengeBytes : Bytes
  stage : PageStage
  deriving DecidableEq

/-- A message of a page, and the call that handles it once it has arrived. -/
structure Post where
  page : Nat
  data : AssertionData
  call : Option Nat := none
  deriving DecidableEq

/-- The background and the pages.  `prepared` has what flows have put together, and `addresses` that
of the flows which have asked for their tab; no code looks at these two. -/
structure Ceremony where
  background : State := {}
  prepared : List PendingAssertion := []
  addresses : List PendingAssertion := []
  pages : List AuthPage := []
  posted : List Post := []

/-- Something happens in the background; a page is loaded, also again; its read of the storage, its
question for the credential and its request end; a message arrives; the answer to one does; an await
of a page rejects. -/
inductive CeremonyEvent
  | background (e : Event)
  | loaded (address : Nat) (tab : Nat)
  | read (k : Nat)
  | asked (k : Nat) (rawId : Option Bytes)
  | credentials (k : Nat) (result : CredentialsGet)
  | arrived (m : Nat)
  | answered (k : Nat)
  | rejected (k : Nat) (message : Utf16)
  deriving DecidableEq

/-- The challenge in the address of a flow's tab, `btoa` of its bytes. -/
def PendingAssertion.challengeB64 (pending : PendingAssertion) : List Char :=
  Base64.encode (uint8Array pending.derivedChallenge)

/-- What a call has put together when it goes on to its write. -/
def State.preparedBy (t : State) : Event → Option PendingAssertion
  | .prepared i _ => t.calls[i]?.bind fun c =>
    match c.pc with
    | .storingPending pending _ => some pending
    | _ => none
  | _ => none

/-- The flow that goes on to ask for its tab. -/
def State.requestedBy (s : State) : Event → Option PendingAssertion
  | .resolve i => s.calls[i]?.bind fun c =>
    match c.pc with
    | .storingPending pending true => some pending
    | _ => none
  | _ => none

/-- A message of a page arrives. -/
def Event.isComplete : Event → Bool
  | .complete .. => true
  | _ => false

/-- What a call of `begin-challenge-assertion` makes the challenge and its components of. -/
def Prepared.input (values : Prepared) (origin : Utf16) : ChallengeDerivationInput where
  tlsBinding := values.tlsBindingHash
  origin := origin
  controlCode := values.controlCode.getD (ofString "0000")
  sessionNonce := values.sessionNonce

namespace Ceremony

variable (sha256 : Bytes → Bytes) (s : Ceremony)

def setStage (k : Nat) (page : AuthPage) (stage : PageStage) : Ceremony :=
  { s with pages := s.pages.set k { page with stage } }

/-- Page `k` sends a message and waits for the answer. -/
def post (k : Nat) (page : AuthPage) (data : AssertionData) (stage : Nat → PageStage) : Ceremony :=
  { s.setStage k page (stage s.posted.length) with posted := s.posted ++ [{ page := k, data }] }

/-- The page in a tab that is closed goes no further. -/
def closeTab : Event → List AuthPage
  | .tabRemoved id => s.pages.map fun page =>
    if page.tab = id then { page with stage := .closed } else page
  | _ => s.pages

/-- The challenge is that of `deriveChallenge`, if it makes one. -/
def derives : Event → Bool
  | .prepared i values =>
    match (s.background.calls[i]?).map Call.pc with
    | some (.preparing origin) =>
      match deriveChallenge sha256 (values.input origin) with
      | .ok challenge => values.derivedChallenge == challenge
      | .error _ => true
    | _ => true
  | _ => true

/-- A step of the background other than the arrival of a message. -/
def inBackground (e : Event) : Option Ceremony :=
  if e.isComplete || !s.derives sha256 e then none
  else (s.background.step e).map fun t =>
    { s with
      background := t
      prepared := s.prepared ++ (t.preparedBy e).toList
      addresses := s.addresses ++ (s.background.requestedBy e).toList
      pages := s.closeTab e }

/-- A page of a flow starts with the challenge of its address; there is always one, and `atob` takes
it. -/
def load (pending : PendingAssertion) (tab : Nat) : Option Ceremony :=
  if pending.challengeB64 = [] then none
  else (Base64.atob pending.challengeB64).map fun challengeBytes =>
    { s with
      pages := s.pages ++ [{ tab, flow := pending.flow, challengeBytes, stage := .reading }] }

def read (k : Nat) (page : AuthPage) : Option Ceremony :=
  match page.stage with
  | .reading => some (s.setStage k page (s.background.pending.elim .closed .asking))
  | _ => none

def asked (k : Nat) (page : AuthPage) (rawId : Option Bytes) : Option Ceremony :=
  match page.stage with
  | .asking pending => some (s.setStage k page (.verifying pending (rawId.filter (· ≠ []))))
  | _ => none

def credentials (k : Nat) (page : AuthPage) (result : CredentialsGet) : Option Ceremony :=
  match page.stage with
  | .verifying pending _ =>
    some (match createAssertionRequest result with
      | .success data => s.post k page (verifiedData pending data) .relaying
      | .failure error timedOut => s.post k page (failedData timedOut error) (.reporting · false))
  | _ => none

def arrived (m : Nat) (p : Post) (page : AuthPage) : Option Ceremony :=
  if p.call = none then
    some { s with
      background := s.background.complete page.flow p.data
      posted := s.posted.set m { p with call := some s.background.calls.length } }
  else none

/-- The response of the call that has handled a message. -/
def response (m : Nat) : Option Response :=
  (s.posted[m]?).bind fun p => p.call.bind fun n => s.background.calls[n]?.bind fun c =>
    match c.pc with
    | .ended response => some response
    | _ => none

def answered (k : Nat) (page : AuthPage) : Option Ceremony :=
  match page.stage with
  | .relaying m => (s.response m).map fun
    | .failure error =>
      s.post k page (errorData (error.getD State.transmissionFailed)) (.reporting · false)
    | .verified | .pending .. => s.setStage k page .closed
  | .reporting m _ => (s.response m).map fun _ => s.setStage k page .closed
  | _ => none

/-- `createAssertionRequest` does not reject, and the last message is sent without a look at what
becomes of it. -/
def rejected (k : Nat) (page : AuthPage) (message : Utf16) : Option Ceremony :=
  match page.stage with
  | .reading | .asking _ | .relaying _ | .reporting _ false =>
    some (s.post k page (errorData message) (.reporting · true))
  | .reporting _ true => some (s.setStage k page .closed)
  | .verifying .. | .closed => none

def step : CeremonyEvent → Option Ceremony
  | .background e => s.inBackground sha256 e
  | .loaded address tab => s.addresses[address]?.bind (s.load · tab)
  | .read k => s.pages[k]?.bind (s.read k)
  | .asked k rawId => s.pages[k]?.bind (s.asked k · rawId)
  | .credentials k result => s.pages[k]?.bind (s.credentials k · result)
  | .arrived m => s.posted[m]?.bind fun p => s.pages[p.page]?.bind (s.arrived m p)
  | .answered k => s.pages[k]?.bind (s.answered k)
  | .rejected k message => s.pages[k]?.bind (s.rejected k · message)

abbrev Run : Ceremony → List CeremonyEvent → Ceremony → Prop := Machine.Run (step sha256)

end Ceremony

/-! ### What the client signs -/

/-- The challenge in `clientDataJSON`. -/
def clientDataChallenge (clientDataJSON : Bytes) : Option Utf16 :=
  match (Json.parse (Utf8.textDecode clientDataJSON)).bind (·.field (ofString "challenge")) with
  | some (.str challenge) => some challenge
  | _ => none

/-- A client writes the challenge that it has been given into the client data. -/
def Ceremony.Conforms (s : Ceremony) : CeremonyEvent → Prop
  | .credentials k (.resolved (some data)) => ∀ page ∈ s.pages[k]?,
    clientDataChallenge data.clientDataJSON =
      some (Utf16.ofChars (Base64.encodeUrl page.challengeBytes))
  | _ => True

instance (s : Ceremony) : (e : CeremonyEvent) → Decidable (s.Conforms e)
  | .credentials k (.resolved (some data)) =>
    inferInstanceAs (Decidable (∀ page ∈ s.pages[k]?, clientDataChallenge data.clientDataJSON =
      some (Utf16.ofChars (Base64.encodeUrl page.challengeBytes))))
  | .credentials _ (.resolved none) | .credentials _ (.rejected _) | .background _ | .loaded ..
  | .read _ | .asked .. | .arrived _ | .answered _ | .rejected .. => isTrue trivial

/-- The components of a message hash to the challenge that has been signed. -/
def WebauthnAssertion.Verifies (sha256 : Bytes → Bytes) (m : WebauthnAssertion) : Prop :=
  clientDataChallenge (uint8Array m.clientDataJSON) =
    some (Utf16.ofChars (Base64.encodeUrl (sha256 (uint8Array m.tlvBytes))))

/-! ### What the background keeps -/

/-- A call that has gone past the point where it sends. -/
def Pc.past : Pc → Bool
  | .storingVerified _ | .removingPending _ | .storingFailure .. | .ended _ => true
  | _ => false

/-- `P` holds of what the call writes, and `D` of what it sends. -/
structure Call.Carries (P : PendingAssertion → Prop) (D : AssertionData → Prop) (c : Call) :
    Prop where
  storing : ∀ pending made, c.pc = .storingPending pending made → P pending
  waiting : c.pc = .initializing → ∀ flow data, c.kind = .complete flow data → D data
  sending : ∀ message, c.pc = .sending message → ∃ flow data now, c.kind = .complete flow data ∧
    D data ∧ data.message now = some message

theorem Call.carries_of_past {P : PendingAssertion → Prop} {D : AssertionData → Prop} {c : Call}
    (h : c.pc.past = true) : c.Carries P D where
  storing p made hpc := by simp [hpc, Pc.past] at h
  waiting hpc := by simp [hpc, Pc.past] at h
  sending message hpc := by simp [hpc, Pc.past] at h

namespace State

variable {P P' : PendingAssertion → Prop} {D D' : AssertionData → Prop} {s t : State} {e : Event}
  {c : Call} {i : Nat} {pc : Pc} {kind : Kind}

/-- What is pending and what has been sent, each by a call of its own. -/
structure Carries (P : PendingAssertion → Prop) (D : AssertionData → Prop) (s : State) : Prop where
  pending : ∀ p ∈ s.pending, P p
  calls : ∀ c ∈ s.calls, c.Carries P D
  sent : ∀ x ∈ s.sent, ∃ c, s.calls[x.1]? = some c ∧ c.pc.past = true ∧
    ∃ flow data now, c.kind = .complete flow data ∧ D data ∧ data.message now = some x.2
  once : (s.sent.map Prod.fst).Nodup

theorem Carries.init : ({} : State).Carries P D where
  pending p hp := by cases hp
  calls c hc := by cases hc
  sent x hx := by cases hx
  once := List.nodup_nil

theorem Carries.mono (h : s.Carries P D) (hP : ∀ p, P p → P' p) (hD : ∀ data, D data → D' data) :
    s.Carries P' D' := by
  refine ⟨fun p hp => hP p (h.pending p hp), fun c hc => ?_, fun x hx => ?_, h.once⟩
  · obtain ⟨hstoring, hwaiting, hsending⟩ := h.calls c hc
    refine ⟨fun p made hpc => hP p (hstoring p made hpc),
      fun hpc flow data hkind => hD data (hwaiting hpc flow data hkind), fun message hpc => ?_⟩
    obtain ⟨flow, data, now, hkind, hdata, hmessage⟩ := hsending message hpc
    exact ⟨flow, data, now, hkind, hD data hdata, hmessage⟩
  · obtain ⟨c, hc, hpast, flow, data, now, hkind, hdata, hmessage⟩ := h.sent x hx
    exact ⟨c, hc, hpast, flow, data, now, hkind, hD _ hdata, hmessage⟩

/-- Only the lock, the timer and the like are different. -/
theorem Carries.same (h : s.Carries P D) (hpending : t.pending = s.pending)
    (hcalls : t.calls = s.calls) (hsent : t.sent = s.sent) : t.Carries P D :=
  ⟨hpending ▸ h.pending, hcalls ▸ h.calls, by rw [hsent, hcalls]; exact h.sent, hsent ▸ h.once⟩

theorem Carries.add (h : s.Carries P D) (hc : Call.Carries P D ⟨kind, pc⟩) :
    (s.add kind pc).Carries P D := by
  refine ⟨h.pending, fun c' hc' => ?_, fun x hx => ?_, h.once⟩
  · rcases List.mem_append.mp hc' with hc' | hc'
    · exact h.calls c' hc'
    · obtain rfl := List.mem_singleton.mp hc'
      exact hc
  · obtain ⟨c', hc', hrest⟩ := h.sent x hx
    exact ⟨c', Tasks.get_append_of_get hc' _, hrest⟩

/-- A call goes on, and past the point where it sends when it has been there. -/
theorem Carries.put (h : s.Carries P D) (hi : s.calls[i]? = some c)
    (hc : Call.Carries P D { c with pc }) (hpast : c.pc.past = true → pc.past = true) :
    (s.put i c pc).Carries P D := by
  refine ⟨h.pending, fun c' hc' => ?_, fun x hx => ?_, h.once⟩
  · rcases Tasks.mem_set hc' with rfl | ⟨j, -, hj⟩
    · exact hc
    · exact h.calls c' (List.mem_of_getElem? hj)
  · obtain ⟨c', hc', hpast', hrest⟩ := h.sent x hx
    by_cases hx : x.1 = i
    · obtain rfl : c = c' := Option.some.inj (hi.symm.trans (hx ▸ hc'))
      exact ⟨{ c with pc }, hx ▸ Tasks.set_self hi _, hpast hpast', hrest⟩
    · exact ⟨c', Tasks.get_set_of_ne hx hc', hpast', hrest⟩

theorem Carries.goOn (h : s.Carries P D) (hi : s.calls[i]? = some c) (hpast : pc.past = true) :
    (s.put i c pc).Carries P D :=
  h.put hi (Call.carries_of_past hpast) fun _ => hpast

theorem Carries.writePending (h : s.Carries P D) {pending : Option PendingAssertion}
    (hp : ∀ p ∈ pending, P p) : ({ s with pending } : State).Carries P D :=
  ⟨hp, h.calls, h.sent, h.once⟩

/-- A call that is about to send has not sent before. -/
theorem Carries.send {message : WebauthnAssertion} (h : s.Carries P D)
    (hi : s.calls[i]? = some c) (hpc : c.pc = .sending message) :
    ({ s.put i c (.storingVerified false) with sent := s.sent ++ [(i, message)] } : State).Carries
      P D := by
  have hput : (s.put i c (.storingVerified false)).Carries P D := h.goOn hi rfl
  have hcall := (h.calls c (List.mem_of_getElem? hi)).sending message hpc
  refine ⟨hput.pending, hput.calls, fun x hx => ?_, ?_⟩
  · rcases List.mem_append.mp hx with hx | hx
    · exact hput.sent x hx
    · obtain rfl := List.mem_singleton.mp hx
      exact ⟨_, Tasks.set_self hi _, rfl, hcall⟩
  · have hfresh : i ∉ s.sent.map Prod.fst := by
      intro hmem
      obtain ⟨x, hx, rfl⟩ := List.mem_map.mp hmem
      obtain ⟨c', hc', hpast, -⟩ := h.sent x hx
      obtain rfl : c = c' := Option.some.inj (hi.symm.trans hc')
      rw [hpc] at hpast
      cases hpast
    simpa [List.nodup_append] using ⟨h.once, fun a b hab => by
      rintro rfl
      exact hfresh (List.mem_map.mpr ⟨_, hab, rfl⟩)⟩

theorem Carries.begin (h : s.Carries P D) (amount recipient : Option Utf16) (tab : SenderTab) :
    (s.begin amount recipient tab).Carries P D := by
  have hended (t : State) (ht : t.Carries P D) (response : Response) :
      (t.add (.begin amount recipient) (.ended response)).Carries P D :=
    ht.add (Call.carries_of_past rfl)
  have hlocked : ({ s with authInProgress := true, holder := some s.calls.length } :
      State).Carries P D := h.same rfl rfl rfl
  unfold State.begin
  split
  · exact hended s h _
  split
  · exact hended s h _
  dsimp only
  split
  · exact hended _ hlocked _
  split
  · exact hended (State.resetAuthInProgress _) (hlocked.same rfl rfl rfl) _
  split
  · exact hended _ hlocked _
  · exact hlocked.add ⟨nofun, nofun, nofun⟩

theorem Carries.complete (h : s.Carries P D) {flow : Nat} {data : AssertionData}
    (hdata : data.status = verified → D data) : (s.complete flow data).Carries P D := by
  have hcleared : s.clearAuthTimeout.Carries P D := h.same rfl rfl rfl
  unfold State.complete
  dsimp only
  split
  · exact hcleared.add (Call.carries_of_past rfl)
  next hstatus =>
    have hverified : data.status = verified := not_not.mp hstatus
    split
    · exact hcleared.add (Call.carries_of_past rfl)
    · refine hcleared.add ⟨nofun, fun _ flow' data' hkind => ?_, nofun⟩
      cases hkind
      exact hdata hverified

theorem Carries.beginFails (h : s.Carries P D) (hi : s.calls[i]? = some c)
    (message : Option Utf16) : (s.beginFails i c message).Carries P D := by
  have hput : (s.put i c (.ended (.failure (message.getD initiationFailed)))).Carries P D :=
    h.goOn hi rfl
  exact hput.same rfl rfl rfl

/-- Each step keeps what the background carries, if it gets no more than that. -/
theorem Carries.step (h : s.Carries P D) (hs : s.step e = some t)
    (hprepared : ∀ p ∈ t.preparedBy e, P p)
    (hcomplete : ∀ flow data, e = .complete flow data → data.status = verified → D data) :
    t.Carries P D := by
  cases e with
  | begin amount recipient tab =>
    cases hs
    exact h.begin amount recipient tab
  | complete flow data =>
    cases hs
    exact h.complete fun hverified => hcomplete flow data rfl hverified
  | prepared i values =>
    obtain ⟨c, hi, hs⟩ := Option.bind_eq_some_iff.mp hs
    unfold State.prepared at hs
    split at hs
    next amount recipient origin hkind hpc =>
      dsimp only at hs
      split at hs
      · cases hs
        exact h.beginFails hi _
      · cases hs
        refine h.put hi ⟨fun p made hp => ?_, nofun, nofun⟩ fun hpast => by
          simp [hpc, Pc.past] at hpast
        cases hp
        exact hprepared _ (by simp [State.preparedBy, State.put, Tasks.set_self hi])
    next => cases hs
  | transport i tm =>
    obtain ⟨c, hi, hs⟩ := Option.bind_eq_some_iff.mp hs
    unfold State.transport at hs
    split at hs
    next flow data hkind hpc =>
      split at hs
      · obtain ⟨message, hmessage, rfl⟩ := Option.map_eq_some_iff.mp hs
        have hdata := (h.calls c (List.mem_of_getElem? hi)).waiting hpc flow data hkind
        refine h.put hi ⟨nofun, nofun, fun message' hp => ?_⟩ fun hpast => by
          simp [hpc, Pc.past] at hpast
        cases hp
        exact ⟨flow, data, s.now, hkind, hdata, hmessage⟩
      · cases hs
        exact h.put hi ⟨nofun, nofun, nofun⟩ fun _ => rfl
    next => cases hs
  | serve i =>
    obtain ⟨c, hi, hs⟩ := Option.bind_eq_some_iff.mp hs
    unfold State.serve at hs
    split at hs
    next pending hpc =>
      cases hs
      have hp := (h.calls c (List.mem_of_getElem? hi)).storing pending false hpc
      have hput : (s.put i c (.storingPending pending true)).Carries P D := by
        refine h.put hi ⟨fun p made hq => ?_, nofun, nofun⟩ fun hpast => by
          simp [hpc, Pc.past] at hpast
        cases hq
        exact hp
      exact hput.writePending fun p hq => by cases hq; exact hp
    next =>
      cases hs
      have hput : (s.put i c (.storingVerified true)).Carries P D := h.goOn hi rfl
      exact hput.same rfl rfl rfl
    next =>
      cases hs
      have hput : (s.put i c (.removingPending true)).Carries P D := h.goOn hi rfl
      exact hput.writePending fun p hp => by cases hp
    next status error _ =>
      cases hs
      have hput : (s.put i c (.storingFailure status error true)).Carries P D := h.goOn hi rfl
      exact hput.same rfl rfl rfl
    next => cases hs
  | resolve i =>
    obtain ⟨c, hi, hs⟩ := Option.bind_eq_some_iff.mp hs
    unfold State.resolve at hs
    split at hs
    next hpc =>
      cases hs
      exact h.put hi ⟨nofun, nofun, nofun⟩ fun hpast => by simp [hpc, Pc.past] at hpast
    next message hpc =>
      cases hs
      exact h.send hi hpc
    next =>
      cases hs
      exact h.goOn hi rfl
    next =>
      cases hs
      have hput : (s.put i c (.ended .verified)).Carries P D := h.goOn hi rfl
      exact hput.same rfl rfl rfl
    next status error _ =>
      cases hs
      have hput : (s.put i c (.ended (.failure error))).Carries P D := h.goOn hi rfl
      exact hput.same rfl rfl rfl
    next => cases hs
  | tabCreated i id =>
    obtain ⟨c, hi, hs⟩ := Option.bind_eq_some_iff.mp hs
    unfold State.tabCreated at hs
    split at hs
    next origin controlCode _ =>
      cases hs
      have hput : (s.put i c (.ended (.pending origin controlCode))).Carries P D := h.goOn hi rfl
      exact hput.same rfl rfl rfl
    next => cases hs
  | reject i message =>
    obtain ⟨c, hi, hs⟩ := Option.bind_eq_some_iff.mp hs
    unfold State.reject at hs
    split at hs
    case h_9 => cases hs
    all_goals cases hs
    case h_1 | h_2 | h_3 => exact h.beginFails hi message
    all_goals exact h.goOn hi rfl
  | tabRemoved id =>
    cases hs
    split
    · exact h.same rfl rfl rfl
    · exact h
  | elapse ms =>
    obtain ⟨-, hs⟩ := Option.ite_none_right_eq_some.mp hs
    cases hs
    exact h.same rfl rfl rfl
  | timeout =>
    obtain ⟨-, hs⟩ := Option.ite_none_right_eq_some.mp hs
    cases hs
    split <;> exact h.same rfl rfl rfl

/-- What a flow that asks for its tab has written. -/
theorem Carries.requested (h : s.Carries P D) : ∀ p ∈ s.requestedBy e, P p := by
  intro p hp
  unfold State.requestedBy at hp
  split at hp
  next i =>
    obtain ⟨c, hc, hp⟩ := Option.bind_eq_some_iff.mp hp
    split at hp
    next pending hpc =>
      obtain rfl := Option.some.inj hp
      exact (h.calls c (List.mem_of_getElem? hc)).storing pending true hpc
    next => cases hp
  next => cases hp

theorem kinds_put (hi : s.calls[i]? = some c) (pc : Pc) :
    (s.put i c pc).calls.map Call.kind = s.calls.map Call.kind :=
  Tasks.map_set hi rfl

theorem kinds_add (kind : Kind) (pc : Pc) :
    (s.add kind pc).calls.map Call.kind = s.calls.map Call.kind ++ [kind] := by
  simp [State.add]

theorem kinds_begin (amount recipient : Option Utf16) (tab : SenderTab) :
    (s.begin amount recipient tab).calls.map Call.kind =
      s.calls.map Call.kind ++ [.begin amount recipient] := by
  unfold State.begin
  split
  · exact kinds_add _ _
  split
  · exact kinds_add _ _
  dsimp only
  split
  · exact kinds_add _ _
  split
  · exact kinds_add _ _
  split <;> exact kinds_add _ _

theorem kinds_complete (flow : Nat) (data : AssertionData) :
    (s.complete flow data).calls.map Call.kind =
      s.calls.map Call.kind ++ [.complete flow data] := by
  unfold State.complete
  dsimp only
  split
  · exact kinds_add _ _
  split <;> exact kinds_add _ _

/-- No step makes a call that handles a message, but the arrival of one. -/
theorem kinds_step (hs : s.step e = some t) (he : e.isComplete = false) :
    t.calls.map Call.kind = s.calls.map Call.kind ∨ ∃ amount recipient,
      t.calls.map Call.kind = s.calls.map Call.kind ++ [.begin amount recipient] := by
  cases e with
  | begin amount recipient tab =>
    cases hs
    exact .inr ⟨amount, recipient, kinds_begin amount recipient tab⟩
  | complete flow data => cases he
  | tabRemoved id =>
    cases hs
    left
    split <;> rfl
  | elapse ms =>
    obtain ⟨-, hs⟩ := Option.ite_none_right_eq_some.mp hs
    cases hs
    exact .inl rfl
  | timeout =>
    obtain ⟨-, hs⟩ := Option.ite_none_right_eq_some.mp hs
    cases hs
    left
    split <;> rfl
  | prepared i values =>
    obtain ⟨c, hi, hs⟩ := Option.bind_eq_some_iff.mp hs
    left
    unfold State.prepared at hs
    split at hs
    · dsimp only at hs
      split at hs <;> cases hs <;> exact kinds_put hi _
    · cases hs
  | transport i tm =>
    obtain ⟨c, hi, hs⟩ := Option.bind_eq_some_iff.mp hs
    left
    unfold State.transport at hs
    split at hs
    · split at hs
      · obtain ⟨message, -, rfl⟩ := Option.map_eq_some_iff.mp hs
        exact kinds_put hi _
      · cases hs
        exact kinds_put hi _
    · cases hs
  | serve i =>
    obtain ⟨c, hi, hs⟩ := Option.bind_eq_some_iff.mp hs
    left
    unfold State.serve at hs
    split at hs <;> cases hs <;> exact kinds_put hi _
  | resolve i =>
    obtain ⟨c, hi, hs⟩ := Option.bind_eq_some_iff.mp hs
    left
    unfold State.resolve at hs
    split at hs <;> cases hs <;> exact kinds_put hi _
  | tabCreated i id =>
    obtain ⟨c, hi, hs⟩ := Option.bind_eq_some_iff.mp hs
    left
    unfold State.tabCreated at hs
    split at hs <;> cases hs
    exact kinds_put hi _
  | reject i message =>
    obtain ⟨c, hi, hs⟩ := Option.bind_eq_some_iff.mp hs
    left
    unfold State.reject at hs
    split at hs <;> cases hs <;> exact kinds_put hi _

end State

/-! ### The invariant -/

/-- The values of a flow are those that its challenge has been derived from. -/
def PendingAssertion.Derived (sha256 : Bytes → Bytes) (p : PendingAssertion) : Prop :=
  ∃ input bytes, serializeChallengeComponents input = .ok bytes ∧
    p.tlvComponents = arrayFrom bytes ∧ p.derivedChallenge = arrayFrom (sha256 bytes) ∧
      p.sessionNonce = arrayFrom input.sessionNonce ∧ p.origin = input.origin ∧
        p.controlCode = input.controlCode

/-- What a page waits for comes after a message of its own, or it has none yet. -/
def PageStage.posting : PageStage → Bool
  | .reading | .asking _ | .verifying .. => false
  | .relaying _ | .reporting .. | .closed => true

def PageStage.pending : PageStage → Option PendingAssertion
  | .asking pending | .verifying pending _ => some pending
  | _ => none

namespace Ceremony

variable {sha256 : Bytes → Bytes} {s t : Ceremony} {data : AssertionData} {page : AuthPage}
  {k : Nat}

/-- The message of a page with the challenge of one flow that has found the components of one. -/
def Attested (s : Ceremony) (data : AssertionData) : Prop :=
  ∃ address ∈ s.addresses, ∃ pending ∈ s.prepared, ∃ credential : PublicKeyCredential,
    clientDataChallenge credential.clientDataJSON =
      some (Utf16.ofChars (Base64.encodeUrl (uint8Array address.derivedChallenge))) ∧
    data = verifiedData pending credential

/-- A page has the challenge of a flow that has asked for it, and a pending assertion that has been
prepared. -/
structure Loaded (s : Ceremony) (page : AuthPage) : Prop where
  address : ∃ p ∈ s.addresses, page.challengeBytes = uint8Array p.derivedChallenge
  pending : ∀ p ∈ page.stage.pending, p ∈ s.prepared

/-- A message is of a page that is past its request, and the call that handles it has its data. -/
structure Posted (s : Ceremony) (p : Post) : Prop where
  attested : p.data.status = verified → s.Attested p.data
  page : ∃ page, s.pages[p.page]? = some page ∧ page.stage.posting = true
  call : ∀ i ∈ p.call, ∃ flow, (s.background.calls.map Call.kind)[i]? = some (.complete flow p.data)

/-- The pages that have sent an assertion. -/
def verifiers (s : Ceremony) : List Nat :=
  (s.posted.filter (·.data.status = verified)).map Post.page

theorem verifiers_congr (h : t.posted.map (fun p => (p.page, p.data)) =
    s.posted.map fun p => (p.page, p.data)) : t.verifiers = s.verifiers := by
  have heq (s : Ceremony) : s.verifiers =
      ((s.posted.map fun p => (p.page, p.data)).filter (·.2.status = verified)).map Prod.fst := by
    rw [List.filter_map, List.map_map]
    rfl
  rw [heq, heq, h]

structure Sound (sha256 : Bytes → Bytes) (s : Ceremony) : Prop where
  derived : ∀ p ∈ s.prepared, p.Derived sha256
  background : s.background.Carries (· ∈ s.prepared) s.Attested
  addresses : ∀ p ∈ s.addresses, p ∈ s.prepared
  pages : ∀ page ∈ s.pages, s.Loaded page
  posted : ∀ p ∈ s.posted, s.Posted p
  called : ∀ i flow data, (s.background.calls.map Call.kind)[i]? = some (.complete flow data) →
    ∃ p ∈ s.posted, p.call = some i
  once : s.verifiers.Nodup

theorem Sound.init : ({} : Ceremony).Sound sha256 where
  derived p hp := by cases hp
  background := .init
  addresses p hp := by cases hp
  pages page hpage := by cases hpage
  posted p hp := by cases hp
  called i flow data hc := by simp at hc
  once := List.nodup_nil

theorem Attested.mono (h : s.Attested data) (haddresses : s.addresses ⊆ t.addresses)
    (hprepared : s.prepared ⊆ t.prepared) : t.Attested data := by
  obtain ⟨address, haddress, pending, hpending, credential, hchallenge, rfl⟩ := h
  exact ⟨address, haddresses haddress, pending, hprepared hpending, credential, hchallenge, rfl⟩

theorem Loaded.mono (h : s.Loaded page) (haddresses : s.addresses ⊆ t.addresses)
    (hprepared : s.prepared ⊆ t.prepared) : t.Loaded page := by
  obtain ⟨p, hp, hchallenge⟩ := h.address
  exact ⟨⟨p, haddresses hp, hchallenge⟩, fun q hq => hprepared (h.pending q hq)⟩

/-- A page goes on, and is past its request when it has been there. -/
theorem Sound.setStage {stage : PageStage} (h : s.Sound sha256) (hk : s.pages[k]? = some page)
    (hpending : ∀ p ∈ stage.pending, p ∈ s.prepared)
    (hposting : page.stage.posting = true → stage.posting = true) :
    (s.setStage k page stage).Sound sha256 := by
  have hloaded := h.pages page (List.mem_of_getElem? hk)
  refine ⟨h.derived, h.background, h.addresses, fun page' hpage' => ?_, fun p hp => ?_, h.called,
    h.once⟩
  · rcases Tasks.mem_set hpage' with rfl | ⟨j, -, hj⟩
    · exact ⟨hloaded.address, hpending⟩
    · have hold := h.pages page' (List.mem_of_getElem? hj)
      exact ⟨hold.address, hold.pending⟩
  · obtain ⟨hattested, ⟨page', hpage', hpast⟩, hcall⟩ := h.posted p hp
    refine ⟨hattested, ?_, hcall⟩
    by_cases hj : p.page = k
    · obtain rfl : page = page' := Option.some.inj (hk.symm.trans (hj ▸ hpage'))
      exact ⟨{ page with stage }, hj ▸ Tasks.set_self hk _, hposting hpast⟩
    · exact ⟨page', Tasks.get_set_of_ne hj hpage', hpast⟩

/-- A page sends a message: an assertion only as its first. -/
theorem Sound.post {stage : Nat → PageStage} (h : s.Sound sha256) (hk : s.pages[k]? = some page)
    (hstage : (stage s.posted.length).pending = none)
    (hposting : (stage s.posted.length).posting = true)
    (hdata : data.status = verified → s.Attested data ∧ page.stage.posting = false) :
    (s.post k page data stage).Sound sha256 := by
  have hset : (s.setStage k page (stage s.posted.length)).Sound sha256 :=
    h.setStage hk (by rw [hstage]; exact nofun) fun _ => hposting
  refine ⟨hset.derived, hset.background, hset.addresses, fun page' hpage' => ?_, fun p hp => ?_,
    fun i flow data' hc => ?_, ?_⟩
  · exact (hset.pages page' hpage').mono (List.Subset.refl _) (List.Subset.refl _)
  · rcases List.mem_append.mp hp with hp | hp
    · obtain ⟨hattested, hpage, hcall⟩ := hset.posted p hp
      exact ⟨hattested, hpage, hcall⟩
    · obtain rfl := List.mem_singleton.mp hp
      exact ⟨fun hverified => (hdata hverified).1, ⟨_, Tasks.set_self hk _, hposting⟩, nofun⟩
  · obtain ⟨p, hp, hcall⟩ := hset.called i flow data' hc
    exact ⟨p, List.mem_append_left _ hp, hcall⟩
  · have hverifiers : (s.post k page data stage).verifiers =
        s.verifiers ++ if data.status = verified then [k] else [] := by
      simp only [verifiers, Ceremony.post, List.filter_append, List.map_append, Ceremony.setStage]
      by_cases hverified : data.status = verified <;> simp [hverified]
    rw [hverifiers]
    split
    next hverified =>
      refine List.nodup_append.mpr ⟨h.once, by simp, ?_⟩
      -- page `k` has not sent anything before
      rintro j hj l hl rfl
      obtain rfl := List.mem_singleton.mp hl
      obtain ⟨p, hp, rfl⟩ := List.mem_map.mp hj
      obtain ⟨page', hpage', hpast⟩ := (h.posted p (List.mem_of_mem_filter hp)).page
      obtain rfl : page = page' := Option.some.inj (hk.symm.trans hpage')
      rw [(hdata hverified).2] at hpast
      cases hpast
    next => rw [List.append_nil]; exact h.once

theorem Posted.mono {p : Post} (h : s.Posted p) (haddresses : s.addresses ⊆ t.addresses)
    (hprepared : s.prepared ⊆ t.prepared)
    (hpages : ∀ (k : Nat) (page : AuthPage), s.pages[k]? = some page → page.stage.posting = true →
      ∃ page' : AuthPage, t.pages[k]? = some page' ∧ page'.stage.posting = true)
    (hkinds : ∃ new, t.background.calls.map Call.kind = s.background.calls.map Call.kind ++ new) :
    t.Posted p := by
  obtain ⟨page, hpage, hposting⟩ := h.page
  refine ⟨fun hverified => (h.attested hverified).mono haddresses hprepared,
    hpages p.page page hpage hposting, fun i hi => ?_⟩
  obtain ⟨flow, hflow⟩ := h.call i hi
  obtain ⟨new, hnew⟩ := hkinds
  have hlt := (List.getElem?_eq_some_iff.mp hflow).1
  exact ⟨flow, by rw [hnew, List.getElem?_append_left hlt, hflow]⟩

/-- What a call of `begin-challenge-assertion` has put together is derived as it should be. -/
theorem derived_of_prepared {e : Event} {b : State} (hs : s.background.step e = some b)
    (hderives : s.derives sha256 e = true) : ∀ p ∈ b.preparedBy e, p.Derived sha256 := by
  intro p hp
  cases e with
  | prepared i values =>
    obtain ⟨c, hi, hs⟩ := Option.bind_eq_some_iff.mp hs
    unfold State.prepared at hs
    split at hs
    next amount recipient origin hkind hpc =>
      simp only [derives, hi, Option.map_some, hpc, deriveChallenge, Prepared.input] at hderives
      dsimp only at hs
      split at hs
      next message hbytes =>
        cases hs
        simp [State.preparedBy, State.beginFails, State.resetAuthInProgress, State.clearAuthTimeout,
          State.put, Tasks.set_self hi] at hp
      next bytes hbytes =>
        cases hs
        simp only [State.preparedBy, State.put, Tasks.set_self hi, Option.bind_some,
          Option.mem_def, Option.some.injEq] at hp
        subst hp
        rw [hbytes] at hderives
        exact ⟨_, bytes, hbytes, rfl, congrArg arrayFrom (eq_of_beq hderives), rfl, rfl, rfl⟩
    next => cases hs
  | _ => cases hp

theorem mem_closeTab {e : Event} (h : page ∈ s.closeTab e) :
    page ∈ s.pages ∨ ∃ old ∈ s.pages, page = { old with stage := .closed } := by
  unfold closeTab at h
  split at h
  · obtain ⟨old, hold, rfl⟩ := List.mem_map.mp h
    split
    · exact .inr ⟨old, hold, rfl⟩
    · exact .inl hold
  · exact .inl h

theorem posting_closeTab {e : Event} (hk : s.pages[k]? = some page)
    (hposting : page.stage.posting = true) :
    ∃ page' : AuthPage, (s.closeTab e)[k]? = some page' ∧ page'.stage.posting = true := by
  unfold closeTab
  split
  · refine ⟨_, by rw [List.getElem?_map, hk, Option.map_some], ?_⟩
    split
    · rfl
    · exact hposting
  · exact ⟨page, hk, hposting⟩

theorem Sound.inBackground {e : Event} (h : s.Sound sha256)
    (hs : s.inBackground sha256 e = some t) : t.Sound sha256 := by
  unfold Ceremony.inBackground at hs
  split at hs
  · cases hs
  next hallowed =>
    simp only [Bool.or_eq_true, not_or, Bool.not_eq_true, Bool.not_eq_false'] at hallowed
    obtain ⟨hcomplete, hderives⟩ := hallowed
    obtain ⟨b, hb, ht⟩ := Option.map_eq_some_iff.mp hs
    have hbackground : t.background = b := by rw [← ht]
    have hposted : t.posted = s.posted := by rw [← ht]
    have hpages : t.pages = s.closeTab e := by rw [← ht]
    have hprepared : t.prepared = s.prepared ++ (b.preparedBy e).toList := by rw [← ht]
    have haddresses : t.addresses = s.addresses ++ (s.background.requestedBy e).toList := by
      rw [← ht]
    have hprepared' : s.prepared ⊆ t.prepared := hprepared ▸ List.subset_append_left _ _
    have haddresses' : s.addresses ⊆ t.addresses := haddresses ▸ List.subset_append_left _ _
    have hkinds : ∃ new, t.background.calls.map Call.kind =
        s.background.calls.map Call.kind ++ new ∧ ∀ flow data, .complete flow data ∉ new := by
      rw [hbackground]
      obtain hsame | ⟨amount, recipient, hnew⟩ := State.kinds_step hb hcomplete
      · exact ⟨[], by rw [hsame, List.append_nil], by simp⟩
      · exact ⟨_, hnew, by simp⟩
    obtain ⟨new, hnew, hbegins⟩ := hkinds
    refine ⟨?_, ?_, ?_, ?_, ?_, ?_, ?_⟩
    · intro p hp
      rw [hprepared] at hp
      rcases List.mem_append.mp hp with hp | hp
      · exact h.derived p hp
      · exact derived_of_prepared hb hderives p (Option.mem_toList.mp hp)
    · have hcarries : s.background.Carries (· ∈ t.prepared) t.Attested :=
        h.background.mono (fun _ hp => hprepared' hp) fun _ hdata =>
          hdata.mono haddresses' hprepared'
      rw [hbackground]
      refine hcarries.step hb (fun p hp => ?_) fun flow data he => ?_
      · rw [hprepared]
        exact List.mem_append_right _ (Option.mem_toList.mpr hp)
      · rw [he] at hcomplete
        cases hcomplete
    · intro p hp
      rw [haddresses] at hp
      rcases List.mem_append.mp hp with hp | hp
      · exact hprepared' (h.addresses p hp)
      · exact hprepared' (h.background.requested p (Option.mem_toList.mp hp))
    · intro page hpage
      rw [hpages] at hpage
      obtain hpage | ⟨old, hold, rfl⟩ := mem_closeTab hpage
      · exact (h.pages page hpage).mono haddresses' hprepared'
      · obtain ⟨p, hp, hchallenge⟩ := (h.pages old hold).address
        exact ⟨⟨p, haddresses' hp, hchallenge⟩, nofun⟩
    · intro p hp
      rw [hposted] at hp
      refine (h.posted p hp).mono haddresses' hprepared' (fun k page hk hposting => ?_) ⟨new, hnew⟩
      rw [hpages]
      exact posting_closeTab hk hposting
    · intro i flow data hi
      rw [hnew] at hi
      rw [hposted]
      by_cases hlt : i < (s.background.calls.map Call.kind).length
      · rw [List.getElem?_append_left hlt] at hi
        exact h.called i flow data hi
      · rw [List.getElem?_append_right (Nat.le_of_not_lt hlt)] at hi
        exact absurd (List.mem_of_getElem? hi) (hbegins flow data)
    · rw [verifiers, hposted]
      exact h.once

theorem Sound.load {address : PendingAssertion} {tab : Nat} (h : s.Sound sha256)
    (haddress : address ∈ s.addresses) (hs : s.load address tab = some t) : t.Sound sha256 := by
  unfold Ceremony.load at hs
  split at hs
  · cases hs
  rw [PendingAssertion.challengeB64, Base64.atob_encode] at hs
  cases hs
  refine ⟨h.derived, h.background, h.addresses, fun page hpage => ?_, fun p hp => ?_, h.called,
    h.once⟩
  · rcases List.mem_append.mp hpage with hpage | hpage
    · exact (h.pages page hpage).mono (List.Subset.refl _) (List.Subset.refl _)
    · obtain rfl := List.mem_singleton.mp hpage
      exact ⟨⟨address, haddress, rfl⟩, nofun⟩
  · refine (h.posted p hp).mono (List.Subset.refl _) (List.Subset.refl _)
      (fun k page hk hposting => ?_) ⟨[], (List.append_nil _).symm⟩
    exact ⟨page, Tasks.get_append_of_get hk _, hposting⟩

theorem Sound.credentials {result : CredentialsGet} (h : s.Sound sha256)
    (hk : s.pages[k]? = some page) (hclient : s.Conforms (.credentials k result))
    (hs : s.credentials k page result = some t) : t.Sound sha256 := by
  unfold Ceremony.credentials at hs
  split at hs
  next pending allowCredentialId hstage =>
    cases hs
    have hloaded := h.pages page (List.mem_of_getElem? hk)
    have hpending := hloaded.pending pending (by rw [hstage]; rfl)
    have hreport (error : Utf16) (timedOut : Bool) :
        (s.post k page (failedData timedOut error) (.reporting · false)).Sound sha256 :=
      h.post hk rfl rfl fun hverified => absurd hverified (failedData_status timedOut error)
    cases result with
    | rejected message => exact hreport _ _
    | resolved assertion =>
      cases assertion with
      | none => exact hreport _ _
      | some data =>
        refine h.post hk rfl rfl fun _ => ⟨?_, by rw [hstage]; rfl⟩
        obtain ⟨address, haddress, hchallenge⟩ := hloaded.address
        exact ⟨address, haddress, pending, hpending, data, hchallenge ▸ hclient page hk, rfl⟩
  next => cases hs

/-- A message that is on its way arrives. -/
theorem Sound.arrived {m : Nat} {p : Post} (h : s.Sound sha256) (hm : s.posted[m]? = some p)
    (hs : s.arrived m p page = some t) : t.Sound sha256 := by
  obtain ⟨hnone, hs⟩ := Option.ite_none_right_eq_some.mp hs
  cases hs
  have hp := h.posted p (List.mem_of_getElem? hm)
  have hkinds : (s.background.complete page.flow p.data).calls.map Call.kind =
      s.background.calls.map Call.kind ++ [.complete page.flow p.data] :=
    State.kinds_complete page.flow p.data
  have hlast : (s.background.calls.map Call.kind ++ [Kind.complete page.flow p.data])[
      s.background.calls.length]? = some (.complete page.flow p.data) := by
    simp
  refine ⟨h.derived, ?_, h.addresses, fun page' hpage' => ?_, fun q hq => ?_,
    fun i flow data hi => ?_, ?_⟩
  · exact (h.background.complete hp.attested).mono (fun _ hpending => hpending) fun _ hdata =>
      hdata.mono (List.Subset.refl _) (List.Subset.refl _)
  · exact (h.pages page' hpage').mono (List.Subset.refl _) (List.Subset.refl _)
  · have hkept {q : Post} (hq : q ∈ s.posted) := (h.posted q hq).mono (t := { s with
        background := s.background.complete page.flow p.data
        posted := s.posted.set m { p with call := some s.background.calls.length } })
      (List.Subset.refl _) (List.Subset.refl _) (fun _ page' hk hposting => ⟨page', hk, hposting⟩)
      ⟨_, hkinds⟩
    rcases Tasks.mem_set hq with rfl | ⟨j, -, hj⟩
    · obtain ⟨hattested, hpage, -⟩ := hkept (List.mem_of_getElem? hm)
      refine ⟨hattested, hpage, fun i hi => ⟨page.flow, ?_⟩⟩
      obtain rfl := Option.some.inj hi
      rw [hkinds]
      exact hlast
    · exact hkept (List.mem_of_getElem? hj)
  · rw [hkinds] at hi
    by_cases hlt : i < (s.background.calls.map Call.kind).length
    · rw [List.getElem?_append_left hlt] at hi
      obtain ⟨q, hq, hcall⟩ := h.called i flow data hi
      refine ⟨q, ?_, hcall⟩
      obtain ⟨j, hj⟩ := List.mem_iff_getElem?.mp hq
      refine Tasks.mem_set_of_ne (fun hjm => ?_) hj
      obtain rfl : p = q := Option.some.inj (hm.symm.trans (hjm ▸ hj))
      rw [hnone] at hcall
      cases hcall
    · have hlength := (List.getElem?_eq_some_iff.mp hi).1
      simp only [List.length_map, List.length_append, List.length_singleton] at hlt hlength
      exact ⟨_, Tasks.mem_set_self hm _, congrArg some (by omega)⟩
  · have hsame : (s.posted.set m { p with call := some s.background.calls.length }).map
        (fun q => (q.page, q.data)) = s.posted.map fun q => (q.page, q.data) :=
      Tasks.map_set hm rfl
    rw [verifiers_congr (s := s) hsame]
    exact h.once

theorem Sound.step {e : CeremonyEvent} (h : s.Sound sha256) (hclient : s.Conforms e)
    (hs : s.step sha256 e = some t) : t.Sound sha256 := by
  cases e with
  | background e => exact h.inBackground hs
  | loaded address tab =>
    obtain ⟨pending, haddress, hs⟩ := Option.bind_eq_some_iff.mp hs
    exact h.load (List.mem_of_getElem? haddress) hs
  | read k =>
    obtain ⟨page, hk, hs⟩ := Option.bind_eq_some_iff.mp hs
    unfold Ceremony.read at hs
    split at hs
    next hstage =>
      cases hs
      refine h.setStage hk (fun p hp => ?_) fun hposting => by
        simp [hstage, PageStage.posting] at hposting
      cases hpending : s.background.pending with
      | none =>
        rw [hpending] at hp
        cases hp
      | some pending =>
        rw [hpending] at hp
        cases hp
        exact h.background.pending _ hpending
    next => cases hs
  | asked k rawId =>
    obtain ⟨page, hk, hs⟩ := Option.bind_eq_some_iff.mp hs
    unfold Ceremony.asked at hs
    split at hs
    next pending hstage =>
      cases hs
      have hloaded := h.pages page (List.mem_of_getElem? hk)
      refine h.setStage hk (fun p hp => ?_) fun hposting => by
        simp [hstage, PageStage.posting] at hposting
      cases hp
      exact hloaded.pending _ (by rw [hstage]; rfl)
    next => cases hs
  | credentials k result =>
    obtain ⟨page, hk, hs⟩ := Option.bind_eq_some_iff.mp hs
    exact h.credentials hk hclient hs
  | arrived m =>
    obtain ⟨p, hm, hs⟩ := Option.bind_eq_some_iff.mp hs
    obtain ⟨page, -, hs⟩ := Option.bind_eq_some_iff.mp hs
    exact h.arrived hm hs
  | answered k =>
    obtain ⟨page, hk, hs⟩ := Option.bind_eq_some_iff.mp hs
    unfold Ceremony.answered at hs
    split at hs
    next m hstage =>
      obtain ⟨response, -, rfl⟩ := Option.map_eq_some_iff.mp hs
      cases response with
      | failure error =>
        exact h.post hk rfl rfl fun hverified => absurd hverified (errorData_status _)
      | verified | pending => exact h.setStage hk nofun fun _ => rfl
    next m caught hstage =>
      obtain ⟨response, -, rfl⟩ := Option.map_eq_some_iff.mp hs
      exact h.setStage hk nofun fun _ => rfl
    next => cases hs
  | rejected k message =>
    obtain ⟨page, hk, hs⟩ := Option.bind_eq_some_iff.mp hs
    unfold Ceremony.rejected at hs
    split at hs
    all_goals cases hs
    case h_5 => exact h.setStage hk nofun fun _ => rfl
    all_goals exact h.post hk rfl rfl fun hverified => absurd hverified (errorData_status _)

/-! ### What is handed to a transport -/

/-- The page whose message call `i` handles. -/
def sender (s : Ceremony) (i : Nat) : Option Nat :=
  (s.posted.find? (·.call = some i)).map Post.page

theorem message_eq {data : AssertionData} {now : Nat} {message : WebauthnAssertion}
    (h : data.message now = some message) :
    data.tlvComponents = some message.tlvBytes ∧ data.sessionNonce = some message.sessionNonce ∧
      data.origin = some message.origin ∧ data.controlCode = some message.controlCode ∧
      data.clientDataJSON = some message.clientDataJSON := by
  simp only [AssertionData.message, text, Option.bind_eq_bind, Option.bind_eq_some_iff,
    Option.filter_eq_some_iff, Option.pure_def, Option.some.injEq] at h
  obtain ⟨-, -, tlvBytes, htlv, nonce, hnonce, origin, ⟨horigin, -⟩, code, ⟨hcode, -⟩, -, -, -, -,
    clientDataJSON, hclient, rfl⟩ := h
  exact ⟨htlv, hnonce, horigin, hcode, hclient⟩

/-- The message of call `i` comes from the page that `sender` says, as an assertion. -/
theorem Sound.exists_post (h : s.Sound sha256) {x : Nat × WebauthnAssertion}
    (hx : x ∈ s.background.sent) : ∃ p ∈ s.posted, p.call = some x.1 ∧
      s.sender x.1 = some p.page ∧ p.data.status = verified ∧ s.Attested p.data ∧
      ∃ now, p.data.message now = some x.2 := by
  obtain ⟨c, hc, -, flow, data, now, hkind, hdata, hmessage⟩ := h.background.sent x hx
  have hcall : (s.background.calls.map Call.kind)[x.1]? = some (.complete flow data) := by
    rw [List.getElem?_map, hc, Option.map_some, hkind]
  obtain ⟨q, hq, hqcall⟩ := h.called x.1 flow data hcall
  have hfound : (s.posted.find? (·.call = some x.1)).isSome := by
    rw [List.find?_isSome]
    exact ⟨q, hq, decide_eq_true hqcall⟩
  obtain ⟨p, hp⟩ := Option.isSome_iff_exists.mp hfound
  have hpcall := List.find?_some hp
  simp only [decide_eq_true_eq] at hpcall
  have hmem := List.mem_of_find?_eq_some hp
  obtain ⟨flow', hflow⟩ := (h.posted p hmem).call x.1 hpcall
  have hsame : Kind.complete flow data = Kind.complete flow' p.data :=
    Option.some.inj (hcall.symm.trans hflow)
  injection hsame with _ hsame
  subst hsame
  have hverified : p.data.status = verified := by
    obtain ⟨address, -, pending, -, credential, -, hpdata⟩ := hdata
    rw [hpdata]
    rfl
  exact ⟨p, hmem, hpcall, by rw [sender, hp, Option.map_some], hverified, hdata, now, hmessage⟩

/-- Two assertions that are handed over come from two pages. -/
theorem Sound.senders_nodup (h : s.Sound sha256) :
    (s.background.sent.map fun x => s.sender x.1).Nodup := by
  have hdistinct : s.background.sent.Nodup := .of_map Prod.fst h.background.once
  refine hdistinct.map_on fun x hx y hy hsenders => ?_
  obtain ⟨p, hp, hpcall, hpsender, hpverified, -⟩ := h.exists_post hx
  obtain ⟨q, hq, hqcall, hqsender, hqverified, -⟩ := h.exists_post hy
  have hpages : p.page = q.page := Option.some.inj (hpsender.symm.trans (hsenders.trans hqsender))
  have hpq : p = q :=
    List.inj_on_of_nodup_map h.once (List.mem_filter.mpr ⟨hp, decide_eq_true hpverified⟩)
      (List.mem_filter.mpr ⟨hq, decide_eq_true hqverified⟩) hpages
  have hcalls : x.1 = y.1 := Option.some.inj (hpcall.symm.trans (hpq ▸ hqcall))
  exact List.inj_on_of_nodup_map h.background.once hx hy hcalls

/-- The address whose challenge has been signed. -/
def SignedFor (m : WebauthnAssertion) (address : PendingAssertion) : Prop :=
  clientDataChallenge (uint8Array m.clientDataJSON) =
    some (Utf16.ofChars (Base64.encodeUrl (uint8Array address.derivedChallenge)))

/-- The message shows what a flow has prepared. -/
structure Shows (m : WebauthnAssertion) (pending : PendingAssertion) : Prop where
  tlvBytes : m.tlvBytes = pending.tlvComponents
  sessionNonce : m.sessionNonce = pending.sessionNonce
  origin : m.origin = pending.origin
  controlCode : m.controlCode = pending.controlCode

theorem Attested.of_message {now : Nat} {message : WebauthnAssertion} (h : s.Attested data)
    (hmessage : data.message now = some message) :
    ∃ address ∈ s.addresses, ∃ pending ∈ s.prepared, SignedFor message address ∧
      Shows message pending := by
  obtain ⟨address, haddress, pending, hpending, credential, hchallenge, rfl⟩ := h
  obtain ⟨htlv, hnonce, horigin, hcode, hclient⟩ := message_eq hmessage
  refine ⟨address, haddress, pending, hpending, ?_, (Option.some.inj htlv).symm,
    (Option.some.inj hnonce).symm, (Option.some.inj horigin).symm, (Option.some.inj hcode).symm⟩
  have hclient : arrayFrom credential.clientDataJSON = message.clientDataJSON :=
    Option.some.inj hclient
  rw [SignedFor, ← hclient, uint8Array_arrayFrom]
  exact hchallenge

theorem ofChars_inj {cs ds : List Char} (h : Utf16.ofChars cs = Utf16.ofChars ds) : cs = ds := by
  rw [← Utf16.chars_ofChars '?' cs, h, Utf16.chars_ofChars]

/-- An assertion that has been signed for one flow and shows another verifies only if their
components have the same hash. -/
theorem verifies_iff {m : WebauthnAssertion} {address pending : PendingAssertion}
    (hsigned : SignedFor m address) (hshows : Shows m pending)
    (haddress : address.Derived sha256) :
    m.Verifies sha256 ↔ sha256 (uint8Array pending.tlvComponents) =
      sha256 (uint8Array address.tlvComponents) := by
  obtain ⟨input, bytes, -, htlv, hderived, -⟩ := haddress
  rw [WebauthnAssertion.Verifies, hsigned, hshows.tlvBytes, htlv, hderived, uint8Array_arrayFrom,
    uint8Array_arrayFrom]
  constructor
  · intro h
    exact (Base64.encodeUrl_inj (ofChars_inj (Option.some.inj h))).symm
  · intro h
    rw [h]

/-- Flows with the same components have the same values. -/
theorem values_of_tlvComponents {p q : PendingAssertion} (hp : p.Derived sha256)
    (hq : q.Derived sha256) (h : p.tlvComponents = q.tlvComponents) :
    textEncode p.origin = textEncode q.origin ∧
      textEncode p.controlCode = textEncode q.controlCode ∧ p.sessionNonce = q.sessionNonce := by
  obtain ⟨input, bytes, hbytes, htlv, -, hnonce, horigin, hcode⟩ := hp
  obtain ⟨input', bytes', hbytes', htlv', -, hnonce', horigin', hcode'⟩ := hq
  have hsame : bytes = bytes' := by
    rw [← uint8Array_arrayFrom bytes, ← htlv, h, htlv', uint8Array_arrayFrom]
  obtain ⟨hproof, hc, hn, hlayout⟩ := Challenge.serializeChallengeComponents_ok hbytes
  obtain ⟨hproof', hc', hn', hlayout'⟩ := Challenge.serializeChallengeComponents_ok hbytes'
  rw [hlayout, hlayout'] at hsame
  obtain ⟨-, ho, hcodes, hnonces⟩ := Challenge.layout_inj hproof hproof' hc hc' hn hn' hsame
  rw [horigin, horigin', hcode, hcode', hnonce, hnonce', hnonces]
  exact ⟨ho, hcodes, rfl⟩

/-- **One page, one assertion, of one flow.**  However the pages, their tabs and the handlers
interleave, the assertions that are handed to a transport come from different pages.  Each has been
signed for a flow that has asked for its tab, and one whose components hash to the challenge that
has been signed shows the origin, the code and the nonce of that flow, unless two flows have
components with the same hash. -/
theorem assertions_of_one_flow {es : List CeremonyEvent} (hrun : Run sha256 {} es s)
    (hclient : Machine.Throughout (Ceremony.step sha256) Conforms {} es)
    (hsha : ∀ p ∈ s.prepared, ∀ q ∈ s.prepared,
      sha256 (uint8Array p.tlvComponents) = sha256 (uint8Array q.tlvComponents) →
        p.tlvComponents = q.tlvComponents) :
    (s.background.sent.map fun x => s.sender x.1).Nodup ∧
      ∀ x ∈ s.background.sent, (s.sender x.1).isSome ∧ ∃ address ∈ s.addresses,
        SignedFor x.2 address ∧ (x.2.Verifies sha256 →
          textEncode x.2.origin = textEncode address.origin ∧
            textEncode x.2.controlCode = textEncode address.controlCode ∧
              x.2.sessionNonce = address.sessionNonce) := by
  have hs : s.Sound sha256 :=
    hrun.invariant (I := Sound sha256) .init hclient fun _ _ _ h hG hstep => h.step hG hstep
  refine ⟨hs.senders_nodup, fun x hx => ?_⟩
  obtain ⟨p, -, -, hsender, -, hattested, now, hmessage⟩ := hs.exists_post hx
  obtain ⟨address, haddress, pending, hpending, hsigned, hshows⟩ := hattested.of_message hmessage
  have hprepared := hs.addresses address haddress
  refine ⟨by rw [hsender]; rfl, address, haddress, hsigned, fun hverifies => ?_⟩
  have hderived := hs.derived address hprepared
  have hhash := (verifies_iff hsigned hshows hderived).mp hverifies
  have hsame := hsha pending hpending address hprepared hhash
  rw [hshows.origin, hshows.controlCode, hshows.sessionNonce]
  exact values_of_tlvComponents (hs.derived pending hpending) hderived hsame

/-- What `begin-challenge-assertion` makes of the page of a bank, with its challenge. -/
def samplePrepared : Prepared :=
  { pin with
    derivedChallenge := match deriveChallenge Sha256.sha256 (pin.input (ofString
        "https://bank.example")) with
      | .ok challenge => challenge
      | .error _ => [] }

def sampleCredential : PublicKeyCredential where
  rawId := [1, 2]
  authenticatorData := [3]
  signature := [4]
  clientDataJSON := textEncode (ofString "\x7b\"challenge\":\"" ++
    Utf16.ofChars (Base64.encodeUrl samplePrepared.derivedChallenge) ++ ofString "\"\x7d")

/-- The auth page is loaded twice; the second page is answered, and the first is closed. -/
def sampleCeremony : List CeremonyEvent :=
  [.background (.begin none none bank), .background (.prepared 0 samplePrepared),
    .background (.serve 0), .background (.resolve 0), .background (.tabCreated 0 (some 7)),
    .loaded 0 7, .read 0, .loaded 0 7, .read 1, .asked 1 none,
    .credentials 1 (.resolved (some sampleCredential)), .arrived 0,
    .background (.transport 1 true), .background (.resolve 1), .background (.serve 1),
    .background (.resolve 1), .background (.serve 1), .background (.resolve 1), .answered 1,
    .background (.tabRemoved 7)]

theorem assertions_of_one_flow_sample :
    ∃ s, Run Sha256.sha256 {} sampleCeremony s ∧
      s.background.sent.map (fun x => s.sender x.1) = [some 1] ∧
      (s.background.sent.map fun x => s.sender x.1).Nodup ∧
        ∀ x ∈ s.background.sent, (s.sender x.1).isSome ∧ ∃ address ∈ s.addresses,
          SignedFor x.2 address ∧ (x.2.Verifies Sha256.sha256 →
            textEncode x.2.origin = textEncode address.origin ∧
              textEncode x.2.controlCode = textEncode address.controlCode ∧
                x.2.sessionNonce = address.sessionNonce) := by
  have hexec : (Machine.exec (Ceremony.step Sha256.sha256) {} sampleCeremony).any (fun s =>
      s.background.sent.map (fun x => s.sender x.1) = [some 1] ∧ s.prepared.length = 1) = true := by
    decide +kernel
  obtain ⟨s, hrun, hs⟩ := Machine.exists_run_with hexec
  obtain ⟨hsenders, hlength⟩ := of_decide_eq_true hs
  obtain ⟨p, hp⟩ := List.length_eq_one_iff.mp hlength
  refine ⟨s, hrun, hsenders, assertions_of_one_flow hrun (by decide +kernel) ?_⟩
  rw [hp]
  intro q hq r hr _
  rw [List.mem_singleton.mp hq, List.mem_singleton.mp hr]

end Ceremony

end SmartIdVault.Auth
