import SmartIdVault.Challenge.Serialize
import SmartIdVault.Transport.WebRtc

/-! The challenge-bound assertion in `messageHandlers.ts`: `begin-challenge-assertion`, which opens
the auth tab, `assertion-complete`, which comes from there, and the lock, the tab and the timer that
they share, at each of their awaits.  Time is in milliseconds, and a timer fires when it is due. -/

namespace SmartIdVault.Auth

open Challenge (ChallengeDerivationInput serializeChallengeComponents)
open Transport (arrayFrom)
open Utf16 (ofString)

def authTimeoutMs : Nat := 120000

/-- `sender.tab`, with what `new URL(url).origin` makes of its address, or its error. -/
structure SenderTab where
  id : Option Nat
  url : Option Utf16
  origin : Except Utf16 Utf16
  deriving DecidableEq

/-- `pending:assertion`, with the flow that has written it: the number of its call. -/
structure PendingAssertion where
  flow : Nat
  derivedChallenge : List Nat
  tlvComponents : List Nat
  sessionNonce : List Nat
  origin : Utf16
  controlCode : Utf16
  rpId : Utf16
  secFetchSite : Utf16
  contentHash : Utf16
  amount : Option Utf16
  recipient : Option Utf16
  deriving DecidableEq, Repr

/-- What `begin-challenge-assertion` gets from its awaits before it writes: the code of the page,
the proof, the nonce, and the results of `deriveChallenge` and `getTlsBindingComponents`. -/
structure Prepared where
  controlCode : Option Utf16
  tlsBindingHash : Bytes
  sessionNonce : Bytes
  derivedChallenge : Bytes
  rpId : Utf16
  secFetchSite : Utf16
  contentHash : Utf16
  deriving DecidableEq, Repr

/-- The payload of `assertion-complete`. -/
structure AssertionData where
  status : Utf16
  error : Option Utf16 := none
  credentialId : Option Utf16 := none
  tlvComponents : Option (List Nat) := none
  sessionNonce : Option (List Nat) := none
  origin : Option Utf16 := none
  controlCode : Option Utf16 := none
  authenticatorData : Option (List Nat) := none
  signature : Option (List Nat) := none
  clientDataJSON : Option (List Nat) := none
  deriving DecidableEq, Repr

/-- `webauthn-assertion`, as it is handed to the transport. -/
structure WebauthnAssertion where
  credentialId : Utf16
  tlvBytes : List Nat
  authenticatorData : List Nat
  signature : List Nat
  clientDataJSON : List Nat
  sessionNonce : List Nat
  origin : Utf16
  controlCode : Utf16
  timestamp : Nat
  deriving DecidableEq, Repr

/-- `assertion:result`. -/
inductive AssertionResult where
  | verified
  | failed (status error : Utf16)
  deriving DecidableEq, Repr

inductive Response where
  | pending (origin controlCode : Utf16)
  | verified
  | failure (error : Option Utf16)
  deriving DecidableEq, Repr

def verified : Utf16 := ofString "verified"

/-- A string that is there and not empty. -/
def text (o : Option Utf16) : Option Utf16 := o.filter (· ≠ [])

/-- What is sent of a complete payload; the check passes arrays that are empty. -/
def AssertionData.message (data : AssertionData) (now : Nat) : Option WebauthnAssertion := do
  let credentialId ← text data.credentialId
  let tlvBytes ← data.tlvComponents
  let sessionNonce ← data.sessionNonce
  let origin ← text data.origin
  let controlCode ← text data.controlCode
  let authenticatorData ← data.authenticatorData
  let signature ← data.signature
  let clientDataJSON ← data.clientDataJSON
  return { credentialId, tlvBytes, authenticatorData, signature, clientDataJSON, sessionNonce,
           origin, controlCode, timestamp := now / 1000 }

/-! ### Calls and state -/

/-- A call: of `begin-challenge-assertion`, with `transactionData`, or of `assertion-complete`, with
the flow whose auth tab sent it, which the handler does not look at. -/
inductive Kind where
  | begin (amount recipient : Option Utf16)
  | complete (flow : Nat) (data : AssertionData)
  deriving DecidableEq

/-- Where a call stands.  `storingFailure` is the write of a result that is not `verified`, in the
early branches of `assertion-complete` and in its `catch`.  A write has been made in storage or not.
-/
inductive Pc where
  | preparing (origin : Utf16)
  | storingPending (pending : PendingAssertion) (made : Bool)
  | creatingTab (origin controlCode : Utf16)
  | initializing
  | sending (message : WebauthnAssertion)
  | storingVerified (made : Bool)
  | removingPending (made : Bool)
  | storingFailure (status error : Utf16) (made : Bool)
  | ended (response : Response)
  deriving DecidableEq

def Pc.running : Pc → Bool
  | .ended _ => false
  | _ => true

structure Call where
  kind : Kind
  pc : Pc
  deriving DecidableEq

/-- `timer` is when the timer of `authTimeoutHandle` fires, as long as it has not.  `sent` has what
calls have handed to a transport, `holder` is the call that has taken the lock, and `consumed` has
the flows whose pending assertion was there when a result `verified` was stored; no handler looks at
these three. -/
structure State where
  authInProgress : Bool := false
  authTabId : Option Nat := none
  timer : Option Nat := none
  now : Nat := 0
  pending : Option PendingAssertion := none
  result : Option AssertionResult := none
  sent : List (Nat × WebauthnAssertion) := []
  calls : List Call := []
  holder : Option Nat := none
  consumed : List Nat := []
  deriving DecidableEq

/-- A message arrives; the awaits before the first write end; `initializeTransportManager` resolves,
with a manager or not; storage takes up the write of a call; the write, or the `send`, of a call
resolves; the auth tab is there; an await of a call rejects, with an `Error` or another value; a tab
is closed; time passes; the timer fires. -/
inductive Event where
  | begin (amount recipient : Option Utf16) (tab : SenderTab)
  | complete (flow : Nat) (data : AssertionData)
  | prepared (i : Nat) (values : Prepared)
  | transport (i : Nat) (tm : Bool)
  | serve (i : Nat)
  | resolve (i : Nat)
  | tabCreated (i : Nat) (id : Option Nat)
  | reject (i : Nat) (message : Option Utf16)
  | tabRemoved (id : Nat)
  | elapse (ms : Nat)
  | timeout
  deriving DecidableEq

namespace State

def put (s : State) (i : Nat) (c : Call) (pc : Pc) : State :=
  { s with calls := s.calls.set i { c with pc } }

def add (s : State) (kind : Kind) (pc : Pc) : State := { s with calls := s.calls ++ [⟨kind, pc⟩] }

def clearAuthTimeout (s : State) : State := { s with timer := none }

def resetAuthInProgress (s : State) : State :=
  { s.clearAuthTimeout with authInProgress := false, authTabId := none, holder := none }

def alreadyInProgress : Utf16 := ofString "Authentication already in progress"
def noSenderTab : Utf16 := ofString "No sender tab"
def noOrigin : Utf16 := ofString "Cannot determine origin from sender tab"
def initiationFailed : Utf16 := ofString "Assertion initiation failed"
def assertionFailed : Utf16 := ofString "Assertion failed"
def incompleteData : Utf16 := ofString "Incomplete assertion data"
def transmissionFailed : Utf16 := ofString "Transmission failed"

/-- `begin-challenge-assertion` up to its first await.  The two early returns inside the `try` leave
the lock as it is. -/
def begin (s : State) (amount recipient : Option Utf16) (tab : SenderTab) : State :=
  let kind : Kind := .begin amount recipient
  if s.authInProgress then s.add kind (.ended (.failure alreadyInProgress))
  else if tab.id.getD 0 = 0 then s.add kind (.ended (.failure noSenderTab))
  else
    let s := { s with authInProgress := true, holder := some s.calls.length }
    if text tab.url = none then s.add kind (.ended (.failure noOrigin))
    else
      match tab.origin with
      | .error message => s.resetAuthInProgress.add kind (.ended (.failure message))
      | .ok origin =>
        if origin = [] ∨ origin = ofString "null" then s.add kind (.ended (.failure noOrigin))
        else s.add kind (.preparing origin)

/-- `assertion-complete` up to its first await. -/
def complete (s : State) (flow : Nat) (data : AssertionData) : State :=
  let s := s.clearAuthTimeout
  let kind : Kind := .complete flow data
  if data.status ≠ verified then
    s.add kind (.storingFailure data.status (data.error.getD assertionFailed) false)
  else
    match data.message s.now with
    | none => s.add kind (.storingFailure (ofString "error") incompleteData false)
    | some _ => s.add kind .initializing

/-- The `catch` of `begin-challenge-assertion`. -/
def beginFails (s : State) (i : Nat) (c : Call) (message : Option Utf16) : State :=
  (s.put i c (.ended (.failure (message.getD initiationFailed)))).resetAuthInProgress

/-- From the awaits of `begin-challenge-assertion` to its write. -/
def prepared (s : State) (i : Nat) (c : Call) (values : Prepared) : Option State :=
  match c.kind, c.pc with
  | .begin amount recipient, .preparing origin =>
    let controlCode := values.controlCode.getD (ofString "0000")
    let input : ChallengeDerivationInput :=
      { tlsBinding := values.tlsBindingHash, origin, controlCode,
        sessionNonce := values.sessionNonce }
    match serializeChallengeComponents input with
    | .error message => some (s.beginFails i c (ofString message))
    | .ok tlvComponents =>
      some (s.put i c (.storingPending {
        flow := i
        derivedChallenge := arrayFrom values.derivedChallenge
        tlvComponents := arrayFrom tlvComponents
        sessionNonce := arrayFrom values.sessionNonce
        origin, controlCode, amount, recipient
        rpId := values.rpId
        secFetchSite := values.secFetchSite
        contentHash := values.contentHash } false))
  | _, _ => none

/-- `assertion-complete` after `initializeTransportManager`. -/
def transport (s : State) (i : Nat) (c : Call) (tm : Bool) : Option State :=
  match c.kind, c.pc with
  | .complete _ data, .initializing =>
    if tm then (data.message s.now).map fun message => s.put i c (.sending message)
    else some (s.put i c (.storingVerified false))
  | _, _ => none

def serve (s : State) (i : Nat) (c : Call) : Option State :=
  match c.pc with
  | .storingPending pending false =>
    some { s.put i c (.storingPending pending true) with pending := some pending }
  | .storingVerified false =>
    some { s.put i c (.storingVerified true) with
      result := some .verified
      consumed := s.consumed ++ (s.pending.map PendingAssertion.flow).toList }
  | .removingPending false =>
    some { s.put i c (.removingPending true) with pending := none }
  | .storingFailure status error false =>
    some { s.put i c (.storingFailure status error true) with
      result := some (.failed status error) }
  | _ => none

def resolve (s : State) (i : Nat) (c : Call) : Option State :=
  match c.pc with
  | .storingPending pending true =>
    some (s.put i c (.creatingTab pending.origin pending.controlCode))
  | .sending message =>
    some { s.put i c (.storingVerified false) with sent := s.sent ++ [(i, message)] }
  | .storingVerified true => some (s.put i c (.removingPending false))
  | .removingPending true => some (s.put i c (.ended .verified)).resetAuthInProgress
  | .storingFailure _ error true =>
    some (s.put i c (.ended (.failure error))).resetAuthInProgress
  | _ => none

/-- The end of `begin-challenge-assertion`, which arms the timer. -/
def tabCreated (s : State) (i : Nat) (c : Call) (id : Option Nat) : Option State :=
  match c.pc with
  | .creatingTab origin controlCode =>
    some { (s.put i c (.ended (.pending origin controlCode))).clearAuthTimeout with
      authTabId := id
      timer := some (s.now + authTimeoutMs) }
  | _ => none

/-- An await of a call rejects.  That of `storingFailure` is outside the `try`, and leaves the lock
as it is. -/
def reject (s : State) (i : Nat) (c : Call) (message : Option Utf16) : Option State :=
  match c.pc with
  | .preparing _ | .storingPending .. | .creatingTab .. => some (s.beginFails i c message)
  | .initializing | .sending _ | .storingVerified _ | .removingPending _ =>
    some (s.put i c (.storingFailure (ofString "error") (message.getD transmissionFailed) false))
  | .storingFailure .. => some (s.put i c (.ended (.failure message)))
  | .ended _ => none

def step (s : State) : Event → Option State
  | .begin amount recipient tab => some (s.begin amount recipient tab)
  | .complete flow data => some (s.complete flow data)
  | .prepared i values => s.calls[i]?.bind (s.prepared i · values)
  | .transport i tm => s.calls[i]?.bind (s.transport i · tm)
  | .serve i => s.calls[i]?.bind (s.serve i)
  | .resolve i => s.calls[i]?.bind (s.resolve i)
  | .tabCreated i id => s.calls[i]?.bind (s.tabCreated i · id)
  | .reject i message => s.calls[i]?.bind (s.reject i · message)
  | .tabRemoved id => some (if s.authTabId = some id then s.resetAuthInProgress else s)
  | .elapse ms =>
    if ∀ d ∈ s.timer, s.now + ms ≤ d then some { s with now := s.now + ms } else none
  | .timeout =>
    if s.timer = some s.now then
      some (if s.authInProgress then s.resetAuthInProgress else s.clearAuthTimeout)
    else none

end State

end SmartIdVault.Auth
