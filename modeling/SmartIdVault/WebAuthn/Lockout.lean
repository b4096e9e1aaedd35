import Mathlib.Logic.Function.Basic
import SmartIdVault.Lib.Bytes
import SmartIdVault.Lib.FixedWindow
import SmartIdVault.Lib.Machine

/-! The phone's `WebAuthnVerifier.java`: stored credentials, the check of an assertion against one,
and the tracker that invalidates a credential after repeated failures.  The tracker counts over
fixed windows, each opened by a failed check. -/

namespace SmartIdVault.WebAuthn

def maxFailedAttempts : Nat := 3

def failureWindowMs : Int := 300000

structure StoredCredential where
  credentialId : String
  publicKeyBytes : Bytes
  provisionedAt : Int
  valid : Bool := true
  deriving DecidableEq, Repr

structure FailureTracker where
  count : Nat := 0
  firstFailureAt : Int
  deriving DecidableEq, Repr

/-- The tracker is asked, and with that counts, at `now`. -/
def FailureTracker.isThresholdExceeded (tracker : FailureTracker) (now : Int) :
    Bool × FailureTracker :=
  let elapsed := now - tracker.firstFailureAt
  if failureWindowMs < elapsed then (false, { count := 1, firstFailureAt := now })
  else
    let count := tracker.count + 1
    (decide (maxFailedAttempts ≤ count), { tracker with count })

inductive VerificationResult
  | success
  | failure (reason : String)
  deriving DecidableEq, Repr

/-- SHA-256, and what `reconstructPublicKey` and `Signature.verify` make of a stored key, the signed
data and a signature: a verdict, or the message of an exception. -/
structure SignatureScheme where
  digest : Bytes → Bytes
  verify : Bytes → Bytes → Bytes → Except String Bool

/-- The arguments of `verifyAssertion` besides the credential. -/
structure Assertion where
  authenticatorData : Bytes
  clientDataJson : Bytes
  signature : Bytes
  deriving DecidableEq, Repr

structure Verifier where
  credentialStore : String → Option StoredCredential := fun _ => none
  failureTracker : String → Option FailureTracker := fun _ => none

namespace Verifier

def storeCredential (v : Verifier) (credentialId : String) (publicKey : Bytes) (now : Int) :
    Verifier :=
  { v with
    credentialStore := Function.update v.credentialStore credentialId
      (some { credentialId, publicKeyBytes := publicKey, provisionedAt := now }) }

def invalidateCredential (v : Verifier) (credentialId : String) : Verifier :=
  match v.credentialStore credentialId with
  | none => v
  | some stored =>
    { v with
      credentialStore := Function.update v.credentialStore credentialId
        (some { stored with valid := false }) }

variable (scheme : SignatureScheme)

/-- The verdict on an assertion under a stored key. -/
def checkSignature (stored : StoredCredential) (a : Assertion) : Except String Bool :=
  let clientDataHash := scheme.digest a.clientDataJson
  scheme.verify stored.publicKeyBytes (a.authenticatorData ++ clientDataHash) a.signature

def verifyAssertion (v : Verifier) (credentialId : String) (a : Assertion) (now : Int) :
    VerificationResult × Verifier :=
  match v.credentialStore credentialId with
  | none => (.failure "Credential not found: re-provisioning required", v)
  | some stored =>
    if !stored.valid then (.failure "Credential has been invalidated", v)
    else
      match checkSignature scheme stored a with
      | .error message => (.failure ("Verification error: " ++ message), v)
      | .ok true => (.success, v)
      | .ok false =>
        let tracker := (v.failureTracker credentialId).getD { firstFailureAt := now }
        let asked := tracker.isThresholdExceeded now
        let v := { v with
          failureTracker := Function.update v.failureTracker credentialId (some asked.2) }
        if asked.1 then
          (.failure "Signature verification failed repeatedly: key invalidated",
            v.invalidateCredential credentialId)
        else (.failure "Signature verification failed", v)

end Verifier

/-! ### Runs -/

/-- The verifier with its clock and with what its calls have been: for each id the times of the
failed checks against the stored credential since it was stored, and of those against the id
before. -/
structure State where
  verifier : Verifier := {}
  now : Int
  failures : String → List Int := fun _ => []
  earlier : String → List Int := fun _ => []

inductive Call
  | storeCredential (credentialId : String) (publicKey : Bytes) (now : Int)
  | verifyAssertion (credentialId : String) (a : Assertion) (now : Int)
  deriving DecidableEq, Repr

/-- A check that fails: there is a valid credential and the signature does not match. -/
def failsCheck (scheme : SignatureScheme) (v : Verifier) (credentialId : String) (a : Assertion) :
    Bool :=
  (v.credentialStore credentialId).any fun stored =>
    stored.valid && (Verifier.checkSignature scheme stored a).toOption == some false

/-- A call, no earlier than the one before. -/
def step (scheme : SignatureScheme) (s : State) : Call → Option State
  | .storeCredential id publicKey now =>
    if s.now ≤ now then
      some { s with
        verifier := s.verifier.storeCredential id publicKey now
        now
        failures := Function.update s.failures id []
        earlier := Function.update s.earlier id (s.earlier id ++ s.failures id) }
    else none
  | .verifyAssertion id a now =>
    if s.now ≤ now then
      let s' := { s with verifier := (s.verifier.verifyAssertion scheme id a now).2, now }
      some (if failsCheck scheme s.verifier id a then
        { s' with failures := Function.update s.failures id (s.failures id ++ [now]) } else s')
    else none

abbrev Run (scheme : SignatureScheme) : State → List Call → State → Prop :=
  Machine.Run (step scheme)

/-! ### The tracker -/

/-- A tracker as a window of failures. -/
def FailureTracker.window (tracker : FailureTracker) : FixedWindow.Window Int :=
  ⟨tracker.count, tracker.firstFailureAt⟩

/-- The end of a window that was opened at `opened`. -/
def deadline (opened : Int) : Int := opened + failureWindowMs

/-- No window that a failed check opened before the credential was stored is still open at the first
failed check since. -/
def State.Fresh (s : State) (id : String) : Prop :=
  ∀ first ∈ (s.failures id).head?, ∀ i opened, FixedWindow.Opens deadline (s.earlier id) i →
    (s.earlier id)[i]? = some opened → deadline opened < first

theorem window_isThresholdExceeded (tracker : Option FailureTracker) (now : Int) :
    ((tracker.getD { firstFailureAt := now }).isThresholdExceeded now).2.window =
      FixedWindow.record deadline (tracker.map FailureTracker.window) now := by
  cases tracker with
  | none => simp [FailureTracker.isThresholdExceeded, FixedWindow.record, FailureTracker.window,
      failureWindowMs]
  | some tracker =>
    have hiff : failureWindowMs < now - tracker.firstFailureAt ↔
        deadline tracker.firstFailureAt < now := by
      rw [deadline]
      omega
    simp only [Option.getD_some, FailureTracker.isThresholdExceeded, Option.map_some,
      FixedWindow.record, FailureTracker.window, hiff]
    split <;> rfl

/-- The threshold is exceeded when the count is. -/
theorem isThresholdExceeded_iff (tracker : Option FailureTracker) (now : Int) :
    ((tracker.getD { firstFailureAt := now }).isThresholdExceeded now).1 = true ↔
      maxFailedAttempts ≤
        (FixedWindow.record deadline (tracker.map FailureTracker.window) now).count := by
  rw [← window_isThresholdExceeded, FailureTracker.isThresholdExceeded]
  split
  · simp [FailureTracker.window, maxFailedAttempts]
  · simp [FailureTracker.window]

/-! ### What a call changes -/

variable {scheme : SignatureScheme}

theorem failsCheck_iff {v : Verifier} {id : String} {a : Assertion} :
    failsCheck scheme v id a = true ↔ ∃ stored, v.credentialStore id = some stored ∧
      stored.valid = true ∧ Verifier.checkSignature scheme stored a = .ok false := by
  have hcheck (stored : StoredCredential) :
      (Verifier.checkSignature scheme stored a).toOption = some false ↔
        Verifier.checkSignature scheme stored a = .ok false := by
    cases Verifier.checkSignature scheme stored a <;> simp [Except.toOption]
  simp [failsCheck, Option.any_eq_true, hcheck]

theorem verifyAssertion_of_not_failsCheck {v : Verifier} {id : String} {a : Assertion} (now : Int)
    (h : failsCheck scheme v id a = false) : (v.verifyAssertion scheme id a now).2 = v := by
  rw [Verifier.verifyAssertion]
  cases hstored : v.credentialStore id with
  | none => rfl
  | some stored =>
    simp only
    cases hvalid : stored.valid with
    | false => rfl
    | true =>
      simp only [Bool.not_true, Bool.false_eq_true, if_false]
      rcases hcheck : Verifier.checkSignature scheme stored a with message | verified
      · rfl
      · cases verified with
        | true => rfl
        | false =>
          rw [failsCheck_iff.mpr ⟨stored, hstored, hvalid, hcheck⟩] at h
          contradiction

/-- A failed check asks the tracker of the id and invalidates the credential when the threshold is
exceeded; the other ids are left alone. -/
theorem verifyAssertion_of_failsCheck {v : Verifier} {id : String} {a : Assertion} (now : Int)
    (h : failsCheck scheme v id a = true) :
    ∃ stored, v.credentialStore id = some stored ∧ stored.valid = true ∧
      let asked := ((v.failureTracker id).getD { firstFailureAt := now }).isThresholdExceeded now
      (v.verifyAssertion scheme id a now).2 =
        { credentialStore := Function.update v.credentialStore id
            (some { stored with valid := !asked.1 })
          failureTracker := Function.update v.failureTracker id (some asked.2) } := by
  obtain ⟨stored, hstored, hvalid, hcheck⟩ := failsCheck_iff.mp h
  refine ⟨stored, hstored, hvalid, ?_⟩
  simp only [Verifier.verifyAssertion, hstored, hvalid, hcheck, Bool.not_true, Bool.false_eq_true,
    if_false]
  generalize ((v.failureTracker id).getD { firstFailureAt := now }).isThresholdExceeded now = asked
  cases hasked : asked.1 with
  | true => simp [Verifier.invalidateCredential, hstored]
  | false =>
    have hsame : Function.update v.credentialStore id (some { stored with valid := true }) =
        v.credentialStore := by
      rw [← hvalid, ← hstored]
      exact Function.update_eq_self id v.credentialStore
    simp [hsame]

/-- The failures of an id are in order of time, its tracker is the window of all of them, and if no
window was open at the first one since its credential was stored, the credential is invalid exactly
when some window has taken its third. -/
structure Inv (id : String) (s : State) : Prop where
  sorted : (s.failures id).Pairwise (· ≤ ·)
  past : ∀ t ∈ s.failures id, t ≤ s.now
  tracker : (s.verifier.failureTracker id).map FailureTracker.window =
    FixedWindow.window deadline (s.earlier id ++ s.failures id)
  exact : s.Fresh id → ∀ stored, s.verifier.credentialStore id = some stored →
    (stored.valid = false ↔ FixedWindow.Reached deadline 2 (s.failures id))

theorem Inv.init (id : String) (now : Int) : Inv id { now } where
  sorted := .nil
  past := by simp
  tracker := rfl
  exact _ stored h := by cases h

/-- A call that leaves an id alone, at a later time. -/
theorem Inv.later {id : String} {s t : State} (h : Inv id s) (hnow : s.now ≤ t.now)
    (hstore : t.verifier.credentialStore id = s.verifier.credentialStore id)
    (htracker : t.verifier.failureTracker id = s.verifier.failureTracker id)
    (hfailures : t.failures id = s.failures id) (hearlier : t.earlier id = s.earlier id) :
    Inv id t where
  sorted := hfailures ▸ h.sorted
  past x hx := (h.past x (hfailures ▸ hx)).trans hnow
  tracker := by rw [htracker, hfailures, hearlier, h.tracker]
  exact hfresh stored hs := by
    rw [State.Fresh, hfailures, hearlier] at hfresh
    rw [hfailures]
    exact h.exact hfresh stored (hstore ▸ hs)

theorem Inv.storeCredential {id : String} {s : State} (h : Inv id s) {publicKey : Bytes}
    {now : Int} : Inv id
      { s with
        verifier := s.verifier.storeCredential id publicKey now
        now
        failures := Function.update s.failures id []
        earlier := Function.update s.earlier id (s.earlier id ++ s.failures id) } where
  sorted := by simp
  past := by simp
  tracker := by
    simp only [Function.update_self, List.append_nil]
    exact h.tracker
  exact _ stored hs := by
    simp only [Verifier.storeCredential, Function.update_self, Option.some.injEq] at hs ⊢
    subst hs
    simp [FixedWindow.Reached]

/-- Where no window was open at the first failure since the credential was stored, the ones before
count for nothing. -/
theorem record_earlier {earlier failures : List Int} {now : Int}
    (h : ∀ first ∈ (failures ++ [now]).head?, ∀ i opened, FixedWindow.Opens deadline earlier i →
      earlier[i]? = some opened → deadline opened < first) :
    FixedWindow.record deadline (FixedWindow.window deadline (earlier ++ failures)) now =
      FixedWindow.record deadline (FixedWindow.window deadline failures) now := by
  cases failures with
  | nil =>
    rw [List.append_nil, FixedWindow.record_of_late (FixedWindow.late_of_opens (h now rfl))]
    rfl
  | cons first failures =>
    rw [FixedWindow.window_append_of_late (FixedWindow.late_of_opens (h first rfl))]

/-- A failed check: the window takes it, and the credential goes when it is the third. -/
theorem Inv.fail {id : String} {s : State} (h : Inv id s) {a : Assertion} {now : Int}
    (hnow : s.now ≤ now) (hfails : failsCheck scheme s.verifier id a = true) :
    Inv id
      { s with
        verifier := (s.verifier.verifyAssertion scheme id a now).2
        now
        failures := Function.update s.failures id (s.failures id ++ [now]) } := by
  obtain ⟨stored, hstored, hvalid, hv⟩ := verifyAssertion_of_failsCheck now hfails
  have hsorted : (s.failures id ++ [now]).Pairwise (· ≤ ·) := by
    refine List.pairwise_append.mpr ⟨h.sorted, List.pairwise_singleton _ _, fun x hx y hy => ?_⟩
    rw [List.mem_singleton.mp hy]
    exact (h.past x hx).trans hnow
  rw [hv]
  refine ⟨by simpa using hsorted, ?_, ?_, fun hfresh stored' hs => ?_⟩
  · intro x hx
    simp only [Function.update_self, List.mem_append, List.mem_singleton] at hx
    rcases hx with hx | rfl
    · exact (h.past x hx).trans hnow
    · exact le_rfl
  · simp only [Function.update_self, Option.map_some]
    rw [window_isThresholdExceeded, ← List.append_assoc, FixedWindow.window_append_singleton,
      h.tracker]
  · simp only [State.Fresh, Function.update_self, Option.some.injEq] at hfresh hs ⊢
    subst hs
    have hold : s.Fresh id := by
      intro first hfirst
      refine hfresh first ?_
      rw [List.head?_append, Option.mem_def.mp hfirst]
      rfl
    -- a valid credential's window has taken two failures at the most
    have hnot : ¬FixedWindow.Reached deadline 2 (s.failures id) := by
      rw [← h.exact hold stored hstored, hvalid]
      decide
    have hcount : (FixedWindow.record deadline
        (FixedWindow.window deadline (s.failures id)) now).count ≤ 3 := by
      cases hw : FixedWindow.window deadline (s.failures id) with
      | none => simp [FixedWindow.record]
      | some w =>
        have hle := FixedWindow.count_le_of_not_reached Nat.two_pos hnot hw
        rw [FixedWindow.record]
        split
        · simp
        · exact Nat.succ_le_succ hle
    rw [FixedWindow.reached_append_iff Nat.two_pos hsorted, Bool.not_eq_false',
      isThresholdExceeded_iff, h.tracker, record_earlier hfresh, or_iff_right hnot,
      maxFailedAttempts]
    omega

theorem Inv.step {id : String} {s t : State} {call : Call} (h : Inv id s)
    (hs : step scheme s call = some t) : Inv id t := by
  cases call with
  | storeCredential id' publicKey now =>
    simp only [WebAuthn.step, Option.ite_none_right_eq_some, Option.some.injEq] at hs
    obtain ⟨hnow, rfl⟩ := hs
    by_cases hid : id = id'
    · subst hid
      exact h.storeCredential
    · exact h.later hnow (Function.update_of_ne hid _ _) rfl (Function.update_of_ne hid _ _)
        (Function.update_of_ne hid _ _)
  | verifyAssertion id' a now =>
    simp only [WebAuthn.step, Option.ite_none_right_eq_some, Option.some.injEq] at hs
    obtain ⟨hnow, rfl⟩ := hs
    cases hfails : failsCheck scheme s.verifier id' a with
    | false =>
      simp only [Bool.false_eq_true, if_false, verifyAssertion_of_not_failsCheck now hfails]
      exact h.later hnow rfl rfl rfl rfl
    | true =>
      simp only [if_true]
      by_cases hid : id = id'
      · subst hid
        exact h.fail hnow hfails
      · obtain ⟨stored, -, -, hv⟩ := verifyAssertion_of_failsCheck now hfails
        rw [hv]
        exact h.later hnow (Function.update_of_ne hid _ _) (Function.update_of_ne hid _ _)
          (Function.update_of_ne hid _ _) rfl

/-- In every run of calls at nondecreasing times, a credential such that no window was still open at
the first failed check since it was stored is invalid exactly when, of the failed checks against it
since then, the third falls within 300 seconds of the first of three, where the first is one that
opens a window: the first of all, or the first more than 300 seconds after the one that opened the
window before. -/
theorem invalid_iff_reached {now : Int} {calls : List Call} {s : State}
    (hrun : Run scheme { now } calls s) {id : String} {stored : StoredCredential}
    (hstored : s.verifier.credentialStore id = some stored) (hfresh : s.Fresh id) :
    stored.valid = false ↔ ∃ i first third, FixedWindow.Opens deadline (s.failures id) i ∧
      (s.failures id)[i]? = some first ∧ (s.failures id)[i + 2]? = some third ∧
      third ≤ first + failureWindowMs := by
  have h : Inv id s := hrun.invariant_all (.init id now) fun _ _ _ h hs => h.step hs
  exact h.exact hfresh stored hstored

/-! ### Windows that end, and trackers that stay -/

/-- A scheme under which no signature matches. -/
def rejectingScheme : SignatureScheme where
  digest bytes := bytes
  verify _ _ _ := .ok false

def storeAt (now : Int) : Call := .storeCredential "key" [4] now

def failAt (now : Int) : Call := .verifyAssertion "key" ⟨[], [], []⟩ now

/-- A credential is stored again after a failed check, and checked more than 300 seconds later. -/
def storedAgain : List Call :=
  [storeAt 0, failAt 1, storeAt 2, failAt 300002, failAt 300003, failAt 300004]

theorem invalid_iff_reached_three : ∃ s stored, Run rejectingScheme { now := 0 } storedAgain s ∧
    s.verifier.credentialStore "key" = some stored ∧ stored.valid = false := by
  have hexec : (Machine.exec (step rejectingScheme) { now := 0 } storedAgain).map
      (fun s => (s.verifier.credentialStore "key", s.failures "key", s.earlier "key")) =
        some (some ⟨"key", [4], 2, false⟩, [300002, 300003, 300004], [1]) := by decide +kernel
  obtain ⟨s, hs, hfields⟩ := Option.map_eq_some_iff.mp hexec
  simp only [Prod.mk.injEq] at hfields
  obtain ⟨hstored, hfailures, hearlier⟩ := hfields
  have hrun := Machine.run_of_exec hs
  refine ⟨s, _, hrun, hstored, (invalid_iff_reached hrun hstored ?_).mpr ⟨0, 300002, 300004, ?_⟩⟩
  · rw [State.Fresh, hfailures, hearlier]
    intro first hfirst i opened _ hopened
    obtain rfl : 300002 = first := Option.some.inj hfirst
    have hmem := List.mem_of_getElem? hopened
    obtain rfl := List.mem_singleton.mp hmem
    decide
  · rw [hfailures]
    exact ⟨.first rfl, rfl, rfl, by decide⟩

/-- A credential is invalid exactly when three of the failed checks against it, since it was stored,
lie within 300 seconds. -/
def LockoutExact (s : State) : Prop :=
  ∀ id stored, s.verifier.credentialStore id = some stored →
    (stored.valid = false ↔ ∃ i first third, (s.failures id)[i]? = some first ∧
      (s.failures id)[i + 2]? = some third ∧ third ≤ first + failureWindowMs)

/-- Three failures within 250 seconds do not count together when a window ends between them, and the
failures against a credential that was replaced count against the new one. -/
theorem lockout_not_exact :
    (∃ s, Run rejectingScheme { now := 0 }
      [storeAt 0, failAt 0, failAt 200000, failAt 400000, failAt 450000] s ∧ ¬LockoutExact s) ∧
    ∃ s, Run rejectingScheme { now := 0 }
      [storeAt 0, failAt 1, failAt 2, failAt 3, storeAt 4, failAt 5] s ∧ ¬LockoutExact s := by
  refine ⟨⟨_, Machine.run_of_exec rfl, fun h => ?_⟩, ⟨_, Machine.run_of_exec rfl, fun h => ?_⟩⟩
  · have hinvalid := (h "key" _ rfl).mpr ⟨1, 200000, 450000, rfl, rfl, by decide⟩
    contradiction
  · obtain ⟨i, first, third, -, hthird, -⟩ := (h "key" _ rfl).mp rfl
    have hlen : i + 2 < 1 := (List.getElem?_eq_some_iff.mp hthird).1
    omega

end SmartIdVault.WebAuthn
