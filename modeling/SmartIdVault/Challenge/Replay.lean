import Mathlib.Data.List.Nodup
import SmartIdVault.Lib.LinkedMap
import SmartIdVault.Challenge.Canonical

/-! The phone's protection against replays, `recentNonces` of `ChallengeVerifier.java`.  It holds
the last hundred nonces that were new to it.  `verifyFull` puts a nonce there before it looks at
the challenge, so calls that fail move the window, too. -/

namespace SmartIdVault.Challenge

namespace ChallengeVerifier

open Faults (bind_eq_ok)
open LinkedMap (keys containsKey put Spaced)

def maxRecentNonces : Nat := 100

/-- `recentNonces`: nonces in hexadecimal, and the times at which they came. -/
abbrev NonceCache := List (List Char × Nat)

def bytesToHex (bytes : Bytes) : List Char :=
  bytes.flatMap fun b => [Nat.digitChar (b.toNat / 16), Nat.digitChar (b.toNat % 16)]

def verifyNonceUniqueness (recentNonces : NonceCache) (sessionNonce : Option Bytes) (now : Nat) :
    VerificationResult × NonceCache :=
  match sessionNonce with
  | none => (.failure "Invalid nonce length", recentNonces)
  | some nonce =>
    if nonce.length ≠ nonceLength then (.failure "Invalid nonce length", recentNonces)
    else
      let nonceHex := bytesToHex nonce
      if containsKey recentNonces nonceHex then (.failure "Nonce replay detected", recentNonces)
      else (.success, put maxRecentNonces recentNonces nonceHex now)

theorem digitChar_inj : ∀ m < 16, ∀ n < 16, Nat.digitChar m = Nat.digitChar n → m = n := by
  decide

theorem bytesToHex_inj {bs cs : Bytes} (h : bytesToHex bs = bytesToHex cs) : bs = cs := by
  induction bs generalizing cs with
  | nil =>
    cases cs with
    | nil => rfl
    | cons c cs => cases h
  | cons b bs ih =>
    cases cs with
    | nil => cases h
    | cons c cs =>
      have hb := b.toNat_lt
      have hc := c.toNat_lt
      simp only [bytesToHex, List.flatMap_cons, List.cons_append, List.nil_append,
        List.cons.injEq] at h
      have hhigh := digitChar_inj _ (by omega) _ (by omega) h.1
      have hlow := digitChar_inj _ (by omega) _ (by omega) h.2.1
      have hbyte : b = c := UInt8.toNat_inj.mp (by omega)
      rw [hbyte, ih h.2.2]

/-! ### The window -/

/-- The cache holds the last hundred of `recorded`. -/
structure Window (recentNonces : NonceCache) (recorded : List Bytes) : Prop where
  keys : keys recentNonces = (recorded.map bytesToHex).rtake maxRecentNonces
  spaced : Spaced maxRecentNonces recorded

theorem window_nil : Window [] [] := ⟨rfl, LinkedMap.spaced_nil _⟩

variable {recentNonces : NonceCache} {recorded : List Bytes} {nonce : Bytes}

theorem Window.containsKey_iff (h : Window recentNonces recorded) (nonce : Bytes) :
    containsKey recentNonces (bytesToHex nonce) = true ↔
      nonce ∈ recorded.rtake maxRecentNonces := by
  rw [LinkedMap.containsKey_iff, h.keys, LinkedMap.rtake_map]
  refine ⟨fun hmem => ?_, List.mem_map_of_mem⟩
  obtain ⟨nonce', hmem, heq⟩ := List.mem_map.mp hmem
  exact bytesToHex_inj heq ▸ hmem

theorem Window.put (h : Window recentNonces recorded)
    (hnew : containsKey recentNonces (bytesToHex nonce) = false) (now : Nat) :
    Window (put maxRecentNonces recentNonces (bytesToHex nonce) now) (recorded ++ [nonce]) where
  keys := by
    rw [List.map_append]
    exact LinkedMap.keys_put now (by decide) h.keys hnew
  spaced := by
    refine h.spaced.append_singleton ?_
    rw [← h.containsKey_iff, hnew]
    exact Bool.false_ne_true

/-- The calls of `verifyNonceUniqueness` so far: the cache, and the nonces of the ones that
succeeded. -/
structure NonceLog where
  recentNonces : NonceCache := []
  recorded : List Bytes := []

def NonceLog.call (s : NonceLog) (nonce : Bytes) (now : Nat) : NonceLog :=
  let (result, recentNonces) := verifyNonceUniqueness s.recentNonces (some nonce) now
  ⟨recentNonces, if result = .success then s.recorded ++ [nonce] else s.recorded⟩

def NonceLog.after (calls : List (Bytes × Nat)) : NonceLog :=
  calls.foldl (fun s c => s.call c.1 c.2) {}

theorem NonceLog.window_call {s : NonceLog} (h : Window s.recentNonces s.recorded) (nonce : Bytes)
    (now : Nat) : Window (s.call nonce now).recentNonces (s.call nonce now).recorded := by
  simp only [NonceLog.call, verifyNonceUniqueness]
  split
  · exact h
  · split
    · exact h
    · rename_i hnew
      exact h.put (Bool.eq_false_iff.mpr hnew) now

theorem NonceLog.window_after (calls : List (Bytes × Nat)) :
    Window (after calls).recentNonces (after calls).recorded := by
  induction calls using List.reverseRecOn with
  | nil => exact window_nil
  | append_singleton calls c ih =>
    rw [after, List.foldl_append]
    exact window_call ih c.1 c.2

/-- After any calls, a nonce of 32 bytes is rejected as a replay exactly if it is one of the last
hundred recorded; and there are a hundred others between two records of one nonce. -/
theorem nonce_window (calls : List (Bytes × Nat)) :
    let s := NonceLog.after calls
    (∀ nonce now, nonce.length = nonceLength →
      ((verifyNonceUniqueness s.recentNonces (some nonce) now).1 =
          .failure "Nonce replay detected" ↔ nonce ∈ s.recorded.rtake 100) ∧
        ((verifyNonceUniqueness s.recentNonces (some nonce) now).1 = .success ↔
          nonce ∉ s.recorded.rtake 100)) ∧
    ∀ i j nonce, i < j → s.recorded[i]? = some nonce → s.recorded[j]? = some nonce →
      100 ≤ ((s.recorded.take j).drop (i + 1)).countP (· ≠ nonce) := by
  have h := NonceLog.window_after calls
  refine ⟨fun nonce now hlen => ?_, fun i j nonce hij hi hj => h.spaced.countP_between hij hi hj⟩
  have hiff := h.containsKey_iff nonce
  unfold maxRecentNonces at hiff
  rw [← hiff]
  simp only [verifyNonceUniqueness, hlen, ne_eq, not_true_eq_false, if_false]
  split
  · rename_i hold
    simp [hold]
  · rename_i hnew
    simp [hnew]

def sampleNonce : Bytes := List.replicate 32 7

theorem sampleNonce_is_replayed :
    (verifyNonceUniqueness (NonceLog.after [(sampleNonce, 0)]).recentNonces (some sampleNonce)
      1).1 = .failure "Nonce replay detected" :=
  (((nonce_window [(sampleNonce, 0)]).1 sampleNonce 1 rfl).1).mpr (by decide)

/-! ### The full verification -/

structure Call where
  tlv : Bytes
  challenge : List Char
  sessionNonce : Option Bytes
  now : Nat := 0
  deriving DecidableEq, Repr

/-- The arguments of a call, without the time at which it comes. -/
def Call.triple (c : Call) : Bytes × List Char × Option Bytes :=
  (c.tlv, c.challenge, c.sessionNonce)

def Call.nonceBytes (c : Call) : Bytes := c.sessionNonce.getD []

section Sha256

variable (sha256 : Bytes → Bytes)

def verifyFull (recentNonces : NonceCache) (c : Call) : VerificationResult × NonceCache :=
  match parseTlvComponents c.tlv with
  | .error e => (.failure s!"Verification error: {e.getMessage}", recentNonces)
  | .ok components =>
    let extractedNonce := some components.sessionNonce
    if extractedNonce ≠ c.sessionNonce then
      (.failure "Session nonce mismatch with TLV components", recentNonces)
    else
      match verifyNonceUniqueness recentNonces extractedNonce c.now with
      | (.failure reason, recentNonces) => (.failure reason, recentNonces)
      | (.success, recentNonces) => (verifyChallenge sha256 c.tlv c.challenge, recentNonces)

/-- The results of calls that come one after another. -/
def outcomes : NonceCache → List Call → List VerificationResult
  | _, [] => []
  | recentNonces, c :: cs =>
    let (result, recentNonces) := verifyFull sha256 recentNonces c
    result :: outcomes recentNonces cs

/-- The cache after some calls, and the ones among them that were accepted. -/
structure CallLog where
  recentNonces : NonceCache := []
  accepted : List Call := []

def CallLog.call (s : CallLog) (c : Call) : CallLog :=
  let (result, recentNonces) := verifyFull sha256 s.recentNonces c
  ⟨recentNonces, if result = .success then s.accepted ++ [c] else s.accepted⟩

def CallLog.after (calls : List Call) : CallLog := calls.foldl (CallLog.call sha256) {}

/-- If the call gets as far as the cache with a nonce that is new to it, its challenge passes. -/
def PassesOnceRecorded (recentNonces : NonceCache) (c : Call) : Prop :=
  ∀ components, parseTlvComponents c.tlv = .ok components →
    c.sessionNonce = some components.sessionNonce →
    containsKey recentNonces (bytesToHex components.sessionNonce) = false →
    verifyChallenge sha256 c.tlv c.challenge = .success

/-- Two accepted calls with the same arguments have a hundred accepted ones with others in
between. -/
def ReplaysApart (calls : List Call) : Prop :=
  let accepted := (CallLog.after sha256 calls).accepted
  ∀ i j c d, i < j → accepted[i]? = some c → accepted[j]? = some d → c.triple = d.triple →
    100 ≤ ((accepted.take j).drop (i + 1)).countP (·.triple ≠ d.triple)

/-- A call that fails makes no difference to the calls after it. -/
def FailuresHarmless (calls : List Call) : Prop :=
  ∀ pre c post, calls = pre ++ c :: post →
    (verifyFull sha256 (CallLog.after sha256 pre).recentNonces c).1 ≠ .success →
    ∀ later, outcomes sha256 (CallLog.after sha256 (pre ++ [c])).recentNonces later =
      outcomes sha256 (CallLog.after sha256 pre).recentNonces later

variable {sha256} {recentNonces : NonceCache} {c : Call}

theorem length_sessionNonce {tlv : Bytes} {components : ChallengeComponents}
    (h : parseTlvComponents tlv = .ok components) :
    components.sessionNonce.length = nonceLength := by
  obtain ⟨proof, origin, code, nonce, rest, hfields⟩ := exists_fields_of_parse h
  obtain rfl := Except.ok.inj (hfields.parse.symm.trans h)
  exact hfields.nonce

theorem verifyFull_of_new (sha256 : Bytes → Bytes) {components : ChallengeComponents}
    (hparse : parseTlvComponents c.tlv = .ok components)
    (hnonce : c.sessionNonce = some components.sessionNonce)
    (hnew : containsKey recentNonces (bytesToHex components.sessionNonce) = false) :
    verifyFull sha256 recentNonces c = (verifyChallenge sha256 c.tlv c.challenge,
      put maxRecentNonces recentNonces (bytesToHex components.sessionNonce) c.now) := by
  simp only [verifyFull, hparse, hnonce, ne_eq, not_true_eq_false, if_false, verifyNonceUniqueness,
    length_sessionNonce hparse, hnew, Bool.false_eq_true]

/-- A call leaves the cache alone and fails, or records its nonce and looks at the challenge. -/
theorem verifyFull_cases (sha256 : Bytes → Bytes) (recentNonces : NonceCache) (c : Call) :
    (verifyFull sha256 recentNonces c).1 ≠ .success ∧
        (verifyFull sha256 recentNonces c).2 = recentNonces ∨
      ∃ components, parseTlvComponents c.tlv = .ok components ∧
        c.sessionNonce = some components.sessionNonce ∧
        containsKey recentNonces (bytesToHex components.sessionNonce) = false := by
  cases hparse : parseTlvComponents c.tlv with
  | error e =>
    simp [verifyFull, hparse]
  | ok components =>
    by_cases hnonce : c.sessionNonce = some components.sessionNonce
    · cases hold : containsKey recentNonces (bytesToHex components.sessionNonce) with
      | true =>
        simp only [verifyFull, hparse, hnonce, ne_eq, not_true_eq_false, if_false,
          verifyNonceUniqueness, length_sessionNonce hparse, hold, if_true]
        exact .inl ⟨fun h => (by cases h), trivial⟩
      | false => exact .inr ⟨components, rfl, hnonce, hold⟩
    · simp only [verifyFull, hparse, if_pos (Ne.symm hnonce)]
      exact .inl ⟨fun h => (by cases h), trivial⟩

/-- With the challenge of its canonical form, a call with a new nonce is accepted. -/
theorem exists_accepted (sha256 : Bytes → Bytes) {components : ChallengeComponents}
    (hparse : parseTlvComponents c.tlv = .ok components)
    (hnonce : c.sessionNonce = some components.sessionNonce)
    (hnew : containsKey recentNonces (bytesToHex components.sessionNonce) = false) :
    ∃ challenge, (verifyFull sha256 recentNonces { c with challenge }).1 = .success := by
  obtain ⟨proof, origin, code, nonce, rest, hfields⟩ := exists_fields_of_parse hparse
  obtain ⟨challenge, hpass⟩ := exists_challenge sha256 hfields
  refine ⟨challenge, ?_⟩
  rw [verifyFull_of_new (c := { c with challenge }) sha256 hparse hnonce hnew]
  exact hpass

theorem verifyFull_of_recorded {components : ChallengeComponents}
    (hparse : parseTlvComponents c.tlv = .ok components)
    (hold : containsKey recentNonces (bytesToHex components.sessionNonce) = true) :
    (verifyFull sha256 recentNonces c).1 ≠ .success := by
  rcases verifyFull_cases sha256 recentNonces c with ⟨hfails, -⟩ | ⟨components', hparse', -, hnew⟩
  · exact hfails
  · obtain rfl := Except.ok.inj (hparse.symm.trans hparse')
    rw [hold] at hnew
    cases hnew

theorem containsKey_put (recentNonces : NonceCache) (k : List Char) (now : Nat) :
    containsKey (put maxRecentNonces recentNonces k now) k = true := by
  rw [LinkedMap.containsKey_iff, keys, put]
  split
  · simp
  · simp only
    split
    · rename_i hlong
      have hold : recentNonces ≠ [] := by
        rintro rfl
        simp [maxRecentNonces] at hlong
      rw [List.tail_append_of_ne_nil hold]
      simp
    · simp

/-! ### Sequences of calls -/

theorem outcomes_singleton (recentNonces : NonceCache) (c : Call) :
    outcomes sha256 recentNonces [c] = [(verifyFull sha256 recentNonces c).1] := rfl

theorem CallLog.after_append (calls later : List Call) :
    CallLog.after sha256 (calls ++ later) =
      later.foldl (CallLog.call sha256) (CallLog.after sha256 calls) :=
  List.foldl_append

theorem CallLog.after_append_singleton (calls : List Call) (c : Call) :
    CallLog.after sha256 (calls ++ [c]) = (CallLog.after sha256 calls).call sha256 c :=
  CallLog.after_append calls [c]

theorem CallLog.call_of_fails {s : CallLog}
    (h : (verifyFull sha256 s.recentNonces c).1 ≠ .success) :
    s.call sha256 c = ⟨(verifyFull sha256 s.recentNonces c).2, s.accepted⟩ := by
  simp only [CallLog.call, if_neg h]

theorem CallLog.call_of_success {s : CallLog}
    (h : (verifyFull sha256 s.recentNonces c).1 = .success) :
    s.call sha256 c = ⟨(verifyFull sha256 s.recentNonces c).2, s.accepted ++ [c]⟩ := by
  simp only [CallLog.call, if_pos h]

/-- A call that fails without a record of its nonce changes nothing. -/
theorem CallLog.call_eq_self {s : CallLog} (hpass : PassesOnceRecorded sha256 s.recentNonces c)
    (h : (verifyFull sha256 s.recentNonces c).1 ≠ .success) : s.call sha256 c = s := by
  rw [CallLog.call_of_fails h]
  rcases verifyFull_cases sha256 s.recentNonces c with ⟨-, hcache⟩ |
    ⟨components, hparse, hnonce, hnew⟩
  · rw [hcache]
  · rw [verifyFull_of_new _ hparse hnonce hnew] at h
    exact absurd (hpass components hparse hnonce hnew) h

theorem CallLog.window_call {s : CallLog}
    (h : Window s.recentNonces (s.accepted.map Call.nonceBytes))
    (hpass : PassesOnceRecorded sha256 s.recentNonces c) :
    Window (s.call sha256 c).recentNonces ((s.call sha256 c).accepted.map Call.nonceBytes) := by
  by_cases hfails : (verifyFull sha256 s.recentNonces c).1 ≠ .success
  · rw [CallLog.call_eq_self hpass hfails]
    exact h
  · rw [CallLog.call_of_success (not_not.mp hfails)]
    rcases verifyFull_cases sha256 s.recentNonces c with ⟨hno, -⟩ |
      ⟨components, hparse, hnonce, hnew⟩
    · exact absurd hno hfails
    · have hput := h.put hnew c.now
      rw [verifyFull_of_new _ hparse hnonce hnew, List.map_append, List.map_singleton,
        Call.nonceBytes, hnonce]
      exact hput

theorem CallLog.window_after {calls : List Call}
    (h : ∀ pre c post, calls = pre ++ c :: post →
      PassesOnceRecorded sha256 (CallLog.after sha256 pre).recentNonces c) :
    Window (CallLog.after sha256 calls).recentNonces
      ((CallLog.after sha256 calls).accepted.map Call.nonceBytes) := by
  induction calls using List.reverseRecOn with
  | nil => exact window_nil
  | append_singleton calls c ih =>
    rw [CallLog.after_append_singleton]
    refine CallLog.window_call (ih ?_) (h calls c [] rfl)
    rintro pre d post rfl
    exact h pre d (post ++ [c]) (by simp)

theorem replaysApart_of_window {calls : List Call}
    (h : Window (CallLog.after sha256 calls).recentNonces
      ((CallLog.after sha256 calls).accepted.map Call.nonceBytes)) : ReplaysApart sha256 calls := by
  simp only [ReplaysApart]
  intro i j c d hij hi hj htriple
  have hnonce : c.nonceBytes = d.nonceBytes := by
    rw [Call.triple, Call.triple, Prod.mk.injEq, Prod.mk.injEq] at htriple
    rw [Call.nonceBytes, Call.nonceBytes, htriple.2.2]
  have hbetween := h.spaced.countP_between (k := d.nonceBytes) hij
    (by rw [List.getElem?_map, hi, Option.map_some, hnonce]) (by rw [List.getElem?_map, hj]; rfl)
  rw [← List.map_take, ← List.map_drop, List.countP_map] at hbetween
  refine hbetween.trans (List.countP_mono_left fun e _ he => ?_)
  simp only [Function.comp_apply, decide_eq_true_eq] at he ⊢
  intro htriple
  rw [Call.triple, Call.triple, Prod.mk.injEq, Prod.mk.injEq] at htriple
  exact he (by rw [Call.nonceBytes, Call.nonceBytes, htriple.2.2])

/-- If a call that fails records its nonce, the same call with the right challenge fails after it,
and would have been accepted without it. -/
theorem passes_of_failuresHarmless {calls : List Call} (h : FailuresHarmless sha256 calls)
    (pre : List Call) (c : Call) (post : List Call) (hcalls : calls = pre ++ c :: post) :
    PassesOnceRecorded sha256 (CallLog.after sha256 pre).recentNonces c := by
  intro components hparse hnonce hnew
  by_contra hfails
  have heq := verifyFull_of_new sha256 hparse hnonce hnew
  have hno : (verifyFull sha256 (CallLog.after sha256 pre).recentNonces c).1 ≠ .success := by
    rwa [heq]
  obtain ⟨challenge, hpass⟩ := exists_accepted sha256 hparse hnonce hnew
  have hsame := h pre c post hcalls hno [{ c with challenge }]
  rw [CallLog.after_append_singleton, CallLog.call_of_fails hno, heq, outcomes_singleton,
    outcomes_singleton, hpass] at hsame
  exact verifyFull_of_recorded (c := { c with challenge }) hparse (containsKey_put _ _ _)
    (List.cons.inj hsame).1

/-- Replays are apart and failures are harmless exactly in the sequences in which each call whose
nonce is recorded passes. -/
theorem replay_window_iff (calls : List Call) :
    ReplaysApart sha256 calls ∧ FailuresHarmless sha256 calls ↔
      ∀ pre c post, calls = pre ++ c :: post →
        PassesOnceRecorded sha256 (CallLog.after sha256 pre).recentNonces c := by
  constructor
  · intro h pre c post hcalls
    exact passes_of_failuresHarmless h.2 pre c post hcalls
  · intro h
    refine ⟨replaysApart_of_window (CallLog.window_after h), ?_⟩
    intro pre c post hcalls hfails later
    rw [CallLog.after_append_singleton, CallLog.call_eq_self (h pre c post hcalls) hfails]

/-! ### Calls that burn nonces -/

theorem verifyChallenge_of_not_base64 {tlv : Bytes} {challenge : List Char} {e : JavaException}
    (h : base64UrlDecode challenge = .error e) :
    verifyChallenge sha256 tlv challenge ≠ .success := by
  unfold verifyChallenge
  split
  · exact fun h => (by cases h)
  · rename_i hcompare
    obtain ⟨components, -, hcompare⟩ := bind_eq_ok.mp hcompare
    obtain ⟨canonical, -, hcompare⟩ := bind_eq_ok.mp hcompare
    rw [h] at hcompare
    cases hcompare

/-- The call gets to the cache, but its challenge is wrong. -/
structure Burns (sha256 : Bytes → Bytes) (c : Call) : Prop where
  parses : ∃ components, parseTlvComponents c.tlv = .ok components ∧
    c.sessionNonce = some components.sessionNonce
  fails : verifyChallenge sha256 c.tlv c.challenge ≠ .success

theorem Burns.call {s : CallLog} (hburns : Burns sha256 c) (h : Window s.recentNonces recorded)
    (hnew : c.nonceBytes ∉ recorded) :
    Window (s.call sha256 c).recentNonces (recorded ++ [c.nonceBytes]) ∧
      (s.call sha256 c).accepted = s.accepted := by
  obtain ⟨components, hparse, hnonce⟩ := hburns.parses
  have hbytes : c.nonceBytes = components.sessionNonce := by rw [Call.nonceBytes, hnonce]; rfl
  rw [hbytes] at hnew ⊢
  have hnokey : containsKey s.recentNonces (bytesToHex components.sessionNonce) = false := by
    refine Bool.eq_false_iff.mpr fun hold => hnew ?_
    exact List.mem_of_mem_drop ((h.containsKey_iff _).mp hold)
  have heq := verifyFull_of_new sha256 hparse hnonce hnokey
  rw [CallLog.call_of_fails (by rw [heq]; exact hburns.fails), heq]
  exact ⟨h.put hnokey c.now, rfl⟩

theorem window_burns {calls : List Call} {s : CallLog} (h : Window s.recentNonces recorded)
    (hburns : ∀ c ∈ calls, Burns sha256 c)
    (hnodup : (recorded ++ calls.map Call.nonceBytes).Nodup) :
    Window (calls.foldl (CallLog.call sha256) s).recentNonces
        (recorded ++ calls.map Call.nonceBytes) ∧
      (calls.foldl (CallLog.call sha256) s).accepted = s.accepted := by
  induction calls generalizing s recorded with
  | nil => simpa using h
  | cons c calls ih =>
    have hnew : c.nonceBytes ∉ recorded := fun hmem =>
      (List.nodup_append.mp hnodup).2.2 _ hmem _ (by simp) rfl
    obtain ⟨hwindow, haccepted⟩ := (hburns c (by simp)).call h hnew
    rw [List.map_cons, List.append_cons] at hnodup ⊢
    rw [List.foldl_cons, ← haccepted]
    exact ih hwindow (fun d hd => hburns d (List.mem_cons_of_mem _ hd)) hnodup

end Sha256

/-- Calls for `https://a` with the control code 1234. -/
def sampleCall (nonce : Bytes) (challenge : List Char) : Call where
  tlv := layout version [] (Utf8.encode ['h', 't', 't', 'p', 's', ':', '/', '/', 'a'])
    (Utf8.encode ['1', '2', '3', '4']) nonce
  challenge
  sessionNonce := some nonce

def nonceOfByte (k : Nat) : Bytes := UInt8.ofNat k :: List.replicate 31 0

/-- A hundred calls with nonces of their own and a challenge that is not Base64. -/
def badCalls : List Call := (List.range 100).map fun k => sampleCall (nonceOfByte k) ['!']

theorem sampleCall_fields (nonce : Bytes) (challenge : List Char)
    (h : nonce.length = nonceLength) :
    TlvFields (sampleCall nonce challenge).tlv []
      (Utf8.encode ['h', 't', 't', 'p', 's', ':', '/', '/', 'a'])
      (Utf8.encode ['1', '2', '3', '4']) nonce (List.replicate 13 0) where
  bytes := rfl
  proof := by decide
  origin := by decide
  code := by decide
  nonce := h

theorem burns_badCall (sha256 : Bytes → Bytes) (k : Nat) :
    Burns sha256 (sampleCall (nonceOfByte k) ['!']) where
  parses := ⟨_, (sampleCall_fields _ ['!'] rfl).parse, rfl⟩
  fails := verifyChallenge_of_not_base64 (e := .illegalArgument "bad base-64") rfl

theorem nonceOfByte_inj {m n : Nat} (hm : m < 256) (hn : n < 256)
    (h : nonceOfByte m = nonceOfByte n) : m = n := by
  have hbyte := congrArg UInt8.toNat (List.cons.inj h).1
  rwa [UInt8.toNat_ofNat_of_lt' hm, UInt8.toNat_ofNat_of_lt' hn] at hbyte

theorem nodup_nonces : ([nonceOfByte 200] ++ badCalls.map Call.nonceBytes).Nodup := by
  have hnonces : [nonceOfByte 200] ++ badCalls.map Call.nonceBytes =
      (200 :: List.range 100).map nonceOfByte := by
    rw [badCalls, List.map_map]
    rfl
  have hlt : ∀ k ∈ 200 :: List.range 100, k < 256 := by
    intro k hk
    rcases List.mem_cons.mp hk with rfl | hk
    · decide
    · exact (List.mem_range.mp hk).trans (by decide)
  rw [hnonces]
  refine List.Nodup.map_on (fun m hm n hn => nonceOfByte_inj (hlt m hm) (hlt n hn)) ?_
  exact List.nodup_cons.mpr ⟨by simp, List.nodup_range⟩

/-- The bad calls fill the cache, and the good call is accepted a second time, with no accepted call
in between. -/
theorem failures_open_the_window : ∃ challenge,
    let good := sampleCall (nonceOfByte 200) challenge
    ¬ReplaysApart Sha256.sha256 ([good] ++ badCalls ++ [good]) ∧
      ¬FailuresHarmless Sha256.sha256 ([good] ++ badCalls ++ [good]) := by
  have hfields (challenge : List Char) :=
    sampleCall_fields (nonceOfByte 200) challenge rfl
  obtain ⟨challenge, hpass⟩ := exists_challenge Sha256.sha256 (hfields [])
  refine ⟨challenge, ?_⟩
  intro good
  have hparse := (hfields challenge).parse
  have haccept (s : CallLog) (recorded : List Bytes) (h : Window s.recentNonces recorded)
      (hnew : nonceOfByte 200 ∉ recorded.rtake 100) :
      (verifyFull Sha256.sha256 s.recentNonces good).1 = .success := by
    have hnokey := Bool.eq_false_iff.mpr fun hold => hnew ((h.containsKey_iff _).mp hold)
    rw [verifyFull_of_new _ hparse rfl hnokey]
    exact hpass
  have hfirst := haccept {} [] window_nil (by decide)
  have hwindow : Window (CallLog.after Sha256.sha256 [good]).recentNonces [nonceOfByte 200] := by
    have hput := window_nil.put (rfl : containsKey [] (bytesToHex (nonceOfByte 200)) = _) good.now
    rw [CallLog.after, List.foldl_cons, CallLog.call_of_success hfirst,
      verifyFull_of_new _ hparse rfl rfl]
    exact hput
  have hburns : ∀ c ∈ badCalls, Burns Sha256.sha256 c := by
    intro c hc
    obtain ⟨k, -, rfl⟩ := List.mem_map.mp hc
    exact burns_badCall _ k
  obtain ⟨hfull, haccepted⟩ := window_burns hwindow hburns nodup_nonces
  rw [← CallLog.after_append] at hfull haccepted
  have hfirstLog : (CallLog.after Sha256.sha256 [good]).accepted = [good] := by
    rw [CallLog.after, List.foldl_cons, CallLog.call_of_success hfirst]
    rfl
  have hsecond := haccept _ _ hfull (by decide)
  have hlog : (CallLog.after Sha256.sha256 ([good] ++ badCalls ++ [good])).accepted =
      [good, good] := by
    rw [CallLog.after_append_singleton, CallLog.call_of_success hsecond, haccepted, hfirstLog]
    rfl
  constructor
  · intro h
    simp only [ReplaysApart, hlog] at h
    exact absurd (h 0 1 good good (by decide) rfl rfl rfl) (by simp)
  · intro h
    have hpasses := passes_of_failuresHarmless h [good] (sampleCall (nonceOfByte 0) ['!'])
      (badCalls.tail ++ [good]) rfl
    refine (burns_badCall Sha256.sha256 0).fails
      (hpasses _ (sampleCall_fields _ ['!'] rfl).parse rfl ?_)
    exact Bool.eq_false_iff.mpr fun hold =>
      absurd ((hwindow.containsKey_iff (nonceOfByte 0)).mp hold) (by decide)

end ChallengeVerifier

end SmartIdVault.Challenge
