import SmartIdVault.Attestation.Demo

/-! Headers of `createDemoAttestationHeader` in `verifyHeader`, from every state of the service.  A
header in time, for which the key store has the public key, is accepted exactly when the cache has
no key for it that rejects it; and there is none in a run in which no key is replaced by one of other
bytes while it is being imported. -/

namespace SmartIdVault.Attestation

open Utf16 (ofString)

/-- What is assumed of ECDSA: the point of a demo key that can be imported is a public key, under
which all signatures of the demo key are valid. -/
def Correct {π κ : Type} (signer : Signer π) (subtle : Subtle κ) : Prop :=
  ∀ keyId jwk raw privateKey, demoPrivateKeys.lookup keyId = some jwk →
    jwk.publicKey = some raw → signer.importKey jwk = some privateKey →
    ∃ cryptoKey, subtle.importKey raw = some cryptoKey ∧
      ∀ nonce data signature, signer.sign privateKey nonce data = some signature →
        subtle.verify cryptoKey signature data = true

namespace Service

section Statement

variable {π κ : Type} (signer : Signer π) (subtle : Subtle κ) (date : DateParser)

/-- The store has, for a domain and key id, the public key to the demo key, and it is active. -/
def HoldsPublicKey (s : Service κ) (domain keyId : Utf16) : Prop :=
  ∃ key ∈ s.store.keys (entryId domain keyId), key.isKeyActive date s.clock = true ∧
    ∃ jwk raw, demoPrivateKeys.lookup keyId = some jwk ∧ jwk.publicKey = some raw ∧
      hexToBytes key.publicKeyHex = some raw

/-- However the run goes on after the call of `verifyHeader`, at most two steps of the call's own
then resolve it to the attested code. -/
def Accepts (s : Service κ) (rawHeader rpDomain : Utf16) (attestedCode : AttestedCode) : Prop :=
  ∀ es t, Run subtle date (s.verifyHeader date rawHeader rpDomain) es t →
    ∃ n ≤ 2, ∃ u, Run subtle date t (List.replicate n (.settle s.calls.length)) u ∧
      ∃ c, u.calls[s.calls.length]? = some c ∧ c.progress = .resolved (some attestedCode)

/-- Every header that is made for a control code parses to what it was made from, with the payload
that was signed; and in time, with its public key in the store, it is accepted. -/
def RoundTrips (s : Service κ) : Prop :=
  ∀ (env : Env) (cache : ImportedKeyCache signer) (now : Int) (nonce : Nat)
    (controlCode rpDomain keyId : Utf16) (sessionId : Option Utf16) (header : Utf16),
    controlCode ≠ [] →
    (createDemoAttestationHeader env cache now nonce controlCode rpDomain keyId sessionId).1 =
      some header →
    ∃ parsed, parseAttestationHeader header = some parsed ∧
      parsed.payload.code = controlCode ∧
      parsed.payload.session = (sessionId.filter (· ≠ [])).map Json.str ∧
      parsed.payload.ts.value = seconds now ∧ parsed.keyId = keyId ∧
      parsed.payloadBytes = demoPayloadBytes now controlCode sessionId ∧
      (|seconds s.clock - seconds now| ≤ 30 → s.HoldsPublicKey date rpDomain keyId →
        s.Accepts subtle date header rpDomain (parsed.attestedCode rpDomain))

/-- The key has the bytes of every import under its id that is under way. -/
def KeepsBytes (s : Service κ) (key : TrustedRpSigningKey) : Prop :=
  ∀ c ∈ s.calls, ∀ raw, c.progress = .importing raw → entryId c.domain c.keyId = key.id →
    hexToBytes key.publicKeyHex = some raw

/-- No key is replaced by one of other bytes while an import of it is under way. -/
def KeepsPending (s : Service κ) : ServiceEvent → Prop
  | .addKey key => s.KeepsBytes key
  | .updateManifest manifest =>
    manifest.manifestSignature ≠ [] → s.store.manifestVersion < manifest.version.value →
      ∀ key ∈ manifest.keys, s.KeepsBytes key
  | _ => True

end Statement

variable {π κ : Type} {signer : Signer π} {subtle : Subtle κ} {date : DateParser}
  {s t : Service κ} {e : ServiceEvent} {i : Nat} {c : Call κ}

/-! ### One call in a run -/

theorem calls_of_settle (hs : s.settle subtle i c = some t) :
    ∃ progress, t.calls = s.calls.set i { c with progress } := by
  unfold Service.settle at hs
  split at hs
  · split at hs
    · obtain rfl := Option.some.inj hs
      exact ⟨_, rfl⟩
    · obtain rfl := Option.some.inj hs
      exact ⟨_, rfl⟩
  · obtain rfl := Option.some.inj hs
    exact ⟨_, rfl⟩
  · contradiction

/-- A step leaves a call as it is, or settles what it awaits. -/
theorem call_of_step (hc : s.calls[i]? = some c) (hs : step subtle date s e = some t) :
    t.calls[i]? = some c ∨ s.settle subtle i c = some t := by
  have hlookup (domain keyId : Utf16) (header : Option ParsedAttestationHeader) :
      (s.lookup date domain keyId header).calls[i]? = some c := by
    rw [Service.lookup, List.getElem?_append_left (List.getElem?_eq_some_iff.mp hc).1, hc]
  cases e with
  | tick now =>
    rw [Service.step] at hs
    split at hs
    · obtain rfl := Option.some.inj hs
      exact .inl hc
    · contradiction
  | addKey key =>
    obtain rfl := Option.some.inj hs
    exact .inl hc
  | updateManifest manifest =>
    obtain rfl := Option.some.inj hs
    exact .inl hc
  | getImportedKey domain keyId =>
    obtain rfl := Option.some.inj hs
    exact .inl (hlookup domain keyId none)
  | verifyHeader rawHeader rpDomain =>
    obtain rfl := Option.some.inj hs
    unfold Service.verifyHeader
    split
    · exact .inl hc
    · split
      · exact .inl (hlookup ..)
      · exact .inl hc
  | settle j =>
    obtain ⟨c', hc', hset⟩ := Option.bind_eq_some_iff.mp hs
    by_cases hij : j = i
    · subst hij
      obtain rfl := Option.some.inj (hc'.symm.trans hc)
      exact .inr hset
    · obtain ⟨progress, hcalls⟩ := calls_of_settle hset
      rw [hcalls, List.getElem?_set_ne hij]
      exact .inl hc

/-! ### A call on its way to an attested code -/

variable {parsed : ParsedAttestationHeader} {cryptoKey : κ} {raw : Bytes}

theorem settle_importing (hp : c.progress = .importing raw) (hheader : c.header = some parsed)
    (himport : subtle.importKey raw = some cryptoKey) :
    s.settle subtle i c = some { s with
      store := s.store.setImported (entryId c.domain c.keyId) cryptoKey
      calls := s.calls.set i { c with progress := .verifying cryptoKey } } := by
  simp [Service.settle, hp, himport, hheader, Progress.afterLookup]

variable (subtle) in
theorem settle_verifying (hp : c.progress = .verifying cryptoKey) (hheader : c.header = some parsed) :
    s.settle subtle i c = some { s with calls := s.calls.set i { c with
      progress := .resolved
        (if subtle.verify cryptoKey parsed.signature parsed.payloadBytes then
          some (parsed.attestedCode c.domain) else none) } } := by
  simp [Service.settle, hp, hheader]

theorem settle_resolved {answer : Option AttestedCode} (hp : c.progress = .resolved answer) :
    s.settle subtle i c = none := by
  unfold Service.settle
  split
  · rename_i hq
    cases hp.symm.trans hq
  · rename_i hq _
    cases hp.symm.trans hq
  · rfl

/-- How many steps of its own a call of `verifyHeader` has before it. -/
def stepsLeft : Progress κ → Nat
  | .importing _ => 2
  | .verifying _ => 1
  | .imported _ | .resolved _ => 0

variable (subtle) in
/-- The call's header is valid under a key that it imports or checks the signature with, or it has
resolved to the attested code. -/
def OnTrack (attestedCode : AttestedCode) (c : Call κ) : Prop :=
  ∃ parsed cryptoKey, c.header = some parsed ∧ parsed.attestedCode c.domain = attestedCode ∧
    subtle.verify cryptoKey parsed.signature parsed.payloadBytes = true ∧
    ((∃ raw, c.progress = .importing raw ∧ subtle.importKey raw = some cryptoKey) ∨
      c.progress = .verifying cryptoKey ∨ c.progress = .resolved (some attestedCode))

variable {attestedCode : AttestedCode}

theorem OnTrack.settle (h : OnTrack subtle attestedCode c) (hc : s.calls[i]? = some c) :
    c.progress = .resolved (some attestedCode) ∨
      ∃ t c', s.settle subtle i c = some t ∧ t.calls[i]? = some c' ∧
        OnTrack subtle attestedCode c' ∧ stepsLeft c'.progress < stepsLeft c.progress := by
  have hi := (List.getElem?_eq_some_iff.mp hc).1
  obtain ⟨parsed, cryptoKey, hheader, hcode, hvalid, ⟨raw, hp, himport⟩ | hp | hp⟩ := h
  · refine .inr ⟨_, _, settle_importing hp hheader himport, List.getElem?_set_self hi, ?_, ?_⟩
    · exact ⟨parsed, cryptoKey, hheader, hcode, hvalid, .inr (.inl rfl)⟩
    · rw [hp]
      exact Nat.one_lt_two
  · refine .inr ⟨_, _, settle_verifying subtle hp hheader, List.getElem?_set_self hi, ?_, ?_⟩
    · exact ⟨parsed, cryptoKey, hheader, hcode, hvalid, .inr (.inr (by simp [hvalid, hcode]))⟩
    · rw [hp]
      exact Nat.one_pos
  · exact .inl hp

theorem OnTrack.step (h : OnTrack subtle attestedCode c) (hc : s.calls[i]? = some c)
    (hs : step subtle date s e = some t) :
    ∃ c', t.calls[i]? = some c' ∧ OnTrack subtle attestedCode c' := by
  obtain hkeep | hsettle := call_of_step hc hs
  · exact ⟨c, hkeep, h⟩
  · obtain hp | ⟨t', c', hsettle', hc', h', -⟩ := h.settle hc
    · rw [settle_resolved hp] at hsettle
      contradiction
    · obtain rfl := Option.some.inj (hsettle.symm.trans hsettle')
      exact ⟨c', hc', h'⟩

theorem OnTrack.run {es : List ServiceEvent} (h : OnTrack subtle attestedCode c)
    (hc : s.calls[i]? = some c) (hrun : Run subtle date s es t) :
    ∃ c', t.calls[i]? = some c' ∧ OnTrack subtle attestedCode c' := by
  refine hrun.invariant_all (I := fun s => ∃ c, s.calls[i]? = some c ∧ OnTrack subtle attestedCode c)
    ⟨c, hc, h⟩ ?_
  rintro s e t ⟨c, hc, h⟩ hs
  exact h.step hc hs

variable (date) in
/-- Its own steps lead the call to the attested code. -/
theorem OnTrack.finish (h : OnTrack subtle attestedCode c) (hc : s.calls[i]? = some c) :
    ∃ n ≤ stepsLeft c.progress, ∃ u, Run subtle date s (List.replicate n (.settle i)) u ∧
      ∃ c', u.calls[i]? = some c' ∧ c'.progress = .resolved (some attestedCode) := by
  induction hn : stepsLeft c.progress using Nat.strong_induction_on generalizing s c with
  | _ n ih =>
    obtain hp | ⟨t, c', hsettle, hc', h', hless⟩ := h.settle hc
    · exact ⟨0, Nat.zero_le _, s, .nil s, c, hc, hp⟩
    · obtain ⟨m, hm, u, hrun, hdone⟩ := ih _ (hn ▸ hless) h' hc' rfl
      have hstep : Service.step subtle date s (.settle i) = some t :=
        Option.bind_eq_some_iff.mpr ⟨c, hc, hsettle⟩
      exact ⟨m + 1, by omega, u, .cons hstep hrun, hdone⟩

theorem stepsLeft_le (progress : Progress κ) : stepsLeft progress ≤ 2 := by
  cases progress <;> simp [stepsLeft]

/-! ### What the verifier accepts -/

theorem verifyHeader_eq (date : DateParser) (rpDomain : Utf16) {rawHeader : Utf16}
    (hparse : parseAttestationHeader rawHeader = some parsed)
    (htime : validateTimestamp s.clock parsed.payload.ts = true) :
    s.verifyHeader date rawHeader rpDomain =
      s.lookup date rpDomain parsed.keyId (some parsed) := by
  rw [Service.verifyHeader, hparse]
  simp only [htime, if_true]

/-- The call of `verifyHeader` for a header that is in time. -/
theorem verifyHeader_call (date : DateParser) (rpDomain : Utf16) {rawHeader : Utf16}
    (hparse : parseAttestationHeader rawHeader = some parsed)
    (htime : validateTimestamp s.clock parsed.payload.ts = true) :
    ∃ c, (s.verifyHeader date rawHeader rpDomain).calls[s.calls.length]? = some c ∧
      c.domain = rpDomain ∧ c.header = some parsed ∧ c.progress = .afterLookup (some parsed)
        (s.store.getImportedKey date s.clock rpDomain parsed.keyId) := by
  rw [verifyHeader_eq date rpDomain hparse htime]
  exact ⟨_, List.getElem?_concat_length, rfl, rfl, rfl⟩

theorem getImportedKey_of_active {store : KeyStore κ} {now : Int} {domain keyId : Utf16}
    {key : TrustedRpSigningKey} (hcache : store.importedKeys (entryId domain keyId) = none)
    (hdomain : domain ∈ whitelistedRpDomains) (hkey : store.keys (entryId domain keyId) = some key)
    (hactive : key.isKeyActive date now = true) (hraw : hexToBytes key.publicKeyHex = some raw) :
    store.getImportedKey date now domain keyId = .importing raw := by
  have hget : store.getKey date now domain keyId = some key := by
    rw [KeyStore.getKey, if_pos hdomain, hkey, Option.filter_some, if_pos hactive]
  simp [KeyStore.getImportedKey, hcache, hget, hraw]

theorem accepts_of_onTrack {rawHeader rpDomain : Utf16}
    (hc : (s.verifyHeader date rawHeader rpDomain).calls[s.calls.length]? = some c)
    (h : OnTrack subtle attestedCode c) : s.Accepts subtle date rawHeader rpDomain attestedCode := by
  intro es t hrun
  obtain ⟨c', hc', h'⟩ := h.run hc hrun
  obtain ⟨n, hn, u, hdone⟩ := h'.finish date hc'
  exact ⟨n, hn.trans (stepsLeft_le _), u, hdone⟩

/-- A call that has resolved to `null` has no further steps. -/
theorem not_accepts_of_null {rawHeader rpDomain : Utf16} {es : List ServiceEvent}
    (hrun : Run subtle date (s.verifyHeader date rawHeader rpDomain) es t)
    (hc : t.calls[s.calls.length]? = some c) (hp : c.progress = .resolved none) :
    ¬s.Accepts subtle date rawHeader rpDomain attestedCode := by
  intro haccepts
  obtain ⟨n, -, u, hsettles, c', hc', hp'⟩ := haccepts es t hrun
  cases n with
  | zero =>
    cases hsettles
    obtain rfl := Option.some.inj (hc.symm.trans hc')
    cases hp.symm.trans hp'
  | succ n =>
    cases hsettles with
    | cons hs _ =>
      obtain ⟨c'', hc'', hsettle⟩ := Option.bind_eq_some_iff.mp hs
      obtain rfl := Option.some.inj (hc.symm.trans hc'')
      rw [settle_resolved hp] at hsettle
      contradiction

/-- The key that the cache has is the one that counts. -/
theorem accepts_iff_of_cached {rawHeader rpDomain : Utf16} {cached : κ}
    (hparse : parseAttestationHeader rawHeader = some parsed)
    (htime : validateTimestamp s.clock parsed.payload.ts = true)
    (hcache : s.store.importedKeys (entryId rpDomain parsed.keyId) = some cached) :
    s.Accepts subtle date rawHeader rpDomain (parsed.attestedCode rpDomain) ↔
      subtle.verify cached parsed.signature parsed.payloadBytes = true := by
  obtain ⟨c, hc, rfl, hheader, hp⟩ := verifyHeader_call date rpDomain hparse htime
  simp only [KeyStore.getImportedKey, hcache, Progress.afterLookup] at hp
  constructor
  · intro haccepts
    by_contra hinvalid
    have hsettle := settle_verifying subtle (s := s.verifyHeader date rawHeader c.domain)
      (i := s.calls.length) hp hheader
    rw [if_neg hinvalid] at hsettle
    have hstep : Service.step subtle date (s.verifyHeader date rawHeader c.domain)
        (.settle s.calls.length) = some _ := Option.bind_eq_some_iff.mpr ⟨c, hc, hsettle⟩
    exact not_accepts_of_null (.single hstep)
      (List.getElem?_set_self (List.getElem?_eq_some_iff.mp hc).1) rfl haccepts
  · intro hvalid
    exact accepts_of_onTrack hc ⟨parsed, cached, hheader, rfl, hvalid, .inr (.inl hp)⟩

theorem accepts_of_not_cached {rawHeader rpDomain : Utf16} {key : TrustedRpSigningKey}
    (hparse : parseAttestationHeader rawHeader = some parsed)
    (htime : validateTimestamp s.clock parsed.payload.ts = true)
    (hcache : s.store.importedKeys (entryId rpDomain parsed.keyId) = none)
    (hdomain : rpDomain ∈ whitelistedRpDomains)
    (hkey : s.store.keys (entryId rpDomain parsed.keyId) = some key)
    (hactive : key.isKeyActive date s.clock = true) (hraw : hexToBytes key.publicKeyHex = some raw)
    (himport : subtle.importKey raw = some cryptoKey)
    (hvalid : subtle.verify cryptoKey parsed.signature parsed.payloadBytes = true) :
    s.Accepts subtle date rawHeader rpDomain (parsed.attestedCode rpDomain) := by
  obtain ⟨c, hc, rfl, hheader, hp⟩ := verifyHeader_call date rpDomain hparse htime
  rw [getImportedKey_of_active hcache hdomain hkey hactive hraw, Progress.afterLookup] at hp
  exact accepts_of_onTrack hc
    ⟨parsed, cryptoKey, hheader, rfl, hvalid, .inl ⟨raw, hp, himport⟩⟩

section Importing

variable {rawHeader rpDomain : Utf16} (hparse : parseAttestationHeader rawHeader = some parsed)
  (htime : validateTimestamp s.clock parsed.payload.ts = true)
  (hlookup : s.store.getImportedKey date s.clock rpDomain parsed.keyId = .importing raw)

include hparse htime hlookup

theorem verifyHeader_of_importing : s.verifyHeader date rawHeader rpDomain = { s with
    calls := s.calls ++
      [⟨rpDomain, parsed.keyId, some parsed, s.clock, s.store, .importing raw⟩] } := by
  rw [verifyHeader_eq date rpDomain hparse htime, Service.lookup, hlookup]
  rfl

variable (subtle) in
/-- A call that imports its key and then checks the signature, with nothing else in between. -/
theorem run_of_importing (himport : subtle.importKey raw = some cryptoKey)
    (hvalid : subtle.verify cryptoKey parsed.signature parsed.payloadBytes = true) :
    ∃ t c, Run subtle date s [.verifyHeader rawHeader rpDomain, .settle s.calls.length,
        .settle s.calls.length] t ∧ t.calls = s.calls ++ [c] ∧
      c.progress = .resolved (some (parsed.attestedCode rpDomain)) := by
  let call (progress : Progress κ) : Call κ :=
    ⟨rpDomain, parsed.keyId, some parsed, s.clock, s.store, progress⟩
  have hset (c c' : Call κ) : (s.calls ++ [c]).set s.calls.length c' = s.calls ++ [c'] := by simp
  let imported : Service κ := { s with
    store := s.store.setImported (entryId rpDomain parsed.keyId) cryptoKey
    calls := s.calls ++ [call (.verifying cryptoKey)] }
  have hfirst : Service.settle subtle { s with calls := s.calls ++ [call (.importing raw)] }
      s.calls.length (call (.importing raw)) = some imported := by
    rw [settle_importing rfl rfl himport, hset]
  have hsecond : imported.settle subtle s.calls.length (call (.verifying cryptoKey)) =
      some { imported with
        calls := s.calls ++ [call (.resolved (some (parsed.attestedCode rpDomain)))] } := by
    rw [settle_verifying subtle rfl rfl, if_pos hvalid, hset]
  have himported : Service.step subtle date { s with calls := s.calls ++ [call (.importing raw)] }
      (.settle s.calls.length) = some imported :=
    Option.bind_eq_some_iff.mpr ⟨_, List.getElem?_concat_length, hfirst⟩
  have hresolved : Service.step subtle date imported (.settle s.calls.length) = some _ :=
    Option.bind_eq_some_iff.mpr ⟨_, List.getElem?_concat_length, hsecond⟩
  have hrun := Machine.Run.cons himported (.cons hresolved (.nil _))
  have hverify := verifyHeader_of_importing hparse htime hlookup
  exact ⟨_, _, .cons (congrArg some hverify) hrun, rfl, rfl⟩

variable (subtle) in
/-- A key that is added in the course of an import does not stop it. -/
theorem run_of_replaced (himport : subtle.importKey raw = some cryptoKey)
    (key : TrustedRpSigningKey) :
    ∃ t, Run subtle date s [.verifyHeader rawHeader rpDomain, .addKey key,
        .settle s.calls.length] t ∧ t.clock = s.clock ∧
      t.store = (s.store.addKey key).setImported (entryId rpDomain parsed.keyId) cryptoKey := by
  let c : Call κ := ⟨rpDomain, parsed.keyId, some parsed, s.clock, s.store, .importing raw⟩
  let replaced : Service κ := { s with store := s.store.addKey key, calls := s.calls ++ [c] }
  have hsettle : Service.step subtle date replaced (.settle s.calls.length) = some _ :=
    Option.bind_eq_some_iff.mpr
      ⟨c, List.getElem?_concat_length, settle_importing rfl rfl himport⟩
  have hrun : Run subtle date { s with calls := s.calls ++ [c] }
      [.addKey key, .settle s.calls.length] _ := .cons rfl (.cons hsettle (.nil _))
  have hverify := verifyHeader_of_importing hparse htime hlookup
  exact ⟨_, .cons (congrArg some hverify) hrun, rfl, rfl⟩

end Importing

/-! ### The cache of imported keys in a run -/

/-- The store has a key of the given bytes under the id. -/
def HasBytes (store : KeyStore κ) (id : Utf16) (raw : Bytes) : Prop :=
  ∃ key ∈ store.keys id, hexToBytes key.publicKeyHex = some raw

variable (subtle) in
/-- What is in the cache, and what is being imported for it, is the key that the store has. -/
structure CacheInv (s : Service κ) : Prop where
  imported : ∀ id cryptoKey, s.store.importedKeys id = some cryptoKey →
    ∃ raw, HasBytes s.store id raw ∧ subtle.importKey raw = some cryptoKey
  importing : ∀ c ∈ s.calls, ∀ raw, c.progress = .importing raw →
    HasBytes s.store (entryId c.domain c.keyId) raw

theorem CacheInv.addKey {key : TrustedRpSigningKey} (h : CacheInv subtle s) (hk : s.KeepsBytes key) :
    CacheInv subtle { s with store := s.store.addKey key } := by
  have hother : ∀ id raw, id ≠ key.id → HasBytes s.store id raw →
      HasBytes (s.store.addKey key) id raw := by
    rintro id raw hid ⟨old, hold, hbytes⟩
    exact ⟨old, by simpa [KeyStore.addKey, hid] using hold, hbytes⟩
  constructor
  · intro id cryptoKey hc
    by_cases hid : id = key.id
    · simp [KeyStore.addKey, hid] at hc
    · simp only [KeyStore.addKey, Function.update_of_ne hid] at hc
      obtain ⟨raw, hbytes, himport⟩ := h.imported id cryptoKey hc
      exact ⟨raw, hother id raw hid hbytes, himport⟩
  · intro c hc raw hp
    by_cases hid : entryId c.domain c.keyId = key.id
    · refine ⟨key, ?_, hk c hc raw hp hid⟩
      simp [KeyStore.addKey, hid]
    · exact hother _ raw hid (h.importing c hc raw hp)

theorem CacheInv.addKeys {keys : List TrustedRpSigningKey} (h : CacheInv subtle s)
    (hk : ∀ key ∈ keys, s.KeepsBytes key) :
    CacheInv subtle { s with store := s.store.addKeys keys } := by
  induction keys generalizing s with
  | nil => exact h
  | cons key keys ih =>
    have hkey := h.addKey (hk key (List.mem_cons_self ..))
    exact ih hkey fun k hmem => hk k (List.mem_cons_of_mem _ hmem)

theorem CacheInv.setCalls {calls : List (Call κ)} (h : CacheInv subtle s)
    (hcalls : ∀ c ∈ calls, ∀ raw, c.progress = .importing raw →
      HasBytes s.store (entryId c.domain c.keyId) raw) :
    CacheInv subtle { s with calls } := ⟨h.imported, hcalls⟩

theorem CacheInv.lookup {domain keyId : Utf16} {header : Option ParsedAttestationHeader}
    (h : CacheInv subtle s) : CacheInv subtle (s.lookup date domain keyId header) := by
  refine h.setCalls ?_
  intro c hc raw hp
  obtain hc | hc := List.mem_append.mp hc
  · exact h.importing c hc raw hp
  rw [List.mem_singleton] at hc
  subst hc
  obtain ⟨cryptoKey, -, hl⟩ | hl | ⟨key, raw', -, hkey, -, hraw, hl⟩ :=
    getImportedKey_cases date s.store s.clock domain keyId
  · cases header <;> simp [hl, Progress.afterLookup] at hp
  · cases header <;> simp [hl, Progress.afterLookup] at hp
  · simp only [hl, Progress.afterLookup, Progress.importing.injEq] at hp
    exact ⟨key, hkey, hp ▸ hraw⟩

theorem CacheInv.settle (h : CacheInv subtle s) (hc : c ∈ s.calls)
    (hs : s.settle subtle i c = some t) : CacheInv subtle t := by
  have hset {c' : Call κ} (hc' : ∀ raw, c'.progress ≠ .importing raw) :
      ∀ d ∈ s.calls.set i c', ∀ raw, d.progress = .importing raw →
        HasBytes s.store (entryId d.domain d.keyId) raw := by
    intro d hd raw hp
    obtain hd | rfl := List.mem_or_eq_of_mem_set hd
    · exact h.importing d hd raw hp
    · exact absurd hp (hc' raw)
  unfold Service.settle at hs
  split at hs
  · rename_i raw hp
    split at hs
    · rename_i cryptoKey himport
      obtain rfl := Option.some.inj hs
      refine ⟨?_, hset fun _ => by cases c.header <;> simp [Progress.afterLookup]⟩
      intro id key hkey
      by_cases hid : id = entryId c.domain c.keyId
      · simp only [KeyStore.setImported, hid, Function.update_self, Option.some.injEq] at hkey
        exact ⟨raw, hid ▸ h.importing c hc raw hp, hkey ▸ himport⟩
      · simp only [KeyStore.setImported, Function.update_of_ne hid] at hkey
        exact h.imported id key hkey
    · obtain rfl := Option.some.inj hs
      exact h.setCalls (hset fun _ => by cases c.header <;> simp [Progress.afterLookup])
  · obtain rfl := Option.some.inj hs
    exact h.setCalls (hset fun _ => by simp)
  · contradiction

theorem CacheInv.step (h : CacheInv subtle s) (hg : s.KeepsPending e)
    (hs : Service.step subtle date s e = some t) : CacheInv subtle t := by
  cases e with
  | tick now =>
    rw [Service.step] at hs
    split at hs
    · obtain rfl := Option.some.inj hs
      exact ⟨h.imported, h.importing⟩
    · contradiction
  | addKey key =>
    obtain rfl := Option.some.inj hs
    exact h.addKey hg
  | updateManifest manifest =>
    obtain rfl := Option.some.inj hs
    obtain ⟨-, hno⟩ | ⟨hver, hyes⟩ := s.store.updateManifest_cases manifest
    · rw [hno]
      exact h
    · have hsig : manifest.manifestSignature ≠ [] := by
        intro hsig
        simp [KeyStore.updateManifest, hsig] at hyes
      rw [hyes]
      obtain ⟨himported, himporting⟩ := h.addKeys (hg hsig hver)
      exact ⟨himported, himporting⟩
  | getImportedKey domain keyId =>
    obtain rfl := Option.some.inj hs
    exact h.lookup
  | verifyHeader rawHeader rpDomain =>
    obtain rfl := Option.some.inj hs
    unfold Service.verifyHeader
    split
    · exact h
    · split
      · exact h.lookup
      · exact h
  | settle j =>
    obtain ⟨c, hc, hsettle⟩ := Option.bind_eq_some_iff.mp hs
    exact h.settle (List.mem_of_getElem? hc) hsettle

theorem CacheInv.init (keys : List TrustedRpSigningKey) (clock : Int) :
    CacheInv subtle ({ store := .new keys, clock } : Service κ) := by
  have hempty : CacheInv subtle ({ clock } : Service κ) := ⟨by simp, by simp⟩
  exact hempty.addKeys (by simp [KeepsBytes])

/-- Headers round trip where the cache has no keys but those of the store. -/
theorem CacheInv.roundTrips (hcorrect : Correct signer subtle) (h : CacheInv subtle s) :
    s.RoundTrips signer subtle date := by
  intro env cache now nonce controlCode rpDomain keyId sessionId header hne hcreate
  obtain ⟨hdomain, privateKey, signature, hdemo, hsign, rfl⟩ :=
    createDemoAttestationHeader_some hcreate
  obtain ⟨jwk, hjwk, himport⟩ := Option.bind_eq_some_iff.mp hdemo
  obtain ⟨parsed, hparse, hcode, hsession, hts, rfl, rfl, hbytes⟩ :=
    parse_demo_header now sessionId signature hne (not_mem_demo_keyId hjwk)
  refine ⟨parsed, hparse, hcode, hsession, hts, rfl, hbytes, ?_⟩
  rintro hnear ⟨key, hkey, hactive, jwk', raw, hjwk', hpublic, hraw⟩
  obtain rfl := Option.some.inj (hjwk.symm.trans hjwk')
  obtain ⟨cryptoKey, hcryptoKey, hvalid⟩ := hcorrect _ jwk raw privateKey hjwk hpublic himport
  have htime : validateTimestamp s.clock parsed.payload.ts = true := by
    rw [validateTimestamp, hts]
    exact decide_eq_true hnear
  have hverify := hvalid nonce _ parsed.signature (hbytes ▸ hsign)
  cases hcache : s.store.importedKeys (entryId rpDomain parsed.keyId) with
  | none =>
    exact accepts_of_not_cached hparse htime hcache hdomain hkey hactive hraw hcryptoKey hverify
  | some cached =>
    obtain ⟨raw', ⟨key', hkey', hraw'⟩, himport'⟩ := h.imported _ cached hcache
    obtain rfl := Option.some.inj (hkey.symm.trans hkey')
    obtain rfl := Option.some.inj (hraw.symm.trans hraw')
    obtain rfl := Option.some.inj (hcryptoKey.symm.trans himport')
    exact (accepts_iff_of_cached hparse htime hcache).mpr hverify

/-- In every run from a store of any keys, in which no key is replaced by one of other bytes while it
is being imported, headers round trip in every state. -/
theorem roundTrips_of_keepsPending (hcorrect : Correct signer subtle)
    {keys : List TrustedRpSigningKey} {clock : Int} {es : List ServiceEvent}
    (hg : Machine.Throughout (Service.step subtle date) KeepsPending { store := .new keys, clock }
      es) :
    Machine.Everywhere (Service.step subtle date) (RoundTrips signer subtle date)
      { store := .new keys, clock } es := by
  refine Machine.Everywhere.mono ?_ fun s h => CacheInv.roundTrips hcorrect h
  exact Machine.everywhere_of_throughout (CacheInv.init keys clock) hg fun s e t h hg hs =>
    h.step hg hs

/-! ### A key that is replaced while it is imported -/

/-- A scheme in which a signature is the public key and the signed data. -/
def keyed : Subtle Bytes where
  importKey raw := some raw
  verify key signature data := signature = key ++ data

def keyedSigner : Signer Bytes where
  importKey jwk := jwk.publicKey
  sign key _ data := some (key ++ data)

theorem correct_keyed : Correct keyedSigner keyed := by
  intro keyId jwk raw privateKey _ hpublic himport
  obtain rfl := Option.some.inj (hpublic.symm.trans himport)
  refine ⟨raw, rfl, ?_⟩
  intro nonce data signature hsign
  exact decide_eq_true (Option.some.inj hsign).symm

/-- A key of lhv.ee with the id of its first one. -/
def lhvKey (x y : String) : TrustedRpSigningKey where
  domain := ofString "lhv.ee"
  keyId := ofString "lhv-2026q1"
  publicKeyHex := ofString x ++ ofString y
  notBefore := ofString "2025-06-01T00:00:00Z"
  notAfter := ofString "2027-01-01T00:00:00Z"

def lhvFirst : TrustedRpSigningKey :=
  lhvKey "0430ea585698203ec224270620005117658f4a567438a842d336b7edf0821b8602"
    "a0379f423d232aa0158ee6c8c06f18c6a083a507be31a21b13df2a2af86bd03b"

/-- The public key of lhv.ee's second demo key. -/
def lhvSecond : TrustedRpSigningKey :=
  lhvKey "04b8ed46f6a4d9906a456189b6c90515ced1944df8a9c10ca0e55d03159245a55c"
    "ccf64c249486b07d4f9ce79fdcd39ec6d9b572f3886a14416797bafb249b4367"

/-- `Date` on the period of validity of these keys. -/
def lhvDates : DateParser := fun text =>
  if text = ofString "2025-06-01T00:00:00Z" then some 1748736000000
  else if text = ofString "2027-01-01T00:00:00Z" then some 1798761600000
  else none

/-- A header with the code 4321, made on the first day of 2026. -/
def lhvHeader : Utf16 :=
  (createDemoAttestationHeader ⟨true, []⟩ ({} : ImportedKeyCache keyedSigner) 1767225600000 0
    (ofString "4321") (ofString "lhv.ee") (ofString "lhv-2026q1") none).1.getD []

theorem lhvHeader_eq :
    (createDemoAttestationHeader ⟨true, []⟩ ({} : ImportedKeyCache keyedSigner) 1767225600000 0
      (ofString "4321") (ofString "lhv.ee") (ofString "lhv-2026q1") none).1 = some lhvHeader := by
  decide +kernel

/-- A header leads to the import of the second key, and the first one is added meanwhile. -/
def replacement : List ServiceEvent :=
  [.verifyHeader lhvHeader (ofString "lhv.ee"), .addKey lhvFirst, .settle 0]

/-- What the service has for lhv.ee and the first key's id, and its clock. -/
def lhvEntry (s : Service Bytes) : Option TrustedRpSigningKey × Option Bytes × Int :=
  (s.store.keys lhvFirst.id, s.store.importedKeys lhvFirst.id, s.clock)

theorem lhvFirst_public : ∃ jwk raw, demoPrivateKeys.lookup (ofString "lhv-2026q1") = some jwk ∧
    jwk.publicKey = some raw ∧ hexToBytes lhvFirst.publicKeyHex = some raw := by
  have hmatch : (demoPrivateKeys.lookup (ofString "lhv-2026q1")).any (fun jwk =>
      jwk.publicKey.any fun raw => hexToBytes lhvFirst.publicKeyHex = some raw) = true := by
    decide +kernel
  obtain ⟨jwk, hjwk, hany⟩ := (Option.any_eq_true ..).mp hmatch
  obtain ⟨raw, hpublic, hraw⟩ := (Option.any_eq_true ..).mp hany
  exact ⟨jwk, raw, hjwk, hpublic, of_decide_eq_true hraw⟩

theorem isKeyActive_lhvKey (x y : String) :
    (lhvKey x y).isKeyActive lhvDates 1767225600000 = true := by
  show ((lhvDates (ofString "2025-06-01T00:00:00Z")).any (· ≤ 1767225600000) &&
    (lhvDates (ofString "2027-01-01T00:00:00Z")).any (1767225600000 ≤ ·)) = true
  decide +kernel

theorem lookup_lhvKey (store : KeyStore Bytes) (x y : String) {raw : Bytes}
    (hraw : hexToBytes (lhvKey x y).publicKeyHex = some raw) :
    (store.addKey (lhvKey x y)).getImportedKey lhvDates 1767225600000 (ofString "lhv.ee")
      (ofString "lhv-2026q1") = .importing raw := by
  have hid : entryId (ofString "lhv.ee") (ofString "lhv-2026q1") = (lhvKey x y).id := rfl
  refine getImportedKey_of_active ?_ (by decide) ?_ (isKeyActive_lhvKey x y) hraw
  · simp [hid, KeyStore.addKey]
  · simp [hid, KeyStore.addKey]

theorem parse_lhvHeader : ∃ parsed raw, parseAttestationHeader lhvHeader = some parsed ∧
    parsed.payload.code = ofString "4321" ∧ parsed.keyId = ofString "lhv-2026q1" ∧
    validateTimestamp 1767225600000 parsed.payload.ts = true ∧
    hexToBytes lhvFirst.publicKeyHex = some raw ∧
    parsed.signature = raw ++ parsed.payloadBytes := by
  obtain ⟨-, privateKey, signature, hdemo, hsign, hheader⟩ :=
    createDemoAttestationHeader_some lhvHeader_eq
  obtain ⟨jwk, raw, hjwk, hpublic, hraw⟩ := lhvFirst_public
  have hne : ofString "4321" ≠ [] := by decide
  obtain ⟨parsed, hparse, hcode, -, hts, hkeyId, rfl, hbytes⟩ :=
    parse_demo_header 1767225600000 none signature hne (not_mem_demo_keyId hjwk)
  rw [hheader]
  refine ⟨parsed, raw, hparse, hcode, hkeyId, ?_, hraw, ?_⟩
  · rw [validateTimestamp, hts, sub_self, abs_zero]
    decide
  · rw [importDemoKey, hjwk, Option.bind_some] at hdemo
    obtain rfl := Option.some.inj (hpublic.symm.trans hdemo)
    rw [hbytes]
    exact (Option.some.inj hsign).symm

theorem isSome_lhvSecond : (hexToBytes lhvSecond.publicKeyHex).isSome = true := by decide +kernel

theorem lhvFirst_ne_lhvSecond :
    hexToBytes lhvFirst.publicKeyHex ≠ hexToBytes lhvSecond.publicKeyHex := by
  decide +kernel

/-- The second key is imported under the id of the first one. -/
theorem run_replacement {parsed : ParsedAttestationHeader}
    (hparse : parseAttestationHeader lhvHeader = some parsed)
    (hkeyId : parsed.keyId = ofString "lhv-2026q1")
    (htime : validateTimestamp 1767225600000 parsed.payload.ts = true) :
    ∃ t, Run keyed lhvDates { store := .new [lhvSecond], clock := 1767225600000 } replacement t ∧
      lhvEntry t = (some lhvFirst, hexToBytes lhvSecond.publicKeyHex, 1767225600000) := by
  obtain ⟨raw, hraw⟩ := Option.isSome_iff_exists.mp isSome_lhvSecond
  have hlookup : (KeyStore.new [lhvSecond] : KeyStore Bytes).getImportedKey lhvDates
      1767225600000 (ofString "lhv.ee") parsed.keyId = .importing raw := by
    rw [hkeyId]
    exact lookup_lhvKey _ _ _ hraw
  obtain ⟨t, hrun, hclock, hstore⟩ := run_of_replaced keyed
    (s := { store := .new [lhvSecond], clock := 1767225600000 }) hparse htime hlookup rfl lhvFirst
  refine ⟨t, hrun, ?_⟩
  rw [lhvEntry, hstore, hclock, hkeyId, hraw]
  have hid : entryId (ofString "lhv.ee") (ofString "lhv-2026q1") = lhvFirst.id := rfl
  simp [hid, KeyStore.setImported, KeyStore.addKey]

/-- The first key is in the store, and its header is rejected. -/
theorem replaced_key_rejects_header : Correct keyedSigner keyed ∧
    ∃ t, Run keyed lhvDates { store := .new [lhvSecond], clock := 1767225600000 } replacement t ∧
      ¬t.RoundTrips keyedSigner keyed lhvDates := by
  obtain ⟨parsed, raw, hparse, -, hkeyId, hstart, hraw, hsignature⟩ := parse_lhvHeader
  obtain ⟨t, hrun, hentry⟩ := run_replacement hparse hkeyId hstart
  simp only [lhvEntry, Prod.mk.injEq] at hentry
  obtain ⟨hkey, hcache, hclock⟩ := hentry
  refine ⟨correct_keyed, t, hrun, ?_⟩
  intro hround
  obtain ⟨parsed', hparse', -, -, hts, -, -, haccepts⟩ :=
    hround _ _ _ _ _ _ _ _ _ (by decide) lhvHeader_eq
  obtain rfl := Option.some.inj (hparse.symm.trans hparse')
  have hactive : lhvFirst.isKeyActive lhvDates t.clock = true := by
    rw [hclock]
    exact isKeyActive_lhvKey ..
  have hnear : |seconds t.clock - seconds 1767225600000| ≤ 30 := by
    rw [hclock, sub_self, abs_zero]
    decide
  have haccepts := haccepts hnear ⟨lhvFirst, hkey, hactive, lhvFirst_public⟩
  have htime : validateTimestamp t.clock parsed.payload.ts = true := by
    rw [validateTimestamp, hts]
    exact decide_eq_true hnear
  obtain ⟨cached, hcached⟩ := Option.isSome_iff_exists.mp isSome_lhvSecond
  have hcache' : t.store.importedKeys (entryId (ofString "lhv.ee") parsed.keyId) = some cached := by
    rw [hkeyId, ← hcached, ← hcache]
    rfl
  have hvalid := (accepts_iff_of_cached hparse htime hcache').mp haccepts
  -- the signature is the first key and the payload, and the cache has the second key
  have hsame : raw ++ parsed.payloadBytes = cached ++ parsed.payloadBytes :=
    hsignature.symm.trans (of_decide_eq_true hvalid)
  obtain rfl := List.append_cancel_right hsame
  exact lhvFirst_ne_lhvSecond (hraw.trans hcached.symm)

/-- The header is checked with the first key in the store. -/
def lhvCheck : List ServiceEvent :=
  [.addKey lhvFirst, .verifyHeader lhvHeader (ofString "lhv.ee"), .settle 0, .settle 0]

/-- The control codes that the calls have resolved to. -/
def acceptedCodes (s : Service κ) : List (Option Utf16) :=
  s.calls.map fun c =>
    match c.progress with
    | .resolved (some attestedCode) => some attestedCode.controlCode
    | _ => none

theorem demo_header_is_accepted :
    ∃ t, Run keyed lhvDates { store := .new [], clock := 1767225600000 } lhvCheck t ∧
      t.acceptedCodes = [some (ofString "4321")] ∧
      Machine.Everywhere (Service.step keyed lhvDates) (RoundTrips keyedSigner keyed lhvDates)
        { store := .new [], clock := 1767225600000 } lhvCheck := by
  obtain ⟨parsed, raw, hparse, hcode, hkeyId, htime, hraw, hsignature⟩ := parse_lhvHeader
  have hlookup : ((KeyStore.new []).addKey lhvFirst : KeyStore Bytes).getImportedKey lhvDates
      1767225600000 (ofString "lhv.ee") parsed.keyId = .importing raw := by
    rw [hkeyId]
    exact lookup_lhvKey _ _ _ hraw
  obtain ⟨t, c, hrun, hcalls, hprogress⟩ := run_of_importing keyed
    (s := { store := (KeyStore.new []).addKey lhvFirst, clock := 1767225600000 })
    hparse htime hlookup rfl (decide_eq_true hsignature)
  refine ⟨t, .cons rfl hrun, ?_, roundTrips_of_keepsPending correct_keyed ?_⟩
  · rw [acceptedCodes, hcalls, List.nil_append, List.map_singleton, hprogress]
    exact congrArg (fun code => [some code]) hcode
  refine ⟨?_, fun _ _ => ⟨trivial, fun _ _ => ⟨trivial, fun _ _ => ⟨trivial, fun _ _ => trivial⟩⟩⟩⟩
  exact fun c hc => absurd hc List.not_mem_nil

end Service

end SmartIdVault.Attestation
