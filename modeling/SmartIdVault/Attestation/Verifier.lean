import SmartIdVault.Attestation.KeyStore
import SmartIdVault.Lib.Machine
import Mathlib.Algebra.Order.Group.Abs

/-! `createVerifier` of `lib/attestation/verifier.ts` over a key store that changes while calls
wait.  The cache of imported keys is looked up before the key itself, so that a key in it is used
whatever its dates say; an import that was begun before its key was replaced puts the old key in the
cache; and two pairs of domain and key id may have the same text.  A header that is accepted is
vouched for by a key of the store in every run that stays clear of the three. -/

namespace SmartIdVault.Attestation

open Utf16 (ofString)

structure AttestedCode where
  controlCode : Utf16
  rpDomain : Utf16
  keyId : Utf16
  signature : Utf16
  sessionId : Option Json
  timestamp : Decimal

inductive AttestationStatus
  | verified (attestedCode : AttestedCode)
  | domOnly
  | ratDetected (attestedCode : AttestedCode) (domCode : Utf16)
  | notApplicable

/-- The control code that the server attests against the one in the page; an empty code is none. -/
def verifyControlCode (attestedCode : Option AttestedCode) (domCode : Option Utf16) :
    AttestationStatus :=
  match attestedCode, domCode.filter (· ≠ []) with
  | none, none => .notApplicable
  | none, some _ => .domOnly
  | some attested, none => .verified attested
  | some attested, some code =>
    if attested.controlCode = code then .verified attested else .ratDetected attested code

def timestampToleranceSeconds : ℚ := 30

/-- `Math.floor(Date.now() / 1000)` at a time in milliseconds. -/
def seconds (now : Int) : ℚ := ((now / 1000 : Int) : ℚ)

def validateTimestamp (now : Int) (ts : Decimal) : Bool :=
  |seconds now - ts.value| ≤ timestampToleranceSeconds

/-- The bytes that a header's signature is on. -/
def ParsedAttestationHeader.payloadBytes (header : ParsedAttestationHeader) : Bytes :=
  Utf8.textEncode (sortedJsonStringify header.payload.json)

def ParsedAttestationHeader.attestedCode (header : ParsedAttestationHeader) (rpDomain : Utf16) :
    AttestedCode where
  controlCode := header.payload.code
  rpDomain
  keyId := header.keyId
  signature := header.signatureB64
  sessionId := header.payload.session
  timestamp := header.payload.ts

/-- Where a call stands: it awaits the import of a key or the check of a signature, or it has
resolved, to an imported key or to an attested code. -/
inductive Progress (κ : Type)
  | importing (raw : Bytes)
  | verifying (cryptoKey : κ)
  | imported (cryptoKey : Option κ)
  | resolved (attestedCode : Option AttestedCode)

/-- A call of `verifyHeader` on a header that parses, or of `getImportedKey`, for which there is
none.  `startedAt` and `store` record the time and the key store when it was made. -/
structure Call (κ : Type) where
  domain : Utf16
  keyId : Utf16
  header : Option ParsedAttestationHeader
  startedAt : Int
  store : KeyStore κ
  progress : Progress κ

/-- The key store, the clock and the calls that have been made. -/
structure Service (κ : Type) where
  store : KeyStore κ := {}
  clock : Int := 0
  calls : List (Call κ) := []

inductive ServiceEvent
  | tick (now : Int)
  | addKey (key : TrustedRpSigningKey)
  | updateManifest (manifest : SignedKeyManifest)
  | getImportedKey (domain keyId : Utf16)
  | verifyHeader (rawHeader rpDomain : Utf16)
  | settle (i : Nat)
  deriving DecidableEq, Repr

/-- A call after its lookup in the key store. -/
def Progress.afterLookup {κ : Type} (header : Option ParsedAttestationHeader) :
    KeyStore.Lookup κ → Progress κ
  | .cached cryptoKey =>
    match header with
    | none => .imported (some cryptoKey)
    | some _ => .verifying cryptoKey
  | .null =>
    match header with
    | none => .imported none
    | some _ => .resolved none
  | .importing raw => .importing raw

namespace Service

variable {κ : Type} (subtle : Subtle κ) (date : DateParser)

/-- A call of `getImportedKey`, for itself or for a header. -/
def lookup (s : Service κ) (domain keyId : Utf16) (header : Option ParsedAttestationHeader) :
    Service κ :=
  { s with calls := s.calls ++ [{
      domain, keyId, header
      startedAt := s.clock
      store := s.store
      progress := .afterLookup header (s.store.getImportedKey date s.clock domain keyId) }] }

/-- The start of `verifyHeader`; a header that does not parse, or is out of time, has no effect. -/
def verifyHeader (s : Service κ) (rawHeader rpDomain : Utf16) : Service κ :=
  match parseAttestationHeader rawHeader with
  | none => s
  | some header =>
    if validateTimestamp s.clock header.payload.ts then
      s.lookup date rpDomain header.keyId (some header)
    else s

/-- What call `i` awaits settles: the import of its key, or the check of the signature. -/
def settle (s : Service κ) (i : Nat) (c : Call κ) : Option (Service κ) :=
  match c.progress, c.header with
  | .importing raw, header =>
    match subtle.importKey raw with
    | some cryptoKey => some { s with
        store := s.store.setImported (entryId c.domain c.keyId) cryptoKey
        calls := s.calls.set i { c with progress := .afterLookup header (.cached cryptoKey) } }
    | none => some { s with
        calls := s.calls.set i { c with progress := .afterLookup header .null } }
  | .verifying cryptoKey, some header =>
    let valid := subtle.verify cryptoKey header.signature header.payloadBytes
    some { s with calls := s.calls.set i { c with
      progress := .resolved (if valid then some (header.attestedCode c.domain) else none) } }
  | _, _ => none

def step (s : Service κ) : ServiceEvent → Option (Service κ)
  | .tick now => if s.clock ≤ now then some { s with clock := now } else none
  | .addKey key => some { s with store := s.store.addKey key }
  | .updateManifest manifest => some { s with store := (s.store.updateManifest manifest).2 }
  | .getImportedKey domain keyId => some (s.lookup date domain keyId none)
  | .verifyHeader rawHeader rpDomain => some (s.verifyHeader date rawHeader rpDomain)
  | .settle i => (s.calls[i]?).bind (s.settle subtle i)

abbrev Run (s : Service κ) (es : List ServiceEvent) (t : Service κ) : Prop :=
  Machine.Run (step subtle date) s es t

/-- At time `t` the store held a key of the whitelisted domain with the header's key id, in its
period of validity, under which the header's signature is valid, and the header was in time. -/
def Vouched (store : KeyStore κ) (t : Int) (domain : Utf16) (header : ParsedAttestationHeader) :
    Prop :=
  ∃ id key notBefore notAfter raw cryptoKey, store.keys id = some key ∧
    key.domain = domain ∧ domain ∈ whitelistedRpDomains ∧ key.keyId = header.keyId ∧
    date key.notBefore = some notBefore ∧ date key.notAfter = some notAfter ∧
    notBefore ≤ t ∧ t ≤ notAfter ∧
    hexToBytes key.publicKeyHex = some raw ∧ subtle.importKey raw = some cryptoKey ∧
    subtle.verify cryptoKey header.signature header.payloadBytes = true ∧
    |seconds t - header.payload.ts.value| ≤ 30

/-- Every call of `verifyHeader` that has resolved to an attested code was vouched for when it was
made. -/
def Sound (s : Service κ) : Prop :=
  ∀ c ∈ s.calls, ∀ code, c.progress = .resolved (some code) →
    ∃ header ∈ c.header, Vouched subtle date c.store c.startedAt c.domain header

/-- The key's domain has no colon, and no import of a key that it replaces by one of other bytes is
under way. -/
def Replaceable (s : Service κ) (key : TrustedRpSigningKey) : Prop :=
  0x3a ∉ key.domain ∧ ∀ c ∈ s.calls, ∀ raw, c.progress = .importing raw →
    entryId c.domain c.keyId = key.id →
      ∀ old ∈ s.store.keys key.id, old.publicKeyHex = key.publicKeyHex

/-- Keys are replaceable when they are added, and a header whose key is in the cache is checked for
a domain without colon while the key is valid. -/
def Undisturbed (s : Service κ) : ServiceEvent → Prop
  | .addKey key => s.Replaceable key
  | .updateManifest manifest =>
    manifest.manifestSignature ≠ [] → s.store.manifestVersion < manifest.version.value →
      ∀ key ∈ manifest.keys, s.Replaceable key
  | .verifyHeader rawHeader rpDomain =>
    ∀ header ∈ parseAttestationHeader rawHeader, validateTimestamp s.clock header.payload.ts →
      (s.store.importedKeys (entryId rpDomain header.keyId)).isSome →
        0x3a ∉ rpDomain ∧ ∀ key ∈ s.store.keys (entryId rpDomain header.keyId),
          key.isKeyActive date s.clock
  | _ => True

/-! ### The invariant -/

theorem entryId_inj {d d' k k' : Utf16} (hd : 0x3a ∉ d) (hd' : 0x3a ∉ d')
    (h : entryId d k = entryId d' k') : d = d' ∧ k = k' := by
  have hcolon : ∀ {e e' l l' : Utf16}, 0x3a ∉ e → e ++ 0x3a :: l = e' ++ 0x3a :: l' →
      e.length ≤ e'.length := by
    intro e e' l l' he heq
    by_contra hlt
    have hget := congrArg (·[e'.length]?) heq
    rw [List.getElem?_append_left (by omega), List.getElem?_append_right (by omega)] at hget
    simp only [Nat.sub_self, List.getElem?_cons_zero] at hget
    exact he (List.mem_of_getElem? hget)
  have hlen := Nat.le_antisymm (hcolon hd h) (hcolon hd' h.symm)
  obtain ⟨rfl, htail⟩ := List.append_inj h hlen
  exact ⟨rfl, (List.cons.inj htail).2⟩

theorem no_colon_of_whitelisted : ∀ d ∈ whitelistedRpDomains, (0x3a : UInt16) ∉ d := by
  decide +kernel

/-- The store has the key of the given bytes under the id, for a whitelisted domain. -/
def Holds (store : KeyStore κ) (id : Utf16) (raw : Bytes) : Prop :=
  ∃ key, store.keys id = some key ∧ key.domain ∈ whitelistedRpDomains ∧
    hexToBytes key.publicKeyHex = some raw

/-- What the call is for was in order when it was made, with a key of the given bytes. -/
def InOrder (c : Call κ) (raw : Bytes) (header : ParsedAttestationHeader) : Prop :=
  ∃ key, c.store.keys (entryId c.domain c.keyId) = some key ∧ key.domain = c.domain ∧
    c.domain ∈ whitelistedRpDomains ∧ key.keyId = header.keyId ∧
    key.isKeyActive date c.startedAt ∧ hexToBytes key.publicKeyHex = some raw ∧
    validateTimestamp c.startedAt header.payload.ts

def CallInv (store : KeyStore κ) (c : Call κ) : Prop :=
  match c.progress with
  | .importing raw => Holds store (entryId c.domain c.keyId) raw ∧
      ∀ header ∈ c.header, InOrder date c raw header
  | .verifying cryptoKey => ∀ header ∈ c.header,
      ∃ raw, subtle.importKey raw = some cryptoKey ∧ InOrder date c raw header
  | .resolved (some _) => ∃ header ∈ c.header,
      Vouched subtle date c.store c.startedAt c.domain header
  | _ => True

structure Inv (s : Service κ) : Prop where
  keys : ∀ id key, s.store.keys id = some key → 0x3a ∉ key.domain
  imported : ∀ id cryptoKey, s.store.importedKeys id = some cryptoKey →
    ∃ raw, Holds s.store id raw ∧ subtle.importKey raw = some cryptoKey
  calls : ∀ c ∈ s.calls, CallInv subtle date s.store c

variable {subtle date} {s t : Service κ}

/-- Only the keys of the store count for a call that awaits an import. -/
theorem CallInv.congr {store store' : KeyStore κ} {c : Call κ} (h : CallInv subtle date store c)
    (hkeys : ∀ raw, c.progress = .importing raw →
      Holds store (entryId c.domain c.keyId) raw → Holds store' (entryId c.domain c.keyId) raw) :
    CallInv subtle date store' c := by
  unfold CallInv at h ⊢
  split
  · rename_i raw hp
    rw [hp] at h
    exact ⟨hkeys raw hp h.1, h.2⟩
  · rename_i cryptoKey hp
    rw [hp] at h
    exact h
  · rename_i code hp
    rw [hp] at h
    exact h
  · trivial

theorem Inv.addKey {key : TrustedRpSigningKey} (h : Inv subtle date s) (hr : s.Replaceable key) :
    Inv subtle date { s with store := s.store.addKey key } := by
  have hother : ∀ id raw, id ≠ key.id → Holds s.store id raw →
      Holds (s.store.addKey key) id raw := by
    rintro id raw hid ⟨old, hold, hrest⟩
    exact ⟨old, by simp [KeyStore.addKey, hid, hold], hrest⟩
  refine ⟨?_, ?_, ?_⟩
  · intro id k hk
    by_cases hid : id = key.id
    · subst hid
      simp only [KeyStore.addKey, Function.update_self, Option.some.injEq] at hk
      exact hk ▸ hr.1
    · simp only [KeyStore.addKey, Function.update_of_ne hid] at hk
      exact h.keys id k hk
  · intro id cryptoKey hc
    by_cases hid : id = key.id
    · simp [KeyStore.addKey, hid] at hc
    · simp only [KeyStore.addKey, Function.update_of_ne hid] at hc
      obtain ⟨raw, hholds, himport⟩ := h.imported id cryptoKey hc
      exact ⟨raw, hother id raw hid hholds, himport⟩
  · intro c hc
    apply (h.calls c hc).congr
    intro raw hp hholds
    by_cases hid : entryId c.domain c.keyId = key.id
    · obtain ⟨old, hold, hdomain, hraw⟩ := hholds
      rw [hid] at hold ⊢
      have hhex := hr.2 c hc raw hp hid old hold
      obtain ⟨hdom, -⟩ := entryId_inj (h.keys _ _ hold) hr.1 (s.store.keyed _ _ hold)
      exact ⟨key, by simp [KeyStore.addKey], hdom ▸ hdomain, hhex ▸ hraw⟩
    · exact hother _ raw hid hholds

/-- A key that may replace another one still may when a further such key has been added. -/
theorem Replaceable.addKey {key other : TrustedRpSigningKey} (h : Inv subtle date s)
    (hk : s.Replaceable key) (ho : s.Replaceable other) :
    Replaceable { s with store := s.store.addKey other } key := by
  refine ⟨hk.1, ?_⟩
  intro c hc raw hp hid old hold
  by_cases hsame : key.id = other.id
  · have hcall := h.calls c hc
    simp only [CallInv, hp] at hcall
    obtain ⟨⟨first, hfirst, -⟩, -⟩ := hcall
    rw [hid] at hfirst
    simp only [KeyStore.addKey, hsame, Function.update_self, Option.mem_def,
      Option.some.injEq] at hold
    rw [← hold, ← hk.2 c hc raw hp hid first hfirst]
    rw [hsame] at hid hfirst
    exact (ho.2 c hc raw hp hid first hfirst).symm
  · simp only [KeyStore.addKey, Function.update_of_ne hsame] at hold
    exact hk.2 c hc raw hp hid old hold

theorem Inv.addKeys {keys : List TrustedRpSigningKey} (h : Inv subtle date s)
    (hr : ∀ key ∈ keys, s.Replaceable key) :
    Inv subtle date { s with store := s.store.addKeys keys } := by
  induction keys generalizing s with
  | nil => exact h
  | cons key keys ih =>
    have hkey := hr key (List.mem_cons_self ..)
    apply ih (s := { s with store := s.store.addKey key }) (h.addKey hkey)
    intro k hk
    exact (hr k (List.mem_cons_of_mem _ hk)).addKey h hkey

theorem Inv.updateManifest {manifest : SignedKeyManifest} (h : Inv subtle date s)
    (hg : s.Undisturbed date (.updateManifest manifest)) :
    Inv subtle date { s with store := (s.store.updateManifest manifest).2 } := by
  obtain ⟨-, hno⟩ | ⟨hver, hyes⟩ := s.store.updateManifest_cases manifest
  · rw [hno]
    exact h
  · rw [hyes]
    by_cases hsig : manifest.manifestSignature = []
    · simp [KeyStore.updateManifest, hsig] at hyes
    · obtain ⟨hkeys, himported, hcalls⟩ := h.addKeys (hg hsig hver)
      exact ⟨hkeys, himported, hcalls⟩

variable (date) in
/-- What a lookup finds: a key in the cache, nothing, or the bytes of a key that is valid now. -/
theorem getImportedKey_cases (store : KeyStore κ) (now : Int) (domain keyId : Utf16) :
    (∃ cryptoKey, store.importedKeys (entryId domain keyId) = some cryptoKey ∧
      store.getImportedKey date now domain keyId = .cached cryptoKey) ∨
    store.getImportedKey date now domain keyId = .null ∨
    ∃ key raw, domain ∈ whitelistedRpDomains ∧ store.keys (entryId domain keyId) = some key ∧
      key.isKeyActive date now ∧ hexToBytes key.publicKeyHex = some raw ∧
      store.getImportedKey date now domain keyId = .importing raw := by
  unfold KeyStore.getImportedKey
  cases hc : store.importedKeys (entryId domain keyId) with
  | some cryptoKey => exact .inl ⟨cryptoKey, rfl, rfl⟩
  | none =>
    cases hkey : store.getKey date now domain keyId with
    | none => exact .inr (.inl rfl)
    | some key =>
      simp only [KeyStore.getKey, Option.ite_none_right_eq_some, Option.filter_eq_some_iff] at hkey
      obtain ⟨hdomain, hsome, hactive⟩ := hkey
      cases hraw : hexToBytes key.publicKeyHex with
      | none => exact .inr (.inl (by simp [hraw]))
      | some raw => exact .inr (.inr ⟨key, raw, hdomain, hsome, hactive, hraw, by simp [hraw]⟩)

theorem Inv.lookup {domain keyId : Utf16} {header : Option ParsedAttestationHeader}
    (h : Inv subtle date s)
    (htime : ∀ hd ∈ header, hd.keyId = keyId ∧ validateTimestamp s.clock hd.payload.ts)
    (hcache : ∀ hd ∈ header, (s.store.importedKeys (entryId domain keyId)).isSome →
      0x3a ∉ domain ∧ ∀ key ∈ s.store.keys (entryId domain keyId), key.isKeyActive date s.clock) :
    Inv subtle date (s.lookup date domain keyId header) := by
  refine ⟨h.keys, h.imported, ?_⟩
  intro c hc
  obtain hc | hc := List.mem_append.mp hc
  · exact h.calls c hc
  rw [List.mem_singleton] at hc
  subst hc
  obtain ⟨cryptoKey, hcached, hl⟩ | hl | ⟨key, raw, hdomain, hsome, hactive, hraw, hl⟩ :=
    getImportedKey_cases date s.store s.clock domain keyId
  · cases header with
    | none => simp [CallInv, hl, Progress.afterLookup]
    | some hd =>
      obtain ⟨hno, hactive⟩ := hcache hd rfl (by simp [hcached])
      obtain ⟨raw, ⟨key, hsome, hwhite, hraw⟩, himport⟩ := h.imported _ _ hcached
      obtain ⟨hdom, hkid⟩ := entryId_inj (h.keys _ _ hsome) hno (s.store.keyed _ _ hsome)
      obtain ⟨hhd, hts⟩ := htime hd rfl
      simp only [CallInv, hl, Progress.afterLookup, Option.mem_def, Option.some.injEq]
      rintro _ rfl
      exact ⟨raw, himport, key, hsome, hdom, hdom ▸ hwhite, hkid.trans hhd.symm,
        hactive key hsome, hraw, hts⟩
  · cases header <;> simp [CallInv, hl, Progress.afterLookup]
  · obtain ⟨hdom, hkid⟩ := entryId_inj (h.keys _ _ hsome)
      (no_colon_of_whitelisted domain hdomain) (s.store.keyed _ _ hsome)
    simp only [CallInv, hl, Progress.afterLookup]
    refine ⟨⟨key, hsome, hdom ▸ hdomain, hraw⟩, ?_⟩
    intro hd hhd
    obtain ⟨hkeyId, hts⟩ := htime hd hhd
    exact ⟨key, hsome, hdom, hdomain, hkid.trans hkeyId.symm, hactive, hraw, hts⟩

theorem Inv.verifyHeader {rawHeader rpDomain : Utf16} (h : Inv subtle date s)
    (hg : s.Undisturbed date (.verifyHeader rawHeader rpDomain)) :
    Inv subtle date (s.verifyHeader date rawHeader rpDomain) := by
  unfold Service.verifyHeader
  cases hparse : parseAttestationHeader rawHeader with
  | none => exact h
  | some header =>
    dsimp only
    split
    · rename_i hts
      refine h.lookup ?_ ?_
      · intro hd hhd
        obtain rfl := Option.some.inj hhd
        exact ⟨rfl, hts⟩
      · intro hd hhd
        obtain rfl := Option.some.inj hhd
        exact hg header hparse hts
    · exact h

theorem InOrder.vouched {c : Call κ} {raw : Bytes} {cryptoKey : κ}
    {header : ParsedAttestationHeader} (h : InOrder date c raw header)
    (himport : subtle.importKey raw = some cryptoKey)
    (hvalid : subtle.verify cryptoKey header.signature header.payloadBytes = true) :
    Vouched subtle date c.store c.startedAt c.domain header := by
  obtain ⟨key, hsome, hdom, hwhite, hkid, hactive, hraw, hts⟩ := h
  simp only [TrustedRpSigningKey.isKeyActive, Bool.and_eq_true, Option.any_eq_true,
    decide_eq_true_eq] at hactive
  obtain ⟨⟨nb, hnb, hle⟩, na, hna, hge⟩ := hactive
  exact ⟨_, key, nb, na, raw, cryptoKey, hsome, hdom, hwhite, hkid, hnb, hna, hle, hge, hraw,
    himport, hvalid, of_decide_eq_true hts⟩

theorem Inv.setCall {i : Nat} {c : Call κ} (h : Inv subtle date s)
    (hc : CallInv subtle date s.store c) :
    Inv subtle date { s with calls := s.calls.set i c } := by
  refine ⟨h.keys, h.imported, ?_⟩
  intro c' hc'
  obtain hold | rfl := List.mem_or_eq_of_mem_set hc'
  · exact h.calls c' hold
  · exact hc

theorem Inv.setImported {id : Utf16} {raw : Bytes} {cryptoKey : κ} (h : Inv subtle date s)
    (hholds : Holds s.store id raw) (himport : subtle.importKey raw = some cryptoKey) :
    Inv subtle date { s with store := s.store.setImported id cryptoKey } := by
  refine ⟨h.keys, ?_, ?_⟩
  · intro id' cryptoKey' hc
    by_cases hid : id' = id
    · subst hid
      simp only [KeyStore.setImported, Function.update_self, Option.some.injEq] at hc
      exact ⟨raw, hholds, hc ▸ himport⟩
    · simp only [KeyStore.setImported, Function.update_of_ne hid] at hc
      exact h.imported id' cryptoKey' hc
  · intro c hc
    exact (h.calls c hc).congr fun _ _ hh => hh

theorem Inv.settle {i : Nat} {c : Call κ} (h : Inv subtle date s) (hc : c ∈ s.calls)
    (hs : s.settle subtle i c = some t) : Inv subtle date t := by
  have hcall := h.calls c hc
  unfold Service.settle at hs
  split at hs
  · rename_i raw hp
    simp only [CallInv, hp] at hcall
    obtain ⟨hholds, horder⟩ := hcall
    split at hs
    · rename_i cryptoKey himport
      obtain rfl := Option.some.inj hs
      apply (h.setImported hholds himport).setCall
      cases hheader : c.header with
      | none => simp [CallInv, Progress.afterLookup]
      | some header =>
        simp only [CallInv, Progress.afterLookup, Option.mem_def, Option.some.injEq]
        rintro _ rfl
        exact ⟨raw, himport, horder header hheader⟩
    · obtain rfl := Option.some.inj hs
      apply h.setCall
      cases hheader : c.header with
      | none => simp [CallInv, Progress.afterLookup]
      | some header => simp [CallInv, Progress.afterLookup]
  · rename_i cryptoKey header hp hheader
    simp only [CallInv, hp, hheader] at hcall
    obtain ⟨raw, himport, horder⟩ := hcall header rfl
    obtain rfl := Option.some.inj hs
    apply h.setCall
    by_cases hvalid : subtle.verify cryptoKey header.signature header.payloadBytes = true
    · simp only [CallInv, hvalid, if_true]
      exact ⟨header, hheader, horder.vouched himport hvalid⟩
    · simp [CallInv, hvalid]
  · contradiction

theorem Inv.step {e : ServiceEvent} (h : Inv subtle date s) (hg : s.Undisturbed date e)
    (hs : step subtle date s e = some t) : Inv subtle date t := by
  cases e with
  | tick now =>
    rw [Service.step] at hs
    split at hs
    · obtain rfl := Option.some.inj hs
      exact ⟨h.keys, h.imported, h.calls⟩
    · contradiction
  | addKey key =>
    obtain rfl := Option.some.inj hs
    exact h.addKey hg
  | updateManifest manifest =>
    obtain rfl := Option.some.inj hs
    exact h.updateManifest hg
  | getImportedKey domain keyId =>
    obtain rfl := Option.some.inj hs
    exact h.lookup (by simp) (by simp)
  | verifyHeader rawHeader rpDomain =>
    obtain rfl := Option.some.inj hs
    exact h.verifyHeader hg
  | settle i =>
    obtain ⟨c, hc, hset⟩ := Option.bind_eq_some_iff.mp hs
    exact h.settle (List.mem_of_getElem? hc) hset

theorem Inv.sound (h : Inv subtle date s) : s.Sound subtle date := by
  intro c hc code hp
  have hcall := h.calls c hc
  simp only [CallInv, hp] at hcall
  exact hcall

theorem Inv.init (clock : Int) : Inv subtle date ({ clock } : Service κ) :=
  ⟨by simp, by simp, by simp⟩

/-- In every run that starts with an empty store, adds only replaceable keys and checks no header on
a key of the cache that is out of its period or asked for under another domain, every header that is
accepted was vouched for by a key of the store when its check began. -/
theorem sound_of_undisturbed {clock : Int} {es : List ServiceEvent}
    (hg : Machine.Throughout (Service.step subtle date) (Undisturbed date) { clock } es) :
    Machine.Everywhere (Service.step subtle date) (Sound subtle date) { clock } es := by
  refine Machine.Everywhere.mono ?_ fun s h => Inv.sound h
  exact Machine.everywhere_of_throughout (Inv.init clock) hg fun s e t h hg hs => h.step hg hs

/-! ### A key that runs out while it is in the cache -/

/-- `Date` on the years that the sample key is valid for. -/
def years : DateParser := fun text =>
  if text = ofString "2025" then some 1735689600000
  else if text = ofString "2027" then some 1798761600000
  else none

/-- A header with the code 4321, signed ten seconds before the sample key runs out. -/
def sampleHeader : Utf16 :=
  ofString "v1;eyJjb2RlIjoiNDMyMSIsInRzIjoxNzk4NzYxNTkwfQ;" ++
    ofString "eyJjb2RlIjoiNDMyMSIsInRzIjoxNzk4NzYxNTkwfQ;q1"

def isAccepted : Progress κ → Bool
  | .resolved (some _) => true
  | _ => false

theorem exists_of_isAccepted {p : Progress κ} (h : isAccepted p = true) :
    ∃ code, p = .resolved (some code) := by
  unfold isAccepted at h
  split at h
  · exact ⟨_, rfl⟩
  · contradiction

/-- The header is checked ten seconds before the key runs out, and again ten seconds after. -/
def expiry : List ServiceEvent :=
  [.addKey .sample, .verifyHeader sampleHeader (ofString "lhv.ee"), .settle 0, .settle 0,
    .tick 1798761610000, .verifyHeader sampleHeader (ofString "lhv.ee"), .settle 1]

/-- The call for the sample header, after the sample key has run out. -/
def isLate (c : Call κ) : Bool :=
  isAccepted c.progress && c.startedAt = 1798761610000 && c.domain = ofString "lhv.ee" &&
    c.header.map (·.keyId) = some (ofString "q1") &&
    c.store.keys TrustedRpSigningKey.sample.id = some .sample

theorem expired_key_accepts_header :
    ∃ t, Run .echo years { clock := 1798761590000 } expiry t ∧ ¬t.Sound .echo years := by
  have hexec : (Machine.exec (Service.step .echo years) { clock := 1798761590000 } expiry).map
      (fun t => t.calls[1]?.any isLate) = some true := by decide +kernel
  obtain ⟨t, ht, hcall⟩ := Option.map_eq_some_iff.mp hexec
  refine ⟨t, Machine.run_of_exec ht, ?_⟩
  intro hsound
  obtain ⟨c, hc, hlate⟩ := (Option.any_eq_true ..).mp hcall
  simp only [isLate, Bool.and_eq_true, decide_eq_true_eq] at hlate
  obtain ⟨⟨⟨⟨haccepted, hstart⟩, hdomain⟩, hkeyId⟩, hkey⟩ := hlate
  obtain ⟨code, hcode⟩ := exists_of_isAccepted haccepted
  obtain ⟨header, hheader, id, key, nb, na, raw, ck, hsome, hdom, -, hkid, -, hna, -, hge, -⟩ :=
    hsound c (List.mem_of_getElem? hc) code hcode
  -- the only key that the header can be vouched for by is the sample key
  rw [Option.mem_def.mp hheader, Option.map_some, Option.some.injEq] at hkeyId
  have hid : id = TrustedRpSigningKey.sample.id := by
    rw [← c.store.keyed id key hsome, TrustedRpSigningKey.id, hdom, hdomain, hkid, hkeyId]
    rfl
  rw [hid, hkey, Option.some.injEq] at hsome
  have hlast : years TrustedRpSigningKey.sample.notAfter = some 1798761600000 := by decide +kernel
  rw [← hsome, hlast, Option.some.injEq] at hna
  rw [hstart, ← hna] at hge
  exact absurd hge (by decide)

/-- The header is checked once, while the key is valid. -/
def inTime : List ServiceEvent :=
  [.addKey .sample, .verifyHeader sampleHeader (ofString "lhv.ee"), .settle 0, .settle 0]

theorem header_in_time_is_vouched :
    ∃ t, Run .echo years { clock := 1798761590000 } inTime t ∧
      t.calls.map (fun c => isAccepted c.progress) = [true] ∧
      Machine.Everywhere (Service.step .echo years) (Sound .echo years) { clock := 1798761590000 }
        inTime := by
  have hexec : (Machine.exec (Service.step .echo years) { clock := 1798761590000 } inTime).map
      (fun t => t.calls.map fun c => isAccepted c.progress) = some [true] := by decide +kernel
  obtain ⟨t, ht, hcalls⟩ := Option.map_eq_some_iff.mp hexec
  refine ⟨t, Machine.run_of_exec ht, hcalls, sound_of_undisturbed ⟨?_, fun u hu => ⟨?_, ?_⟩⟩⟩
  · exact ⟨by decide +kernel, by simp⟩
  · obtain rfl := Option.some.inj hu
    intro header _ _ hcached
    exact absurd hcached (by rw [KeyStore.importedKeys_addKey_empty]; exact Bool.false_ne_true)
  · exact fun _ _ => ⟨trivial, fun _ _ => ⟨trivial, fun _ _ => trivial⟩⟩

end Service

end SmartIdVault.Attestation
