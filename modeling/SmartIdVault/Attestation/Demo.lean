import SmartIdVault.Attestation.Canonical
import SmartIdVault.Attestation.Verifier
import SmartIdVault.Lib.JsonUtf8

/-! `createDemoAttestationHeader` of `lib/attestation/demoAttestation.ts`, and what becomes of its
headers.  Each parses to what it was made from, and what is signed is what the verifier writes again
from the parsed payload.  A header is accepted while the key store has the public key to it, unless
the cache of imported keys has the one that was replaced by it: an import that is under way when its
key is replaced puts the old key into the cache. -/

namespace SmartIdVault.Attestation

open Properties (keys proto)
open Utf16 (ofString)

/-! ### `demoAttestation.ts` -/

/-- What `isDemoMode` reads of `import.meta.env`. -/
structure Env where
  dev : Bool
  mode : Utf16
  deriving DecidableEq, Repr

def isDemoMode (env : Env) : Bool := env.dev || env.mode = ofString "demo"

structure JsonWebKey where
  kty : Utf16
  x : Utf16
  y : Utf16
  crv : Utf16
  d : Utf16
  ext : Bool
  deriving DecidableEq, Repr

def demoKey (keyId x y d : String) : Utf16 × JsonWebKey :=
  (ofString keyId, {
    kty := ofString "EC"
    x := ofString x
    y := ofString y
    crv := ofString "P-256"
    d := ofString d
    ext := false })

def demoPrivateKeys : List (Utf16 × JsonWebKey) := [
  demoKey "lhv-2026q1" "MOpYVpggPsIkJwYgAFEXZY9KVnQ4qELTNrft8IIbhgI"
    "oDefQj0jKqAVjubIwG8YxqCDpQe-MaIbE98qKvhr0Ds" "Jzp-nEuXfrLkKoAolgvlP3KC5iP6106-EYbfW-mFPEQ",
  demoKey "lhv-2026q2" "uO1G9qTZkGpFYYm2yQUVztGUTfipwQyg5V0DFZJFpVw"
    "zPZMJJSGsH1PnOef3NOextm1cvOIahRBZ5e6-ySbQ2c" "ETsowaLz3o62oUc2cKhaEHNL42GKTPIXWgxP5pENPN0",
  demoKey "swed-2026q1" "NTdXRUDUkrH0xkgVqfRK0U89xmA_FrCJjFq5KsblnHk"
    "kzqhVLE1vsxm-QprSocZYc2-VpYqISoqdanhixcz9YM" "6-GafLfG41xLVlcWJxV-PTs0uULOeAmI6yEeWQ5f6Mw",
  demoKey "swed-2026q2" "IZt-fwTmWUGlqqC0sCLxyr9V8f1XWQLx7BivkgcX7pI"
    "oPpyuAeKZKY_-9u6ZrxMOTm8ubt-LlHkggY4AhsV3cI" "V2r8cV-PDQ42PE54oVwNus8bj0bTwLGq3zjQfR8AIe8",
  demoKey "seb-2026q1" "GqFNH5Y70SY2gagC3j-eQTDKgDPKvXT_WpUirrfO30c"
    "SfxoEKN1xS61yP1jAW_-K2oiJtuSMNXezPwgpVWm3F0" "0_7z8t4WNjyJuY53IGzOJ4LnxiWwRiZ-f_1fq-hD5AI",
  demoKey "seb-2026q2" "EiHRug4eSUGo2nlSUSPnYXcnNgezZBMZyz3iBrCCbHY"
    "QyHPthz8dMTn-lWH97INCq61-qW2gLJ3KE9hjka3mw0" "a98TYPF14J4yOJgnvNcJW6MWATaw8zb6GUsxsjLfLBA",
  demoKey "tara-2026q1" "2KOSIusV1kU5WMvET1jQL9K36iznbl7dQrx4gZXwt2w"
    "FtK6PvQWqUlyiCLbcPfIibMb6Tc4W-0LzQyPZShAmeY" "pcHX_28m8gaaCJ9UwsvBeQWQPXtch0vCf5K8b8GAzWY",
  demoKey "tara-2026q2" "dajMTd-C_z-EGQHyGURKZvJCxP_Domxo_jHcPUSbZ0Q"
    "Eifs6SvgY8Hpq1xtWGAxNUs8e5p-PiyDB7lSq3hg_70" "AlxBsTEDu2xWh_q8MO6yGGQW0O9YqloF6U7Lbxw-Tls"]

/-- The public key to a private one, as a point in uncompressed form. -/
def JsonWebKey.publicKey (jwk : JsonWebKey) : Option Bytes := do
  let x ← base64urlDecode jwk.x
  let y ← base64urlDecode jwk.y
  return 0x04 :: x ++ y

/-- `crypto.subtle` for private keys of ECDSA over P-256: `importKey` of a JWK and `sign`, with the
random number that it draws; `none` where they reject. -/
structure Signer (π : Type) where
  importKey : JsonWebKey → Option π
  sign : π → Nat → Bytes → Option Bytes

section Create

variable {π : Type} (signer : Signer π)

/-- What `importKey` makes of the demo key with an id.  Nothing that the table of keys inherits is a
key. -/
def importDemoKey (keyId : Utf16) : Option π := (demoPrivateKeys.lookup keyId).bind signer.importKey

/-- `importedKeyCache`, in which a key is the import of the one with its id. -/
structure ImportedKeyCache where
  get : Utf16 → Option π := fun _ => none
  imported : ∀ keyId key, get keyId = some key → importDemoKey signer keyId = some key := by simp

variable {signer}

def ImportedKeyCache.set (cache : ImportedKeyCache signer) {keyId : Utf16} {key : π}
    (h : importDemoKey signer keyId = some key) : ImportedKeyCache signer where
  get := Function.update cache.get keyId (some key)
  imported := by
    intro id k hk
    by_cases hid : id = keyId
    · subst hid
      rw [Function.update_self] at hk
      exact hk ▸ h
    · rw [Function.update_of_ne hid] at hk
      exact cache.imported id k hk

def getDemoPrivateKey (cache : ImportedKeyCache signer) (keyId : Utf16) :
    Option π × ImportedKeyCache signer :=
  match cache.get keyId with
  | some cached => (some cached, cache)
  | none =>
    match h : importDemoKey signer keyId with
    | some cryptoKey => (some cryptoKey, cache.set h)
    | none => (none, cache)

theorem getDemoPrivateKey_fst (cache : ImportedKeyCache signer) (keyId : Utf16) :
    (getDemoPrivateKey cache keyId).1 = importDemoKey signer keyId := by
  unfold getDemoPrivateKey
  split
  · rename_i key hcached
    exact (cache.imported keyId key hcached).symm
  · split
    · rename_i key himport
      exact himport.symm
    · rename_i himport
      exact himport.symm

/-- The payload of a header that is made at a time.  An empty session id is none. -/
def demoPayload (now : Int) (controlCode : Utf16) (sessionId : Option Utf16) : Json :=
  .obj ([(ofString "code", .str controlCode), (ofString "ts", .num (.make (now / 1000) 0))] ++
    ((sessionId.filter (· ≠ [])).map fun session => (ofString "session", .str session)).toList)

def demoPayloadBytes (now : Int) (controlCode : Utf16) (sessionId : Option Utf16) : Bytes :=
  Utf8.textEncode (sortedJsonStringify (demoPayload now controlCode sessionId))

def createDemoAttestationHeader (env : Env) (cache : ImportedKeyCache signer) (now : Int)
    (nonce : Nat) (controlCode rpDomain keyId : Utf16) (sessionId : Option Utf16) :
    Option Utf16 × ImportedKeyCache signer :=
  if !isDemoMode env then (none, cache)
  else if rpDomain ∉ whitelistedRpDomains then (none, cache)
  else
    match getDemoPrivateKey cache keyId with
    | (none, cache) => (none, cache)
    | (some privateKey, cache) =>
      let payloadBytes := demoPayloadBytes now controlCode sessionId
      match signer.sign privateKey nonce payloadBytes with
      | none => (none, cache)
      | some signature =>
        (some (ofString "v1;" ++ base64urlEncode payloadBytes ++ ofString ";" ++
          base64urlEncode signature ++ ofString ";" ++ keyId), cache)

theorem createDemoAttestationHeader_some {env : Env} {cache : ImportedKeyCache signer} {now : Int}
    {nonce : Nat} {controlCode rpDomain keyId header : Utf16} {sessionId : Option Utf16}
    (h : (createDemoAttestationHeader env cache now nonce controlCode rpDomain keyId sessionId).1 =
      some header) :
    rpDomain ∈ whitelistedRpDomains ∧ ∃ privateKey signature,
      importDemoKey signer keyId = some privateKey ∧
      signer.sign privateKey nonce (demoPayloadBytes now controlCode sessionId) = some signature ∧
      header = ofString "v1;" ++ base64urlEncode (demoPayloadBytes now controlCode sessionId) ++
        ofString ";" ++ base64urlEncode signature ++ ofString ";" ++ keyId := by
  unfold createDemoAttestationHeader at h
  split at h
  · cases h
  split at h
  · cases h
  rename_i hdomain
  have himport := getDemoPrivateKey_fst cache keyId
  split at h
  · cases h
  · rename_i privateKey cache' hget
    rw [hget] at himport
    dsimp only at h
    split at h
    · cases h
    · rename_i signature hsign
      exact ⟨not_not.mp hdomain, privateKey, signature, himport.symm, hsign,
        (Option.some.inj h).symm⟩

end Create

/-! ### What a header parses to -/

theorem not_mem_base64urlEncode (data : Bytes) : 0x3b ∉ base64urlEncode data := by
  have halphabet : ∀ n < 64, (0x3b : UInt16) ∉ Utf16.units (Base64.urlChar (Base64.charOf n)) := by
    decide
  intro hmem
  obtain ⟨u, hu, hunit⟩ := List.mem_flatMap.mp hmem
  obtain ⟨c, hc, rfl⟩ := List.mem_map.mp hu
  obtain ⟨hc, hpad⟩ := List.mem_filter.mp hc
  obtain rfl | ⟨n, hn, rfl⟩ := Base64.mem_encode data c hc
  · simp at hpad
  · exact halphabet n hn hunit

theorem not_mem_demo_keyId {keyId : Utf16} {jwk : JsonWebKey}
    (h : demoPrivateKeys.lookup keyId = some jwk) : 0x3b ∉ keyId := by
  have hall : ∀ f ∈ demoPrivateKeys, (0x3b : UInt16) ∉ f.1 := by decide +kernel
  obtain ⟨before, after, hsplit, -⟩ := List.lookup_eq_some_iff.mp h
  exact hall (keyId, jwk) (by simp [hsplit])

theorem splitOn_header {payloadB64 sigB64 keyId : Utf16} (hpayload : 0x3b ∉ payloadB64)
    (hsig : 0x3b ∉ sigB64) (hkeyId : 0x3b ∉ keyId) :
    (ofString "v1;" ++ payloadB64 ++ ofString ";" ++ sigB64 ++ ofString ";" ++ keyId).splitOn 0x3b =
      [ofString "v1", payloadB64, sigB64, keyId] := by
  have hversion : ofString "v1;" = ofString "v1" ++ [0x3b] := by decide
  have hsemicolon : ofString ";" = [0x3b] := by decide
  have hv1 : (0x3b : UInt16) ∉ ofString "v1" := by decide
  have hparts : ∀ part ∈ [ofString "v1", payloadB64, sigB64, keyId], (0x3b : UInt16) ∉ part := by
    simp only [List.forall_mem_cons]
    exact ⟨hv1, hpayload, hsig, hkeyId, by simp⟩
  have hjoin := List.splitOn_intercalate 0x3b hparts (by simp)
  rw [← hjoin, hversion, hsemicolon]
  simp

theorem AttestationHeaderPayload.ofJson_eq_some {v : Json} {code : Utf16} {ts : Decimal}
    (hcode : v.field (ofString "code") = some (.str code)) (hne : code ≠ [])
    (hts : v.field (ofString "ts") = some (.num ts)) :
    AttestationHeaderPayload.ofJson v = some ⟨v, code, ts, hcode, hne, hts⟩ := by
  unfold ofJson
  split
  · rename_i code' ts' hcode' hts'
    obtain rfl : code' = code := by simpa [hcode'] using hcode
    obtain rfl : ts' = ts := by simpa [hts'] using hts
    rw [dif_pos hne]
  · rename_i hnot
    exact absurd hts (hnot code ts hcode)

section Payload

variable {now : Int} {controlCode : Utf16} {sessionId : Option Utf16}

theorem proper_demoPayload : (demoPayload now controlCode sessionId).Proper := by
  have hshort : [ofString "code", ofString "ts"].Pairwise
      fun k l => k ≠ l ∧ Json.before l k = false := by decide +kernel
  have hlong : [ofString "code", ofString "ts", ofString "session"].Pairwise
      fun k l => k ≠ l ∧ Json.before l k = false := by decide +kernel
  unfold demoPayload
  cases sessionId.filter (· ≠ []) with
  | none => exact ⟨Properties.inOrder_iff.mpr hshort, trivial, trivial, trivial⟩
  | some session => exact ⟨Properties.inOrder_iff.mpr hlong, trivial, trivial, trivial, trivial⟩

theorem field_demoPayload_code :
    (demoPayload now controlCode sessionId).field (ofString "code") = some (.str controlCode) := by
  rw [demoPayload, Json.field, List.cons_append, List.lookup_cons_self]

theorem field_demoPayload_ts : (demoPayload now controlCode sessionId).field (ofString "ts") =
    some (.num (.make (now / 1000) 0)) := by
  have hcode : (ofString "ts" == ofString "code") = false := by decide
  rw [demoPayload, Json.field, List.cons_append, List.lookup_cons, hcode]
  exact List.lookup_cons_self

theorem field_demoPayload_session :
    (demoPayload now controlCode sessionId).field (ofString "session") =
      (sessionId.filter (· ≠ [])).map Json.str := by
  have hcode : (ofString "session" == ofString "code") = false := by decide
  have hts : (ofString "session" == ofString "ts") = false := by decide
  rw [demoPayload, Json.field, List.cons_append, List.lookup_cons, hcode]
  simp only [List.cons_append, List.lookup_cons, hts]
  cases sessionId.filter (· ≠ []) with
  | none => rfl
  | some session => exact List.lookup_cons_self

/-- A header for a control code parses to the code, the session, the second and the key id that it
was made from, and its payload is written again as it was signed. -/
theorem parse_demo_header (now : Int) (sessionId : Option Utf16) (signature : Bytes) {keyId : Utf16}
    (hne : controlCode ≠ []) (hkeyId : 0x3b ∉ keyId) :
    ∃ parsed, parseAttestationHeader (ofString "v1;" ++
        base64urlEncode (demoPayloadBytes now controlCode sessionId) ++ ofString ";" ++
        base64urlEncode signature ++ ofString ";" ++ keyId) = some parsed ∧
      parsed.payload.code = controlCode ∧
      parsed.payload.session = (sessionId.filter (· ≠ [])).map Json.str ∧
      parsed.payload.ts.value = seconds now ∧ parsed.keyId = keyId ∧
      parsed.signature = signature ∧
      parsed.payloadBytes = demoPayloadBytes now controlCode sessionId := by
  have hproper : (demoPayload now controlCode sessionId).Proper := proper_demoPayload
  have hfield {key : Utf16} (hkey : key ≠ proto) :=
    field_sortObjectKeys hproper hkey
  have hparse : Json.parse (Utf8.textDecode (demoPayloadBytes now controlCode sessionId)) =
      some (sortObjectKeys (demoPayload now controlCode sessionId)) :=
    Json.parse_textDecode_obj (proper_sortObjectKeys hproper)
  have hcode : (sortObjectKeys (demoPayload now controlCode sessionId)).field (ofString "code") =
      some (.str controlCode) := by
    rw [hfield (by decide), field_demoPayload_code]
    rfl
  have hts : (sortObjectKeys (demoPayload now controlCode sessionId)).field (ofString "ts") =
      some (.num (.make (now / 1000) 0)) := by
    rw [hfield (by decide), field_demoPayload_ts]
    rfl
  refine ⟨⟨ofString "v1", ⟨_, _, _, hcode, hne, hts⟩, signature, base64urlEncode signature, keyId⟩,
    ?_, rfl, ?_, ?_, rfl, rfl, ?_⟩
  · rw [parseAttestationHeader, splitOn_header (not_mem_base64urlEncode _)
      (not_mem_base64urlEncode _) hkeyId]
    simp [base64urlDecode_encode, hparse, AttestationHeaderPayload.ofJson_eq_some hcode hne hts]
  · rw [AttestationHeaderPayload.session, hfield (by decide), field_demoPayload_session]
    cases sessionId.filter (· ≠ []) <;> rfl
  · rw [Decimal.value_make, zpow_zero, mul_one, seconds]
  · rw [ParsedAttestationHeader.payloadBytes, sortedJsonStringify, sortObjectKeys_idem _ hproper]
    rfl

end Payload

end SmartIdVault.Attestation
