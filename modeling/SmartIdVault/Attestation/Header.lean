import SmartIdVault.Lib.Base64
import SmartIdVault.Lib.Json
import Mathlib.Data.List.Sort

/-! Attestation headers: the codecs of `lib/attestation/base64url.ts` and the parser of
`lib/attestation/headerParser.ts`. -/

namespace SmartIdVault.Attestation

open Utf16 (ofString)

/-! ### `base64url.ts` -/

/-- The bytes of a URL-safe text, or `none` where `atob` throws. -/
def base64urlDecode (input : Utf16) : Option Bytes :=
  Base64.atob (Base64.pad ((input.chars Utf8.replacement).map Base64.standardChar))

def base64urlEncode (data : Bytes) : Utf16 := Utf16.ofChars (Base64.encodeUrl data)

theorem base64urlDecode_encode (data : Bytes) :
    base64urlDecode (base64urlEncode data) = some data := by
  rw [base64urlDecode, base64urlEncode, Utf16.chars_ofChars, Base64.map_standardChar_encodeUrl,
    Base64.pad_filter_encode, Base64.atob_encode]

theorem base64urlEncode_ne_nil {data : Bytes} (h : data ≠ []) : base64urlEncode data ≠ [] := by
  intro hnil
  have hdecode := base64urlDecode_encode data
  rw [hnil, show base64urlDecode [] = some [] from rfl] at hdecode
  exact h (Option.some.inj hdecode).symm

/-- `sorted[key] = value` for each property in turn.  An assignment to `__proto__` makes no own
property. -/
def assignFields (fields : List (Utf16 × Json)) : List (Utf16 × Json) :=
  fields.foldl (fun sorted f =>
    if f.1 = ofString "__proto__" then sorted else Json.setField sorted f.1 f.2) []

mutual

def sortObjectKeys : Json → Json
  | .arr items => .arr (sortItems items)
  | .obj fields => .obj (assignFields ((sortFields fields).insertionSort (·.1 ≤ ·.1)))
  | .null => .null
  | .bool b => .bool b
  | .num n => .num n
  | .str s => .str s

def sortItems : List Json → List Json
  | [] => []
  | v :: rest => sortObjectKeys v :: sortItems rest

def sortFields : List (Utf16 × Json) → List (Utf16 × Json)
  | [] => []
  | (key, v) :: rest => (key, sortObjectKeys v) :: sortFields rest

end

def sortedJsonStringify (v : Json) : Utf16 := (sortObjectKeys v).stringify

/-! ### `headerParser.ts` -/

/-- A parsed payload whose `code` is a string that is not empty and whose `ts` is a number. -/
structure AttestationHeaderPayload where
  json : Json
  code : Utf16
  ts : Decimal
  code_eq : json.field (ofString "code") = some (.str code)
  code_ne : code ≠ []
  ts_eq : json.field (ofString "ts") = some (.num ts)

def AttestationHeaderPayload.session (p : AttestationHeaderPayload) : Option Json :=
  p.json.field (ofString "session")

/-- The payload that a value passes for, if its fields have the types that the parser checks. -/
def AttestationHeaderPayload.ofJson (v : Json) : Option AttestationHeaderPayload :=
  match hcode : v.field (ofString "code"), hts : v.field (ofString "ts") with
  | some (.str code), some (.num ts) =>
    if hne : code ≠ [] then some ⟨v, code, ts, hcode, hne, hts⟩ else none
  | _, _ => none

structure ParsedAttestationHeader where
  version : Utf16
  payload : AttestationHeaderPayload
  signature : Bytes
  signatureB64 : Utf16
  keyId : Utf16

/-- `parseAttestationHeader`, which returns `null` also for what it catches. -/
def parseAttestationHeader (rawHeader : Utf16) : Option ParsedAttestationHeader :=
  match rawHeader.splitOn 0x3b with
  | [version, payloadB64, sigB64, keyId] => do
    if version ≠ ofString "v1" then none
    let payloadBytes ← base64urlDecode payloadB64
    let json ← Json.parse (Utf8.textDecode payloadBytes)
    let payload ← AttestationHeaderPayload.ofJson json
    let signature ← base64urlDecode sigB64
    return { version, payload, signature, signatureB64 := sigB64, keyId }
  | _ => none

end SmartIdVault.Attestation
