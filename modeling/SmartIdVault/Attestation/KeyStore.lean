import SmartIdVault.Attestation.Header
import Mathlib.Logic.Function.Basic

/-! `KeyStore` of `lib/attestation/keyStore.ts`: the trusted signing keys of relying parties under
the text of their domain and key id, the keys that have been imported, and the version of the
manifest they come from.  `crypto.subtle` and the parser of `Date` are parameters. -/

namespace SmartIdVault.Attestation

open Utf16 (ofString)

structure TrustedRpSigningKey where
  domain : Utf16
  keyId : Utf16
  publicKeyHex : Utf16
  notBefore : Utf16
  notAfter : Utf16
  deriving DecidableEq, Repr

/-- `crypto.subtle` for ECDSA over P-256: `importKey` of raw bytes, `none` where it rejects, and
`verify` of a signature on data. -/
structure Subtle (κ : Type) where
  importKey : Bytes → Option κ
  verify : κ → Bytes → Bytes → Bool

/-- The time in milliseconds that `new Date` reads from a text, `none` for an invalid date. -/
abbrev DateParser := Utf16 → Option Int

def whitelistedRpDomains : List Utf16 :=
  [ofString "lhv.ee", ofString "swedbank.ee", ofString "seb.ee", ofString "tara.ria.ee"]

def hexDigits : Utf16 → Option Bytes
  | [] => some []
  | [_] => none
  | a :: b :: rest => do
    let high ← Json.hexDigit a
    let low ← Json.hexDigit b
    let tail ← hexDigits rest
    return UInt8.ofNat (high.toNat * 16 + low.toNat) :: tail

/-- `hexToBytes`, or `none` where it throws. -/
def hexToBytes (hex : Utf16) : Option Bytes := if hex = [] then none else hexDigits hex

/-- The text under which the maps keep a key. -/
def entryId (domain keyId : Utf16) : Utf16 := domain ++ 0x3a :: keyId

def TrustedRpSigningKey.id (key : TrustedRpSigningKey) : Utf16 := entryId key.domain key.keyId

/-- Every key is under its own id. -/
structure KeyStore (κ : Type) where
  keys : Utf16 → Option TrustedRpSigningKey := fun _ => none
  importedKeys : Utf16 → Option κ := fun _ => none
  manifestVersion : ℚ := 0
  keyed : ∀ id key, keys id = some key → key.id = id := by simp

/-- An invalid date is neither before nor after any time. -/
def TrustedRpSigningKey.isKeyActive (date : DateParser) (now : Int) (key : TrustedRpSigningKey) :
    Bool :=
  (date key.notBefore).any (· ≤ now) && (date key.notAfter).any (now ≤ ·)

structure SignedKeyManifest where
  version : Decimal
  keys : List TrustedRpSigningKey
  manifestSignature : Utf16
  deriving DecidableEq, Repr

namespace KeyStore

variable {κ : Type}

def addKey (s : KeyStore κ) (key : TrustedRpSigningKey) : KeyStore κ :=
  { s with
    keys := Function.update s.keys key.id (some key)
    importedKeys := Function.update s.importedKeys key.id none
    keyed := by
      intro id k hk
      by_cases hid : id = key.id
      · simp only [hid, Function.update_self, Option.some.injEq] at hk
        rw [hid, hk]
      · simp only [Function.update_of_ne hid] at hk
        exact s.keyed id k hk }

theorem importedKeys_addKey_empty (key : TrustedRpSigningKey) (id : Utf16) :
    (({} : KeyStore κ).addKey key).importedKeys id = none := by
  simp [addKey]

def addKeys (s : KeyStore κ) (keys : List TrustedRpSigningKey) : KeyStore κ := keys.foldl addKey s

/-- `new KeyStore(initialKeys)`. -/
def new (initialKeys : List TrustedRpSigningKey) : KeyStore κ := addKeys {} initialKeys

def getKey (date : DateParser) (now : Int) (s : KeyStore κ) (domain keyId : Utf16) :
    Option TrustedRpSigningKey :=
  if domain ∈ whitelistedRpDomains then
    (s.keys (entryId domain keyId)).filter (·.isKeyActive date now)
  else none

/-- `getImportedKey` up to its `await`: a cached key, `null`, or the import of a key's bytes. -/
inductive Lookup (κ : Type)
  | cached (cryptoKey : κ)
  | null
  | importing (raw : Bytes)
  deriving DecidableEq, Repr

def getImportedKey (date : DateParser) (now : Int) (s : KeyStore κ) (domain keyId : Utf16) :
    Lookup κ :=
  match s.importedKeys (entryId domain keyId) with
  | some cryptoKey => .cached cryptoKey
  | none =>
    match s.getKey date now domain keyId with
    | none => .null
    | some key => (hexToBytes key.publicKeyHex).elim .null .importing

/-- `getImportedKey` after its `await`. -/
def setImported (s : KeyStore κ) (id : Utf16) (cryptoKey : κ) : KeyStore κ :=
  { s with importedKeys := Function.update s.importedKeys id (some cryptoKey) }

/-- `updateManifest`: whether the manifest is applied, and the store then. -/
def updateManifest (s : KeyStore κ) (manifest : SignedKeyManifest) : Bool × KeyStore κ :=
  if manifest.manifestSignature = [] then (false, s)
  else if manifest.version.value ≤ s.manifestVersion then (false, s)
  else (true, { s.addKeys manifest.keys with manifestVersion := manifest.version.value })

/-- A manifest without signature or with a version that is not newer changes nothing. -/
theorem updateManifest_cases (s : KeyStore κ) (manifest : SignedKeyManifest) :
    (manifest.manifestSignature = [] ∨ manifest.version.value ≤ s.manifestVersion) ∧
        s.updateManifest manifest = (false, s) ∨
      s.manifestVersion < manifest.version.value ∧ s.updateManifest manifest =
        (true, { s.addKeys manifest.keys with manifestVersion := manifest.version.value }) := by
  unfold updateManifest
  split
  · rename_i hsig
    exact .inl ⟨.inl hsig, rfl⟩
  split
  · rename_i hver
    exact .inl ⟨.inr hver, rfl⟩
  · rename_i hver
    exact .inr ⟨not_le.mp hver, rfl⟩

end KeyStore

/-! ### A scheme and a key for sample runs -/

/-- A scheme in which a signature is the signed data itself. -/
def Subtle.echo : Subtle Unit where
  importKey _ := some ()
  verify _ signature data := signature = data

def TrustedRpSigningKey.sample : TrustedRpSigningKey where
  domain := ofString "lhv.ee"
  keyId := ofString "q1"
  publicKeyHex := ofString "04"
  notBefore := ofString "2025"
  notAfter := ofString "2027"

end SmartIdVault.Attestation
