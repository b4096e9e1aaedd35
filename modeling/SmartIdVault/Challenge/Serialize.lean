import SmartIdVault.Lib.Bytes
import SmartIdVault.Lib.Utf

/-! The extension's side of the WebAuthn challenge, `lib/webauthn/challengeDerivation.ts`.
SHA-256 is a parameter. -/

namespace SmartIdVault.Challenge

open Utf8 (textEncode)

structure ChallengeDerivationInput where
  tlsBinding : Bytes
  origin : Utf16
  controlCode : Utf16
  sessionNonce : Bytes
  deriving DecidableEq, Repr

def version : UInt8 := 0x02
def controlCodeLength : UInt8 := 0x04
def nonceLength : Nat := 32
def maxTlsBindingLength : Nat := 4096
def paddingBlock : Nat := 32

def computePaddingLength (currentLength : Nat) : Nat :=
  let remainder := currentLength % paddingBlock
  if remainder = 0 then 0 else paddingBlock - remainder

/-- The fields one after the other.  A length field keeps the low sixteen bits of a length. -/
def unpadded (tag : UInt8) (proofBytes originBytes controlCodeBytes nonce : Bytes) : Bytes :=
  [tag] ++ (Bytes.bigEndian 2 proofBytes.length ++ proofBytes) ++
    (Bytes.bigEndian 2 originBytes.length ++ originBytes) ++
    ([controlCodeLength] ++ controlCodeBytes) ++ nonce

/-- The whole array: the fields, and zeros up to a multiple of the block size. -/
def layout (tag : UInt8) (proofBytes originBytes controlCodeBytes nonce : Bytes) : Bytes :=
  let headerSize := 1 + 2 + 2 + 1 + nonceLength
  let variableSize := proofBytes.length + originBytes.length + controlCodeBytes.length
  let paddingLength := computePaddingLength (headerSize + variableSize)
  unpadded tag proofBytes originBytes controlCodeBytes nonce ++ List.replicate paddingLength 0

def serializeChallengeComponents (input : ChallengeDerivationInput) : Except String Bytes :=
  let originBytes := textEncode input.origin
  let proofBytes := input.tlsBinding
  let controlCodeBytes := textEncode input.controlCode
  let nonce := input.sessionNonce
  if proofBytes.length > maxTlsBindingLength then
    .error s!"TLS binding exceeds maximum length of {maxTlsBindingLength} bytes"
  else if controlCodeBytes.length ≠ 4 then
    .error "Control code must be exactly 4 ASCII digits"
  else if nonce.length ≠ nonceLength then
    .error s!"Session nonce must be exactly {nonceLength} bytes"
  else
    .ok (layout version proofBytes originBytes controlCodeBytes nonce)

def deriveChallenge (sha256 : Bytes → Bytes) (input : ChallengeDerivationInput) :
    Except String Bytes :=
  (serializeChallengeComponents input).map sha256

theorem serializeChallengeComponents_ok {input : ChallengeDerivationInput} {bytes : Bytes}
    (h : serializeChallengeComponents input = .ok bytes) :
    input.tlsBinding.length ≤ maxTlsBindingLength ∧ (textEncode input.controlCode).length = 4 ∧
      input.sessionNonce.length = nonceLength ∧
      bytes = layout version input.tlsBinding (textEncode input.origin)
        (textEncode input.controlCode) input.sessionNonce := by
  unfold serializeChallengeComponents at h
  simp only at h
  split at h
  · contradiction
  rename_i hproof
  split at h
  · contradiction
  rename_i hcode
  split at h
  · contradiction
  rename_i hnonce
  simp only [Except.ok.injEq] at h
  exact ⟨Nat.le_of_not_lt hproof, not_not.mp hcode, not_not.mp hnonce, h.symm⟩

end SmartIdVault.Challenge
