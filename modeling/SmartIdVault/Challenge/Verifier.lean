import SmartIdVault.Lib.Base64
import SmartIdVault.Lib.Bytes
import SmartIdVault.Lib.Utf

/-! The phone's side of the WebAuthn challenge, `ChallengeVerifier.java` of `vault-android`: parsing
of the TLV bytes, the canonical form that is hashed, and the comparison of the challenges.  SHA-256
is a parameter, and `android.util.Base64` is RFC 4648. -/

namespace SmartIdVault.Challenge

inductive JavaException
  | illegalArgument (message : String)
  | bufferUnderflow
  | bufferOverflow
  deriving DecidableEq, Repr

/-- `"…" + e.getMessage()`, where a missing message prints as `null`. -/
def JavaException.getMessage : JavaException → String
  | .illegalArgument message => message
  | .bufferUnderflow | .bufferOverflow => "null"

namespace ChallengeVerifier

def version : UInt8 := 0x01
def nonceLength : Nat := 32
def maxProofLength : Nat := 4096

structure ChallengeComponents where
  version : Nat
  zkTlsProof : Bytes
  origin : Utf16
  controlCode : Utf16
  sessionNonce : Bytes
  deriving DecidableEq, Repr

inductive VerificationResult
  | success
  | failure (reason : String)
  deriving DecidableEq, Repr

/-- `new String(bytes, StandardCharsets.US_ASCII)`. -/
def stringOfAscii (bytes : Bytes) : Utf16 :=
  bytes.map fun b => if b < 0x80 then UInt16.ofNat b.toNat else 0xFFFD

/-- `getBytes(StandardCharsets.US_ASCII)`. -/
def asciiBytes (s : Utf16) : Bytes :=
  s.map fun u => if u < 0x80 then UInt8.ofNat u.toNat else 0x3F

/-- `new String(bytes, StandardCharsets.UTF_8)`. -/
def stringOfUtf8 (bytes : Bytes) : Utf16 := Utf16.ofChars (Utf8.decode bytes)

/-- `getBytes(StandardCharsets.UTF_8)`, which writes a question mark for a lone surrogate. -/
def utf8Bytes (s : Utf16) : Bytes := Utf8.encode (s.chars '?')

/-- The next `n` bytes of the buffer, and the buffer after them. -/
def bufGet (buf : Bytes) (n : Nat) : Except JavaException (Bytes × Bytes) :=
  if buf.length < n then .error .bufferUnderflow else .ok (buf.take n, buf.drop n)

def parseTlvComponents (serialized : Bytes) : Except JavaException ChallengeComponents := do
  let (versionByte, buf) ← bufGet serialized 1
  let version := Bytes.ofBigEndian versionByte
  if version ≠ ChallengeVerifier.version.toNat then
    .error (.illegalArgument s!"Unsupported challenge version: {version}")
  else
    let (proofField, buf) ← bufGet buf 2
    let proofLength := Bytes.ofBigEndian proofField
    if proofLength > maxProofLength then
      .error (.illegalArgument "zkTLS proof exceeds maximum length")
    else
      let (zkTlsProof, buf) ← bufGet buf proofLength
      let (originField, buf) ← bufGet buf 2
      let (originBytes, buf) ← bufGet buf (Bytes.ofBigEndian originField)
      let (controlCodeField, buf) ← bufGet buf 1
      if Bytes.ofBigEndian controlCodeField ≠ 4 then
        .error (.illegalArgument "Control code length must be 4")
      else
        let (controlCodeBytes, buf) ← bufGet buf 4
        let (sessionNonce, _) ← bufGet buf nonceLength
        .ok
          { version, zkTlsProof, origin := stringOfUtf8 originBytes,
            controlCode := stringOfAscii controlCodeBytes, sessionNonce }

/-- The canonical bytes.  The array is sized for a nonce of 32 bytes: a longer one overflows it, and
after a shorter one it stays zero. -/
def serializeForHash (components : ChallengeComponents) : Except JavaException Bytes :=
  let originBytes := utf8Bytes components.origin
  let controlCodeBytes := asciiBytes components.controlCode
  let headerSize := 1 + 2 + 2 + 1 + nonceLength
  let variableSize := components.zkTlsProof.length + originBytes.length + controlCodeBytes.length
  let prePaddingSize := headerSize + variableSize
  let paddingLength := (32 - prePaddingSize % 32) % 32
  if nonceLength < components.sessionNonce.length then .error .bufferOverflow
  else
    .ok ([version] ++
      (Bytes.bigEndian 2 components.zkTlsProof.length ++ components.zkTlsProof) ++
      (Bytes.bigEndian 2 originBytes.length ++ originBytes) ++ ([0x04] ++ controlCodeBytes) ++
      components.sessionNonce ++
      List.replicate (nonceLength - components.sessionNonce.length + paddingLength) 0)

def base64UrlDecode (base64Url : List Char) : Except JavaException Bytes :=
  match Base64.decode (Base64.pad (base64Url.map Base64.standardChar)) with
  | none => .error (.illegalArgument "bad base-64")
  | some bytes => .ok bytes

section Sha256

variable (sha256 : Bytes → Bytes)

def compareChallenges (tlvSerializedComponents : Bytes) (clientDataJsonChallenge : List Char) :
    Except JavaException VerificationResult := do
  let components ← parseTlvComponents tlvSerializedComponents
  let canonical ← serializeForHash components
  let actualChallenge ← base64UrlDecode clientDataJsonChallenge
  if sha256 canonical ≠ actualChallenge then .ok (.failure "Challenge mismatch")
  else .ok .success

def verifyChallenge (tlvSerializedComponents : Bytes) (clientDataJsonChallenge : List Char) :
    VerificationResult :=
  match compareChallenges sha256 tlvSerializedComponents clientDataJsonChallenge with
  | .error e => .failure s!"Verification error: {e.getMessage}"
  | .ok result => result

end Sha256

end ChallengeVerifier

end SmartIdVault.Challenge
