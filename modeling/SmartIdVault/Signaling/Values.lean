import SmartIdVault.Lib.Base64
import SmartIdVault.Lib.Utf

/-! The values that signaling clients send, as the handlers of `signaling-server/server.js` look at
them, the test of a SAS code, and the commitment of `lib/channel/qrCode.ts` with its check on the
server.  SHA-256 is a parameter. -/

namespace SmartIdVault.Signaling

/-- What `Map` and `Set` tell values apart by.  A number stands for itself by its decimal form, an
object by its identity. -/
inductive Key
  | undefined
  | null
  | bool (b : Bool)
  | num (text : Utf16)
  | str (s : Utf16)
  | ref (n : Nat)
  deriving DecidableEq, Repr

/-- A value of a message.  `text` is what `String` makes of an object, `none` where that throws, and
an element of an array comes with the byte that `Buffer.from` takes from it. -/
inductive JsVal
  | prim (k : Key)
  | arr (ref : Nat) (items : List (Key × UInt8)) (text : Option Utf16)
  | obj (ref : Nat) (text : Option Utf16)
  deriving DecidableEq, Repr

def utf16 (s : String) : Utf16 := Utf16.ofChars s.toList

namespace JsVal

def undefined : JsVal := .prim .undefined

def str (s : Utf16) : JsVal := .prim (.str s)

def ofBytes (ref : Nat) (bytes : Bytes) : JsVal :=
  .arr ref (bytes.map fun b => (.num (utf16 (toString b.toNat)), b))
    (some (utf16 (",".intercalate (bytes.map fun b => toString b.toNat))))

def key : JsVal → Key
  | .prim k => k
  | .arr ref _ _ | .obj ref _ => .ref ref

def truthy : JsVal → Bool
  | .prim .undefined | .prim .null | .prim (.bool false) | .prim (.str []) => false
  | .prim (.num text) => text ≠ utf16 "0" ∧ text ≠ utf16 "NaN"
  | _ => true

/-- `String(v)`, or `none` where it throws. -/
def toStr : JsVal → Option Utf16
  | .prim .undefined => some (utf16 "undefined")
  | .prim .null => some (utf16 "null")
  | .prim (.bool true) => some (utf16 "true")
  | .prim (.bool false) => some (utf16 "false")
  | .prim (.num text) => some text
  | .prim (.str s) => some s
  | .prim (.ref _) => none
  | .arr _ _ text | .obj _ text => text

/-- The bytes of `Buffer.from(v)` for an array, `none` for anything else. -/
def arrayBytes : JsVal → Option Bytes
  | .arr _ items _ => some (items.map Prod.snd)
  | _ => none

/-- The rooms that `socket.join(v)` joins: for an array, each of its elements. -/
def joinKeys : JsVal → List Key
  | .arr _ items _ => items.map Prod.fst
  | v => [v.key]

end JsVal

/-! ### SAS codes -/

/-- `SAS_NUMERIC_RE`. -/
def isSasNumeric (text : Utf16) : Bool :=
  text.length = 6 && text.all fun u => 0x30 ≤ u && u ≤ 0x39

/-- `SAS_EMOJI_RE`. -/
def isSasEmoji (text : Utf16) : Bool :=
  let codePoints := (text.chars Utf8.replacement).map Char.toNat
  codePoints.length = 3 && codePoints.all fun c =>
    (0x1F300 ≤ c && c ≤ 0x1F9FF) || (0x2600 ≤ c && c ≤ 0x26FF) || (0x2700 ≤ c && c ≤ 0x27BF)

/-- `isValidSasCode` on the string that the regular expressions test. -/
def isValidSasCode (text : Utf16) : Bool := isSasNumeric text || isSasEmoji text

/-- The test at the start of a handler: `!sasCode || !isValidSasCode(sasCode)`. -/
inductive SasCheck
  | valid (text : Utf16)
  | invalid
  | throws
  deriving DecidableEq, Repr

def checkSas (sasCode : JsVal) : SasCheck :=
  if !sasCode.truthy then .invalid
  else
    match sasCode.toStr with
    | none => .throws
    | some text => if isValidSasCode text then .valid text else .invalid

def roomPrefix : Utf16 := utf16 "smartid2::"

/-- `ROOM_PREFIX + sasCode`. -/
def roomOf (text : Utf16) : Key := .str (roomPrefix ++ text)

/-! ### Commitments -/

structure Metadata where
  sasCode : JsVal
  nonce : JsVal
  extensionStaticKey : JsVal
  deriving DecidableEq, Repr

section Sha256

variable (sha256 : Bytes → Bytes)

def computeCommitment (extensionStaticKey nonce : Bytes) (sasCode : Utf16) : Utf16 :=
  Utf16.ofChars
    (Base64.encodeUrl (sha256 (extensionStaticKey ++ nonce ++ Utf8.textEncode sasCode)))

def verifyCommitment (metadata : Metadata) (commitment : JsVal) : Bool :=
  match commitment, metadata.extensionStaticKey.arrayBytes, metadata.nonce.arrayBytes,
      metadata.sasCode with
  | .prim (.str c), some extKey, some nonce, .prim (.str sasCode) =>
    if c = [] ∨ nonce.length ≠ 32 then false
    else
      let expected := sha256 (extKey ++ nonce ++ Utf8.textEncode sasCode)
      Utf8.textEncode c = Utf8.textEncode (Utf16.ofChars (Base64.encodeUrl expected))
  | _, _, _, _ => false

end Sha256

end SmartIdVault.Signaling
