import SmartIdVault.Lib.Utf

/-! The messages of `native_messaging/message.go` and the JSON that `json.Marshal` makes of them:
fields in the order of the struct, without those that are empty and marked `omitempty`, and strings
with Go's escapes. -/

namespace SmartIdVault.NativeMessaging

/-- `StatusPayload`, the only payload that the host sends. -/
structure StatusPayload where
  connected : Bool
  transport : String
  latencyMs : Int
  deviceSerial : String := ""
  deriving DecidableEq, Repr

structure Message where
  type : String
  payload : Option StatusPayload := none
  data : String := ""
  success : Option Bool := none
  error : String := ""
  deriving DecidableEq, Repr

def hexDigit (n : Nat) : Char := if n < 10 then Char.ofNat (48 + n) else Char.ofNat (87 + n)

def unicodeEscape (n : Nat) : List Char :=
  ['\\', 'u', hexDigit (n / 4096), hexDigit (n / 256 % 16), hexDigit (n / 16 % 16),
    hexDigit (n % 16)]

/-- `appendString` of `encoding/json`, with the escapes for HTML. -/
def escape (c : Char) : List Char :=
  if c = '"' then ['\\', '"']
  else if c = '\\' then ['\\', '\\']
  else if c.toNat = 8 then ['\\', 'b']
  else if c.toNat = 12 then ['\\', 'f']
  else if c.toNat = 10 then ['\\', 'n']
  else if c.toNat = 13 then ['\\', 'r']
  else if c.toNat = 9 then ['\\', 't']
  else if c.toNat < 32 ∨ c = '<' ∨ c = '>' ∨ c = '&' ∨ c.toNat = 0x2028 ∨ c.toNat = 0x2029 then
    unicodeEscape c.toNat
  else [c]

def marshalString (s : String) : List Char := ['"'] ++ s.toList.flatMap escape ++ ['"']

def marshalBool (b : Bool) : List Char := (if b then "true" else "false").toList

/-- A field after the first one, or nothing for one that is empty. -/
def field (name : String) (value : Option (List Char)) : List Char :=
  match value with
  | none => []
  | some value => [',', '"'] ++ name.toList ++ ['"', ':'] ++ value

/-- The value of a string field that is marked `omitempty`. -/
def nonEmpty (s : String) : Option (List Char) := if s = "" then none else some (marshalString s)

def marshalStatus (s : StatusPayload) : List Char :=
  "\x7b\"connected\":".toList ++ marshalBool s.connected ++
    field "transport" (marshalString s.transport) ++
    field "latencyMs" (toString s.latencyMs).toList ++
    field "deviceSerial" (nonEmpty s.deviceSerial) ++ "\x7d".toList

def marshal (m : Message) : Bytes :=
  Utf8.encode ("\x7b\"type\":".toList ++ marshalString m.type ++
    field "payload" (m.payload.map marshalStatus) ++ field "data" (nonEmpty m.data) ++
    field "success" (m.success.map marshalBool) ++ field "error" (nonEmpty m.error) ++
    "\x7d".toList)

/-- The JSON of a message begins with the name of its first field. -/
theorem exists_marshal_eq (m : Message) :
    ∃ rest, marshal m = [0x7b, 0x22, 0x74, 0x79] ++ rest := ⟨_, rfl⟩

example : marshal { type := "pong" } = Utf8.encode "\x7b\"type\":\"pong\"\x7d".toList := by
  decide +kernel

def maxMessageSize : Nat := 1024 * 1024

/-- `MessageWriter.Write` gets past its size check. -/
def Message.fits (m : Message) : Bool := (marshal m).length ≤ maxMessageSize

theorem Message.fits_iff {m : Message} : m.fits = true ↔ (marshal m).length ≤ 1048576 :=
  decide_eq_true_iff

end SmartIdVault.NativeMessaging
