import SmartIdVault.Lib.Utf

/-! The command channel between extension and phone: key pairs and cached pairings of
`lib/channel/noise.ts`, sessions and capabilities of `lib/channel/noiseTypes.ts`, and the commands
and constants of `lib/channel/commandClient.ts`. -/

namespace SmartIdVault.Pairing

def dhLen : Nat := 32

@[ext]
structure NoiseKeyPair where
  publicKey : Bytes
  secretKey : Bytes
  publicKey_length : publicKey.length = dhLen
  secretKey_length : secretKey.length = dhLen
  deriving DecidableEq

structure CachedPairing where
  localStaticKey : Bytes
  remoteStaticPublicKey : Bytes
  deriving DecidableEq, Repr

def keyToBytes (kp : NoiseKeyPair) : Bytes := kp.publicKey ++ kp.secretKey

/-- `keyFromBytes`, with the two slices of the array. -/
def keyFromBytes (bytes : Bytes) : Bytes × Bytes :=
  (bytes.take dhLen, (bytes.drop dhLen).take dhLen)

def toCachedPairing (localKey : NoiseKeyPair) (remotePublicKey : Bytes) : CachedPairing where
  localStaticKey := keyToBytes localKey
  remoteStaticPublicKey := remotePublicKey

theorem keyFromBytes_keyToBytes (kp : NoiseKeyPair) :
    keyFromBytes (keyToBytes kp) = (kp.publicKey, kp.secretKey) := by
  have hs : kp.secretKey.take dhLen = kp.secretKey :=
    List.take_of_length_le (Nat.le_of_eq kp.secretKey_length)
  simp only [keyFromBytes, keyToBytes, ← kp.publicKey_length, List.take_left, List.drop_left]
  rw [kp.publicKey_length, hs]

structure ProtocolCapabilities where
  version : Nat
  features : List String
  supportedTransports : List String
  deriving DecidableEq, Repr

def localCapabilities : ProtocolCapabilities where
  version := 2
  features := ["prf", "challenge-bound-v1", "credential-provision", "session-resume-ik"]
  supportedTransports := ["webrtc", "usb"]

def intersectCapabilities (own remote : ProtocolCapabilities) : ProtocolCapabilities where
  version := min own.version remote.version
  features := own.features.filter (· ∈ remote.features)
  supportedTransports := own.supportedTransports.filter (· ∈ remote.supportedTransports)

/-- A session.  `transport` tells the cipher states of one handshake from those of another. -/
structure NoiseSession where
  transport : Nat
  localStaticKey : NoiseKeyPair
  remoteStaticPublicKey : Bytes
  remoteCapabilities : Option ProtocolCapabilities := none
  deriving DecidableEq

/-! ### Commands -/

inductive CommandType
  | authenticateTransaction | confirmTransaction | rejectTransaction | readScreen
  | ping | pong | credentialRequest | provisionPasskey
  deriving DecidableEq, Repr

inductive Payload
  | transaction (amount recipient : String) (timestamp : Nat)
  | credential (domain url usernameFieldId passwordFieldId : String)
  | ping (ts : Nat)
  deriving DecidableEq, Repr

structure ControlCommand where
  sequence : Nat
  command : CommandType
  payload : Payload
  deriving DecidableEq, Repr

inductive ResponseStatus
  | ok | error | confirmed | rejected | pong
  deriving DecidableEq, Repr

def maxRetries : Nat := 3
def maxMissedPings : Nat := 3
def heartbeatIntervalMs : Nat := 15000

end SmartIdVault.Pairing
