import SmartIdVault.Lib.Bytes

/-! The session encryption of the native host, package `crypto` of `apps/native-host`: the
sequence tracker, the nonce of a packet, and the sealing and opening of wire packets.  AES-256-GCM
itself is a parameter. -/

namespace SmartIdVault.NativeHost

/-! ### Sequence numbers (`crypto/sequences.go`) -/

/-- The counters of a session.  Every method of the source runs under the tracker's own mutex, so
each is one step here. -/
structure SequenceTracker where
  outbound : UInt64 := 0
  inbound : UInt64 := 0
  deriving DecidableEq, Repr

namespace SequenceTracker

def nextOutbound (st : SequenceTracker) : UInt64 × SequenceTracker :=
  (st.outbound, { st with outbound := st.outbound + 1 })

def expectedInbound (st : SequenceTracker) : UInt64 := st.inbound

def advanceInbound (st : SequenceTracker) : SequenceTracker :=
  { st with inbound := st.inbound + 1 }

def revertOutbound (st : SequenceTracker) (seq : UInt64) : SequenceTracker :=
  if seq < st.outbound then { st with outbound := seq } else st

def reset (_ : SequenceTracker) : SequenceTracker := { outbound := 0, inbound := 0 }

def clone (st : SequenceTracker) : SequenceTracker :=
  { outbound := st.outbound, inbound := st.inbound }

@[simp] theorem inbound_advanceInbound (st : SequenceTracker) :
    st.advanceInbound.inbound = st.inbound + 1 := rfl

@[simp] theorem outbound_advanceInbound (st : SequenceTracker) :
    st.advanceInbound.outbound = st.outbound := rfl

@[simp] theorem inbound_nextOutbound (st : SequenceTracker) :
    st.nextOutbound.2.inbound = st.inbound := rfl

@[simp] theorem inbound_revertOutbound (st : SequenceTracker) (seq : UInt64) :
    (st.revertOutbound seq).inbound = st.inbound := by
  unfold revertOutbound
  split <;> rfl

theorem outbound_revert_nextOutbound {st : SequenceTracker}
    (h : st.outbound.toNat + 1 < 2 ^ 64) :
    (st.nextOutbound.2.revertOutbound st.outbound).outbound = st.outbound := by
  have hlt : st.outbound < st.outbound + 1 := by
    rw [UInt64.lt_iff_toNat_lt, UInt64.toNat_add, UInt64.toNat_one, Nat.mod_eq_of_lt h]
    omega
  simp [nextOutbound, revertOutbound, hlt]

end SequenceTracker

/-! ### Nonces and packets (`crypto/encrypt.go`, `crypto/decrypt.go`) -/

/-- AES-256-GCM under a key and a 12-byte nonce, without additional data. -/
structure Gcm where
  gcmSeal : Bytes → Bytes → Bytes → Bytes
  gcmOpen : Bytes → Bytes → Bytes → Option Bytes

def directionHostToDevice : UInt8 := 0x00
def directionDeviceToHost : UInt8 := 0x01
def authTagSize : Nat := 16
def sequenceSize : Nat := 8
def sessionKeySize : Nat := 32

/-- The direction byte, three zero bytes and the sequence number in big-endian order. -/
def buildIV (direction : UInt8) (seqNum : UInt64) : Bytes :=
  [direction, 0, 0, 0] ++ Bytes.bigEndian 8 seqNum.toNat

theorem seq_lt (n : UInt64) : n.toNat < 256 ^ 8 := n.toNat_lt

/-- A nonce determines its direction and its sequence number. -/
theorem buildIV_inj {d d' : UInt8} {n n' : UInt64} (h : buildIV d n = buildIV d' n') :
    d = d' ∧ n = n' := by
  simp only [buildIV, List.cons_append, List.nil_append, List.cons.injEq, true_and] at h
  exact ⟨h.1, UInt64.toNat_inj.mp (Bytes.bigEndian_inj (seq_lt n) (seq_lt n') h.2)⟩

variable (gcm : Gcm)

/-- The packet for a plaintext: its sequence number and the sealed plaintext.  A key of 32 bytes
is all that `aes.NewCipher` and `cipher.NewGCM` ask for. -/
def encryptWithDirection (sessionKey plaintext : Bytes) (seqNum : UInt64) (direction : UInt8) :
    Except String Bytes :=
  if sessionKey.length ≠ sessionKeySize then
    .error s!"invalid session key size: {sessionKey.length} (expected {sessionKeySize})"
  else
    .ok (Bytes.bigEndian 8 seqNum.toNat ++
      gcm.gcmSeal sessionKey (buildIV direction seqNum) plaintext)

def encrypt (sessionKey plaintext : Bytes) (seqNum : UInt64) : Except String Bytes :=
  encryptWithDirection gcm sessionKey plaintext seqNum directionHostToDevice

inductive DecryptErrorKind
  | replay | sequenceGap | auth | format
  deriving DecidableEq, Repr

/-- A failed decryption: a `*DecryptError` with its kind, or a plain error. -/
inductive DecryptFailure
  | decryptError (kind : DecryptErrorKind) (message : String)
  | other (message : String)
  deriving DecidableEq, Repr

def DecryptFailure.text : DecryptFailure → String
  | .decryptError .replay m => s!"decrypt error (0): {m}"
  | .decryptError .sequenceGap m => s!"decrypt error (1): {m}"
  | .decryptError .auth m => s!"decrypt error (2): {m}"
  | .decryptError .format m => s!"decrypt error (3): {m}"
  | .other m => m

def wireSeq (wire : Bytes) : UInt64 :=
  UInt64.ofNat (Bytes.ofBigEndian (wire.take sequenceSize))

def decryptWithDirection (sessionKey wire : Bytes) (expectedSeq : UInt64) (direction : UInt8) :
    Except DecryptFailure (Bytes × UInt64) :=
  if sessionKey.length ≠ sessionKeySize then
    .error (.other s!"invalid session key size: {sessionKey.length} (expected {sessionKeySize})")
  else if wire.length < sequenceSize + authTagSize then
    .error (.decryptError .format
      s!"wire data too short: {wire.length} bytes (min {sequenceSize + authTagSize})")
  else
    let seqNum := wireSeq wire
    if seqNum < expectedSeq then
      .error (.decryptError .replay s!"sequence {seqNum} < expected {expectedSeq} (replay)")
    else if expectedSeq < seqNum then
      .error (.decryptError .sequenceGap s!"sequence {seqNum} > expected {expectedSeq} (gap)")
    else
      match gcm.gcmOpen sessionKey (buildIV direction seqNum) (wire.drop sequenceSize) with
      | none => .error (.decryptError .auth "GCM authentication failed")
      | some plaintext => .ok (plaintext, seqNum)

def decrypt (sessionKey wire : Bytes) (expectedSeq : UInt64) :
    Except DecryptFailure (Bytes × UInt64) :=
  decryptWithDirection gcm sessionKey wire expectedSeq directionDeviceToHost

/-- A packet is accepted only at the expected number, and only if it opens under that number's
nonce. -/
theorem decryptWithDirection_ok {sessionKey wire : Bytes} {expectedSeq : UInt64}
    {direction : UInt8} {plaintext : Bytes} {seqNum : UInt64}
    (h : decryptWithDirection gcm sessionKey wire expectedSeq direction = .ok (plaintext, seqNum)) :
    seqNum = expectedSeq ∧
      gcm.gcmOpen sessionKey (buildIV direction expectedSeq) (wire.drop sequenceSize) =
        some plaintext := by
  unfold decryptWithDirection at h
  split at h
  · contradiction
  split at h
  · contradiction
  simp only at h
  split at h
  · contradiction
  rename_i hnlt
  split at h
  · contradiction
  rename_i hngt
  have heq : wireSeq wire = expectedSeq := UInt64.le_antisymm (UInt64.not_lt.mp hngt)
    (UInt64.not_lt.mp hnlt)
  split at h
  · contradiction
  rename_i hopen
  simp only [Except.ok.injEq, Prod.mk.injEq] at h
  obtain ⟨rfl, rfl⟩ := h
  exact ⟨heq, heq ▸ hopen⟩

end SmartIdVault.NativeHost
