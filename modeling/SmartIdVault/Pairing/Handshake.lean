import SmartIdVault.Pairing.Frames

/-! The frames of the handshake messages, as `performXXHandshake` writes them and
`waitForDataChannelMessage` picks those of the other side.  The two bytes of the length go to offset
2 and the message to offset 3, over the second one of them: what is left of the length is its high
byte, and the frame has the layout of a header of three bytes, which the reader expects. -/

namespace SmartIdVault.Pairing

/-- `Uint8Array.prototype.set`, or `none` where it throws a `RangeError`. -/
def setAt (target source : Bytes) (offset : Nat) : Option Bytes :=
  if offset + source.length ≤ target.length then
    some (target.take offset ++ source ++ target.drop (offset + source.length))
  else none

/-- The frame of a handshake message, or `none` where `performXXHandshake` throws. -/
def handshakeFrame (msg : Bytes) : Option Bytes := do
  let framed := List.replicate (3 + msg.length) 0
  let framed ← setAt framed [protocolVersion] 0
  let framed ← setAt framed [messageHandshake] 1
  let framed ← setAt framed [UInt8.ofNat (msg.length >>> 8), UInt8.ofNat (msg.length &&& 0xff)] 2
  setAt framed msg 3

/-- The frame with the whole of the length: version, type, 16 bits, and the message. -/
def lengthFrame (msg : Bytes) : Bytes :=
  protocolVersion :: messageHandshake :: Bytes.bigEndian 2 msg.length ++ msg

/-- A reader that takes as many bytes as the length field says. -/
def readByLength : Bytes → Option Bytes
  | _ :: _ :: high :: low :: rest =>
    let length := Bytes.ofBigEndian [high, low]
    if length ≤ rest.length then some (rest.take length) else none
  | _ => none

def isHandshake (bytes : Bytes) : Bool :=
  3 ≤ bytes.length && bytes[0]? = some protocolVersion && bytes[1]? = some messageHandshake

/-- The first frame of a handshake among the messages that arrive in time. -/
def waitForDataChannelMessage (arrivals : List Bytes) : Option Bytes := arrivals.find? isHandshake

/-- The handshake message in the frame that `performXXHandshake` waits for. -/
def receiveHandshake (arrivals : List Bytes) : Option Bytes :=
  (waitForDataChannelMessage arrivals).map fun bytes => bytes.drop 3

/-- The message covers the low byte of its length; an empty one leaves no room for it. -/
theorem handshakeFrame_eq (msg : Bytes) : handshakeFrame msg =
    if msg = [] then none
    else some (protocolVersion :: messageHandshake :: UInt8.ofNat (msg.length >>> 8) :: msg) := by
  cases msg with
  | nil => rfl
  | cons b msg =>
    have hframe : List.replicate (3 + (b :: msg).length) (0 : UInt8) =
        0 :: 0 :: 0 :: 0 :: List.replicate msg.length 0 := by
      rw [Nat.add_comm]
      rfl
    have hlen : (List.replicate msg.length (0 : UInt8)).length = msg.length := List.length_replicate
    rw [handshakeFrame, hframe, if_neg (List.cons_ne_nil b msg)]
    generalize List.replicate msg.length (0 : UInt8) = room at hlen
    -- the four calls of `set`, the last of which goes over the low byte
    have hversion : setAt (0 :: 0 :: 0 :: 0 :: room) [protocolVersion] 0 =
        some (protocolVersion :: 0 :: 0 :: 0 :: room) := by simp [setAt]
    have htype : setAt (protocolVersion :: 0 :: 0 :: 0 :: room) [messageHandshake] 1 =
        some (protocolVersion :: messageHandshake :: 0 :: 0 :: room) := by simp [setAt]
    have hlength (high low : UInt8) :
        setAt (protocolVersion :: messageHandshake :: 0 :: 0 :: room) [high, low] 2 =
          some (protocolVersion :: messageHandshake :: high :: low :: room) := by simp [setAt]
    have hmessage (high low : UInt8) :
        setAt (protocolVersion :: messageHandshake :: high :: low :: room) (b :: msg) 3 =
          some (protocolVersion :: messageHandshake :: high :: b :: msg) := by
      have hend : 3 + (msg.length + 1) = room.length + 4 := by omega
      simp [setAt, hend]
    simp only [Option.bind_eq_bind, hversion, htype, hlength, hmessage, Option.bind_some]

/-- The other side's frames are read as the own ones are written. -/
theorem receiveHandshake_handshakeFrame {msg frame : Bytes} (h : handshakeFrame msg = some frame)
    (later : List Bytes) : receiveHandshake (frame :: later) = some msg := by
  rw [handshakeFrame_eq, Option.ite_none_left_eq_some, Option.some.injEq] at h
  obtain ⟨-, rfl⟩ := h
  simp [receiveHandshake, waitForDataChannelMessage, isHandshake]

theorem length_handshakeFrame {msg frame : Bytes} (h : handshakeFrame msg = some frame) :
    frame.length = msg.length + 3 := by
  rw [handshakeFrame_eq, Option.ite_none_left_eq_some, Option.some.injEq] at h
  obtain ⟨-, rfl⟩ := h
  rfl

theorem length_lengthFrame (msg : Bytes) : (lengthFrame msg).length = msg.length + 4 := by
  simp [lengthFrame]
  omega

theorem length_lt_of_readByLength {frame msg : Bytes} (h : readByLength frame = some msg) :
    msg.length + 4 ≤ frame.length := by
  unfold readByLength at h
  split at h
  · rename_i high low rest
    dsimp only at h
    rw [Option.ite_none_right_eq_some, Option.some.injEq] at h
    obtain ⟨hle, rfl⟩ := h
    simp only [List.length_take, List.length_cons]
    omega
  · cases h

/-- No handshake message has the frame with its length, none is recovered from its own frame by the
length field, and none is recovered by the reader of the handshake from the frame with its
length. -/
theorem handshake_frames_disagree (msg : Bytes) (later : List Bytes) :
    handshakeFrame msg ≠ some (lengthFrame msg) ∧
      (handshakeFrame msg).bind readByLength ≠ some msg ∧
      receiveHandshake (lengthFrame msg :: later) ≠ some msg := by
  refine ⟨?_, ?_, ?_⟩
  · intro h
    have hlen := length_handshakeFrame h
    rw [length_lengthFrame] at hlen
    omega
  · intro h
    obtain ⟨frame, hframe, hread⟩ := Option.bind_eq_some_iff.mp h
    have hlen := length_handshakeFrame hframe
    have hle := length_lt_of_readByLength hread
    omega
  · intro h
    have hfound : waitForDataChannelMessage (lengthFrame msg :: later) =
        some (lengthFrame msg) := by
      simp [waitForDataChannelMessage, isHandshake, lengthFrame, Bytes.bigEndian]
    rw [receiveHandshake, hfound, Option.map_some, Option.some.injEq] at h
    have hlen := congrArg List.length h
    rw [List.length_drop, length_lengthFrame] at hlen
    omega

/-- The frame of a message of 256 bytes: the length field reads 0x0107, and the message from there
on lacks eight bytes. -/
theorem handshake_frame_of_256_bytes :
    handshakeFrame (List.replicate 256 7) =
        some (protocolVersion :: messageHandshake :: 1 :: List.replicate 256 7) ∧
      handshakeFrame (List.replicate 256 7) ≠ some (lengthFrame (List.replicate 256 7)) ∧
      (handshakeFrame (List.replicate 256 7)).bind readByLength = none ∧
      receiveHandshake [lengthFrame (List.replicate 256 7)] = some (0 :: List.replicate 256 7) := by
  decide +kernel

end SmartIdVault.Pairing
