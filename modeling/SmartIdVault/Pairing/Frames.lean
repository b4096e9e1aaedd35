import SmartIdVault.Lib.ImplicitNonce
import SmartIdVault.Lib.Json
import SmartIdVault.Lib.Machine
import SmartIdVault.Pairing.Channel

/-! The frames of the data channel as `entrypoints/background/pairingCoordinator.ts` sends and
processes them.  The cipher of a Noise session counts its nonces on both sides, while the channel
may drop a frame that is three seconds old, so one loss ends the session.  A frame with capabilities
is taken at its word: it is not encrypted, and it replaces what the handshake has negotiated. -/

namespace SmartIdVault.Pairing

open Utf16 (ofString)
open ImplicitNonce

/-! ### Capabilities -/

/-- Capabilities as `decodeCapabilities` lets them pass: the items of the two arrays can be
anything. -/
structure DecodedCapabilities where
  json : Json
  version : Decimal
  features : List Json
  supportedTransports : List Json
  version_eq : json.field (ofString "version") = some (.num version)
  features_eq : json.field (ofString "features") = some (.arr features)
  supportedTransports_eq : json.field (ofString "supportedTransports") =
    some (.arr supportedTransports)

def DecodedCapabilities.ofJson (v : Json) : Option DecodedCapabilities :=
  match hv : v.field (ofString "version"), hf : v.field (ofString "features"),
    ht : v.field (ofString "supportedTransports") with
  | some (.num version), some (.arr features), some (.arr supportedTransports) =>
    some ⟨v, version, features, supportedTransports, hv, hf, ht⟩
  | _, _, _ => none

def decodeCapabilities (data : Bytes) : Option DecodedCapabilities :=
  (Json.parse (Utf8.textDecode data)).bind DecodedCapabilities.ofJson

structure NegotiatedCapabilities where
  version : ℚ
  features : List String
  supportedTransports : List String
  deriving DecidableEq, Repr

/-- `items.includes(s)` for a string. -/
def includes (items : List Json) (s : String) : Bool :=
  items.any fun
    | .str t => t = ofString s
    | _ => false

/-- `intersectCapabilities` of the own capabilities with those of the other side. -/
def negotiate (remote : DecodedCapabilities) : NegotiatedCapabilities where
  version := min (localCapabilities.version : ℚ) remote.version.value
  features := localCapabilities.features.filter (includes remote.features)
  supportedTransports :=
    localCapabilities.supportedTransports.filter (includes remote.supportedTransports)

/-! ### Frames -/

def protocolVersion : UInt8 := 0x01
def messageHandshake : UInt8 := 0x00
def messageData : UInt8 := 0x01
def messageCapabilities : UInt8 := 0x02

/-- A session with the cipher states of its two directions. -/
structure TransportSession (κ : Type) where
  send : CipherState κ
  recv : CipherState κ
  remoteCapabilities : Option DecodedCapabilities := none

/-- The variables of the coordinator that a frame is processed with, and the texts that have been
handed to the command client. -/
structure Coordinator (κ : Type) where
  currentSession : Option (TransportSession κ) := none
  negotiatedCaps : Option NegotiatedCapabilities := none
  responses : List Utf16 := []

def dataFrame (content : Bytes) : Bytes := protocolVersion :: messageData :: content

section Session

variable {κ : Type} (suite : Suite κ)

def encryptMessage (session : TransportSession κ) (plaintext : Bytes) :
    Bytes × TransportSession κ :=
  let (encrypted, send) := session.send.encrypt suite plaintext
  (encrypted, { session with send })

/-- `decryptMessage`, with `none` where it throws. -/
def decryptMessage (session : TransportSession κ) (ciphertext : Bytes) :
    Option Bytes × TransportSession κ :=
  let (decrypted, recv) := session.recv.decrypt suite ciphertext
  (decrypted, { session with recv })

/-- The frames of messages that are sent one after the other. -/
def sendAll (session : TransportSession κ) : List Bytes → List Bytes
  | [] => []
  | p :: ps => dataFrame (encryptMessage suite session p).1 ::
      sendAll (encryptMessage suite session p).2 ps

end Session

namespace Coordinator

variable {κ : Type} (suite : Suite κ)

/-- The command sender of `performXXHandshake`: the frame of an encoded command, or nothing without
a session. -/
def sendEncoded (c : Coordinator κ) (encoded : Utf16) : Option Bytes × Coordinator κ :=
  match c.currentSession with
  | none => (none, c)
  | some session =>
    let (encrypted, session) := encryptMessage suite session (Utf8.textEncode encoded)
    (some (dataFrame encrypted), { c with currentSession := some session })

/-- What the sender makes of encoded commands, one after the other. -/
def sendEach (c : Coordinator κ) : List Utf16 → List (Option Bytes)
  | [] => []
  | encoded :: rest => (c.sendEncoded suite encoded).1 ::
      sendEach (c.sendEncoded suite encoded).2 rest

/-- `processIncomingMessage`: what `decryptMessage` has returned, if it was called and did not
throw, and the state then. -/
def processIncomingMessage (c : Coordinator κ) : Bytes → Option Bytes × Coordinator κ
  | protocolByte :: messageType :: content =>
    if protocolByte ≠ protocolVersion then (none, c)
    else if messageType = messageHandshake then (none, c)
    else if messageType = messageCapabilities then
      match decodeCapabilities content with
      | none => (none, c)
      | some remoteCaps => (none, { c with
          negotiatedCaps := some (negotiate remoteCaps)
          currentSession := c.currentSession.map fun session =>
            { session with remoteCapabilities := some remoteCaps } })
    else if messageType = messageData then
      match c.currentSession with
      | none => (none, c)
      | some session =>
        let (decrypted, session) := decryptMessage suite session content
        (decrypted, { c with
          currentSession := some session
          responses := c.responses ++ decrypted.toList.map Utf8.textDecode })
    else (none, c)
  | _ => (none, c)

/-- What the frames decrypt to, one after the other. -/
def processAll (c : Coordinator κ) : List Bytes → List (Option Bytes)
  | [] => []
  | frame :: frames => (c.processIncomingMessage suite frame).1 ::
      processAll (c.processIncomingMessage suite frame).2 frames

/-! ### Loss -/

variable {suite}

theorem process_dataFrame {c : Coordinator κ} {session : TransportSession κ}
    (hsession : c.currentSession = some session) (content : Bytes) :
    c.processIncomingMessage suite (dataFrame content) =
      ((decryptMessage suite session content).1, { c with
        currentSession := some (decryptMessage suite session content).2
        responses := c.responses ++
          (decryptMessage suite session content).1.toList.map Utf8.textDecode }) := by
  simp [processIncomingMessage, dataFrame, hsession, messageData, messageHandshake,
    messageCapabilities]

theorem processAll_dataFrames {c : Coordinator κ} {session : TransportSession κ}
    (hsession : c.currentSession = some session) (contents : List Bytes) :
    c.processAll suite (contents.map dataFrame) = session.recv.decryptAll suite contents := by
  induction contents generalizing c session with
  | nil => rfl
  | cons content contents ih =>
    simp only [List.map_cons, processAll, CipherState.decryptAll, process_dataFrame hsession]
    rw [ih rfl]
    rfl

theorem sendAll_eq (sender : TransportSession κ) (messages : List Bytes) :
    sendAll suite sender messages = (sender.send.encryptAll suite messages).map dataFrame := by
  induction messages generalizing sender with
  | nil => rfl
  | cons p ps ih =>
    simp only [sendAll, CipherState.encryptAll, List.map_cons, ih]
    rfl

/-- The commands leave in the frames of their session. -/
theorem sendEach_eq {c : Coordinator κ} {session : TransportSession κ}
    (hsession : c.currentSession = some session) (texts : List Utf16) :
    c.sendEach suite texts = (sendAll suite session (texts.map Utf8.textEncode)).map some := by
  induction texts generalizing c session with
  | nil => rfl
  | cons text texts ih =>
    have hsend : c.sendEncoded suite text =
        (some (dataFrame (encryptMessage suite session (Utf8.textEncode text)).1),
          { c with
            currentSession := some (encryptMessage suite session (Utf8.textEncode text)).2 }) := by
      simp only [sendEncoded, hsession]
    simp only [sendEach, hsend, List.map_cons, sendAll]
    rw [ih rfl]

/-- Over a channel that keeps the order of the frames, with both sides in step, every frame that is
delivered decrypts to the message that was sent if and only if no frame is dropped before one that
is delivered. -/
theorem decrypts_iff_dropsOnlyAtEnd (hlaw : suite.Lawful) {c : Coordinator κ}
    {sender receiver : TransportSession κ} (hsession : c.currentSession = some receiver)
    (hsync : receiver.recv = sender.send) (messages : List Bytes) (kept : List Bool)
    (hlen : kept.length = messages.length) :
    c.processAll suite (deliver kept (sendAll suite sender messages)) =
      (deliver kept messages).map some ↔ DropsOnlyAtEnd kept := by
  rw [sendAll_eq, deliver_map, processAll_dataFrames hsession, hsync]
  exact decryptAll_iff hlaw kept messages hlen

def readTally : Nat → Bytes → Option Bytes
  | 0, 0 :: p => some p
  | n + 1, 1 :: c => readTally n c
  | _, _ => none

/-- A cipher that writes the nonce, in strokes, before the message. -/
def tally : Suite Unit where
  encrypt _ n p := List.replicate n 1 ++ 0 :: p
  decrypt _ n c := readTally n c

theorem tally_lawful : tally.Lawful where
  same _ n p := by
    induction n with
    | zero => rfl
    | succ n ih => exact ih
  other _ n m p h := by
    induction m generalizing n with
    | zero => cases n with
      | zero => contradiction
      | succ n => rfl
    | succ m ih => cases n with
      | zero => rfl
      | succ n => exact ih n (by omega)

/-- A session at its beginning; both directions have the same key. -/
def fresh : TransportSession Unit := { send := ⟨(), 0⟩, recv := ⟨(), 0⟩ }

/-- After the loss of the second of three frames the third one does not decrypt. -/
theorem third_frame_lost_after_drop :
    processAll tally { currentSession := some fresh }
        (deliver [true, false, true] (sendAll tally fresh [[10], [11], [12]])) = [some [10], none] ∧
      processAll tally { currentSession := some fresh }
        (deliver [true, false, true] (sendAll tally fresh [[10], [11], [12]])) ≠
          (deliver [true, false, true] [[10], [11], [12]]).map some := by
  decide +kernel

theorem frames_before_drop_decrypt :
    processAll tally { currentSession := some fresh }
        (deliver [true, true, false] (sendAll tally fresh [[10], [11], [12]])) =
      [some [10], some [11]] :=
  (decrypts_iff_dropsOnlyAtEnd tally_lawful rfl rfl [[10], [11], [12]] [true, true, false]
    rfl).mpr (by decide)

/-! ### Capabilities after the handshake -/

/-- What `performXXHandshake` negotiates on the offer in the payload of handshake message 2. -/
def negotiateOffer : Option DecodedCapabilities → NegotiatedCapabilities
  | some remoteCaps => negotiate remoteCaps
  | none => ⟨localCapabilities.version, [], []⟩

/-- The state that a handshake with the given payload of message 2 and the given cipher states
leaves behind. -/
def afterHandshake (payload : Bytes) (send recv : CipherState κ) : Coordinator κ where
  currentSession := some { send, recv, remoteCapabilities := decodeCapabilities payload }
  negotiatedCaps := some (negotiateOffer (decodeCapabilities payload))

def step (suite : Suite κ) (c : Coordinator κ) (frame : Bytes) : Option (Coordinator κ) :=
  some (c.processIncomingMessage suite frame).2

/-- The capabilities are those of the offer in the handshake. -/
def Authentic (offer : Option DecodedCapabilities) (c : Coordinator κ) : Prop :=
  c.negotiatedCaps = some (negotiateOffer offer) ∧
    c.currentSession.map TransportSession.remoteCapabilities = some offer

/-- The capabilities that a frame states, if it is one with capabilities. -/
def statedCapabilities : Bytes → Option DecodedCapabilities
  | protocolByte :: messageType :: content =>
    if protocolByte = protocolVersion ∧ messageType = messageCapabilities then
      decodeCapabilities content
    else none
  | _ => none

variable (suite) in
/-- A frame replaces the capabilities by those it states, and touches them in no other way. -/
theorem caps_process (c : Coordinator κ) (frame : Bytes) :
    (statedCapabilities frame = none ∧
      (c.processIncomingMessage suite frame).2.negotiatedCaps = c.negotiatedCaps ∧
      (c.processIncomingMessage suite frame).2.currentSession.map
        TransportSession.remoteCapabilities =
          c.currentSession.map TransportSession.remoteCapabilities) ∨
    ∃ caps, statedCapabilities frame = some caps ∧
      (c.processIncomingMessage suite frame).2.negotiatedCaps = some (negotiate caps) ∧
      (c.processIncomingMessage suite frame).2.currentSession.map
        TransportSession.remoteCapabilities = c.currentSession.map fun _ => some caps := by
  match frame with
  | [] => exact .inl ⟨rfl, rfl, rfl⟩
  | [_] => exact .inl ⟨rfl, rfl, rfl⟩
  | protocolByte :: messageType :: content =>
    by_cases hversion : protocolByte = protocolVersion
    · by_cases hcaps : messageType = messageCapabilities
      · have hno : messageCapabilities ≠ messageHandshake := by decide
        cases hdecode : decodeCapabilities content with
        | none =>
          refine .inl ?_
          simp [processIncomingMessage, statedCapabilities, hversion, hcaps, hno, hdecode]
        | some caps =>
          refine .inr ⟨caps, ?_⟩
          simp [processIncomingMessage, statedCapabilities, hversion, hcaps, hno, hdecode,
            Function.comp_def]
      · refine .inl ⟨by simp [statedCapabilities, hcaps], ?_⟩
        simp only [processIncomingMessage, hversion, hcaps, ne_eq, not_true_eq_false, if_false]
        split
        · exact ⟨rfl, rfl⟩
        split
        · cases hsession : c.currentSession with
          | none => simp [hsession]
          | some session => simp [decryptMessage]
        · exact ⟨rfl, rfl⟩
    · refine .inl ?_
      simp [processIncomingMessage, statedCapabilities, hversion]

variable (suite) in
theorem Authentic.process_iff {offer : Option DecodedCapabilities} {c : Coordinator κ}
    (h : Authentic offer c) (frame : Bytes) :
    Authentic offer (c.processIncomingMessage suite frame).2 ↔
      ∀ caps, statedCapabilities frame = some caps → offer = some caps := by
  obtain ⟨hnone, hcaps, hremote⟩ | ⟨caps, hsome, hcaps, hremote⟩ :=
    c.caps_process suite frame
  · simp only [Authentic, hcaps, hremote, hnone, reduceCtorEq, false_imp_iff, implies_true,
      iff_true]
    exact h
  · have hsession : c.currentSession.map (fun _ => some caps) = some (some caps) := by
      obtain ⟨session, hs, -⟩ := Option.map_eq_some_iff.mp h.2
      rw [hs, Option.map_some]
    simp only [Authentic, hcaps, hremote, hsome, hsession, Option.some.injEq, forall_eq']
    constructor
    · rintro ⟨-, hoffer⟩
      exact hoffer.symm
    · rintro rfl
      exact ⟨rfl, rfl⟩

/-- After a handshake the capabilities stay those of the offer in its message 2 all along a sequence
of frames if and only if every frame with capabilities states those of the offer. -/
theorem authentic_iff_statedCapabilities (payload : Bytes) (send recv : CipherState κ)
    (frames : List Bytes) :
    Machine.Everywhere (step suite) (Authentic (decodeCapabilities payload))
        (afterHandshake payload send recv) frames ↔
      ∀ frame ∈ frames, ∀ caps, statedCapabilities frame = some caps →
        decodeCapabilities payload = some caps := by
  have hall : ∀ c : Coordinator κ, Authentic (decodeCapabilities payload) c →
      (Machine.Everywhere (step suite) (Authentic (decodeCapabilities payload)) c frames ↔
        ∀ frame ∈ frames, ∀ caps, statedCapabilities frame = some caps →
          decodeCapabilities payload = some caps) := by
    induction frames with
    | nil => simp [Machine.Everywhere]
    | cons frame frames ih =>
      intro c h
      simp only [Machine.Everywhere, step, Option.some.injEq, forall_eq', List.forall_mem_cons,
        h, true_and]
      rw [← h.process_iff suite frame]
      constructor
      · intro he
        exact ⟨he.head, (ih _ he.head).mp he⟩
      · rintro ⟨hfirst, hrest⟩
        exact (ih _ hfirst).mpr hrest
  exact hall _ ⟨rfl, rfl⟩

/-- An offer of everything that the extension has, too. -/
def fullOffer : Bytes := Utf8.textEncode (ofString
  "\x7b\"version\":2,\"features\":[\"prf\"],\"supportedTransports\":[\"usb\"]\x7d")

/-- A frame, not encrypted, with capabilities of version 1 and no features. -/
def downgradeFrame : Bytes := protocolVersion :: messageCapabilities :: Utf8.textEncode (ofString
  "\x7b\"version\":1,\"features\":[],\"supportedTransports\":[]\x7d")

theorem downgrade_replaces_capabilities :
    (afterHandshake fullOffer fresh.send fresh.recv).negotiatedCaps = some ⟨2, ["prf"], ["usb"]⟩ ∧
      ((afterHandshake fullOffer fresh.send fresh.recv).processIncomingMessage tally
        downgradeFrame).2.negotiatedCaps = some ⟨1, [], []⟩ ∧
      ¬Machine.Everywhere (step tally) (Authentic (decodeCapabilities fullOffer))
        (afterHandshake fullOffer fresh.send fresh.recv) [downgradeFrame] := by
  have hbefore : (afterHandshake fullOffer fresh.send fresh.recv).negotiatedCaps =
      some ⟨2, ["prf"], ["usb"]⟩ := by decide +kernel
  have hafter : ((afterHandshake fullOffer fresh.send fresh.recv).processIncomingMessage tally
      downgradeFrame).2.negotiatedCaps = some ⟨1, [], []⟩ := by decide +kernel
  refine ⟨hbefore, hafter, ?_⟩
  intro h
  have hlast := (h.2 _ rfl).head.1
  have hoffer : some (negotiateOffer (decodeCapabilities fullOffer)) =
      some ⟨2, ["prf"], ["usb"]⟩ := hbefore
  rw [hafter, hoffer] at hlast
  exact absurd hlast (by decide +kernel)

end Coordinator

end SmartIdVault.Pairing
