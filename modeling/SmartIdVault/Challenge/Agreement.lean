import SmartIdVault.Lib.Sha256
import SmartIdVault.Challenge.Serialize
import SmartIdVault.Challenge.Verifier

/-! Whether the extension and the phone agree on the challenge.  The two formats are the same up to
their first byte: the extension writes version 2 and the phone takes version 1 only, so the phone
refuses every challenge of the extension. -/

namespace SmartIdVault.Challenge

open ChallengeVerifier
open Utf8 (textEncode textEncode_ofChars)

/-- The phone reads back the components of `input` from `bytes`, serializes them to the same bytes,
and passes the challenge that the extension derives. -/
def Agrees (sha256 : Bytes → Bytes) (input : ChallengeDerivationInput) (bytes : Bytes) : Prop :=
  ∃ components, parseTlvComponents bytes = .ok components ∧
    components.zkTlsProof = input.tlsBinding ∧ components.origin = input.origin ∧
    components.controlCode = input.controlCode ∧
    components.sessionNonce = input.sessionNonce ∧ serializeForHash components = .ok bytes ∧
    ∀ challenge, deriveChallenge sha256 input = .ok challenge →
      verifyChallenge sha256 bytes (Base64.encodeUrl challenge) = .success

/-! ### The parser on fields written one after the other -/

theorem bufGet_append {field rest : Bytes} {n : Nat} (h : field.length = n) :
    bufGet (field ++ rest) n = .ok (field, rest) := by
  unfold bufGet
  rw [if_neg (by simp [h]), ← h, List.take_left, List.drop_left]

theorem ofBigEndian_singleton (b : UInt8) : Bytes.ofBigEndian [b] = b.toNat := by
  simp [Bytes.ofBigEndian]

theorem parseTlvComponents_of_version {tag : UInt8} {rest : Bytes}
    (h : tag ≠ ChallengeVerifier.version) :
    parseTlvComponents (tag :: rest) =
      .error (.illegalArgument s!"Unsupported challenge version: {tag.toNat}") := by
  have hget : bufGet ([tag] ++ rest) 1 = .ok ([tag], rest) := bufGet_append rfl
  have hne : Bytes.ofBigEndian [tag] ≠ ChallengeVerifier.version.toNat := by
    rw [ofBigEndian_singleton]
    exact fun he => h (UInt8.toNat_inj.mp he)
  rw [← List.singleton_append, parseTlvComponents, hget]
  simp only [bind, Except.bind, if_pos hne]
  rw [ofBigEndian_singleton]

/-- What the phone's parser makes of the fields one after the other, whatever follows them. -/
theorem parseTlvComponents_unpadded {proof origin code nonce : Bytes} (rest : Bytes)
    (hp : proof.length ≤ maxProofLength) (ho : origin.length < 65536) (hc : code.length = 4)
    (hn : nonce.length = ChallengeVerifier.nonceLength) :
    parseTlvComponents (unpadded ChallengeVerifier.version proof origin code nonce ++ rest) =
      .ok ⟨1, proof, stringOfUtf8 origin, stringOfAscii code, nonce⟩ := by
  have hproof : Bytes.ofBigEndian (Bytes.bigEndian 2 proof.length) = proof.length :=
    Bytes.ofBigEndian_bigEndian_of_lt (by unfold maxProofLength at hp; omega)
  have horigin : Bytes.ofBigEndian (Bytes.bigEndian 2 origin.length) = origin.length :=
    Bytes.ofBigEndian_bigEndian_of_lt (by omega)
  simp only [unpadded, List.append_assoc, parseTlvComponents]
  rw [bufGet_append (by rfl)]
  simp only [bind, Except.bind, ofBigEndian_singleton, ne_eq, not_true_eq_false, if_false]
  rw [bufGet_append (by simp)]
  simp only [hproof, gt_iff_lt, Nat.not_lt.mpr hp, if_false]
  rw [bufGet_append rfl]
  simp only
  rw [bufGet_append (by simp)]
  simp only [horigin]
  rw [bufGet_append rfl]
  simp only
  rw [bufGet_append (by rfl)]
  simp only [ofBigEndian_singleton]
  rw [if_neg (by decide), bufGet_append hc]
  simp only
  rw [bufGet_append hn]
  rfl

theorem parseTlvComponents_layout {proof origin code nonce : Bytes}
    (hp : proof.length ≤ maxProofLength) (ho : origin.length < 65536) (hc : code.length = 4)
    (hn : nonce.length = ChallengeVerifier.nonceLength) :
    parseTlvComponents (layout ChallengeVerifier.version proof origin code nonce) =
      .ok ⟨1, proof, stringOfUtf8 origin, stringOfAscii code, nonce⟩ :=
  parseTlvComponents_unpadded _ hp ho hc hn

/-! ### Charsets -/

theorem stringOfUtf8_textEncode {s : Utf16} (h : s.WellFormed) :
    stringOfUtf8 (textEncode s) = s := by
  obtain ⟨cs, rfl⟩ := h
  rw [textEncode_ofChars, stringOfUtf8, Utf8.decode_encode]

theorem utf8Bytes_eq_textEncode {s : Utf16} (h : s.WellFormed) : utf8Bytes s = textEncode s := by
  obtain ⟨cs, rfl⟩ := h
  rw [textEncode_ofChars, utf8Bytes, Utf16.chars_ofChars]

theorem ascii_char : ∀ n < 128, Utf16.units (Char.ofNat n) = [UInt16.ofNat n] ∧
    String.utf8EncodeChar (Char.ofNat n) = [UInt8.ofNat n] := by decide

theorem toNat_lt_of_ascii {u : UInt16} (h : u < 0x80) : u.toNat < 128 :=
  UInt16.lt_iff_toNat_lt.mp h

theorem textEncode_ascii {s : Utf16} (h : ∀ u ∈ s, u < 0x80) :
    textEncode s = s.map fun u => UInt8.ofNat u.toNat := by
  have hchar := fun u hu => ascii_char _ (toNat_lt_of_ascii (h u hu))
  have hs : Utf16.ofChars (s.map fun u => Char.ofNat u.toNat) = s := by
    rw [Utf16.ofChars, List.flatMap_map, List.flatMap_congr fun u hu => (hchar u hu).1]
    simp only [UInt16.ofNat_toNat, List.flatMap_singleton']
  calc textEncode s
      = textEncode (Utf16.ofChars (s.map fun u => Char.ofNat u.toNat)) := by rw [hs]
    _ = s.flatMap fun u => String.utf8EncodeChar (Char.ofNat u.toNat) := by
      rw [textEncode_ofChars, Utf8.encode, List.flatMap_map]
    _ = s.flatMap fun u => [UInt8.ofNat u.toNat] :=
      List.flatMap_congr fun u hu => (hchar u hu).2
    _ = s.map fun u => UInt8.ofNat u.toNat := List.map_eq_flatMap.symm

theorem stringOfAscii_map {s : Utf16} (h : ∀ u ∈ s, u < 0x80) :
    stringOfAscii (s.map fun u => UInt8.ofNat u.toNat) = s := by
  have same : ∀ u ∈ s, (if UInt8.ofNat u.toNat < 0x80 then
      UInt16.ofNat (UInt8.ofNat u.toNat).toNat else 0xFFFD) = id u := by
    intro u hu
    have hlt := toNat_lt_of_ascii (h u hu)
    have hnat : (UInt8.ofNat u.toNat).toNat = u.toNat :=
      UInt8.toNat_ofNat_of_lt' (show _ < 256 by omega)
    rw [if_pos (by rw [UInt8.lt_iff_toNat_lt, hnat]; exact hlt), hnat, UInt16.ofNat_toNat, id]
  rw [stringOfAscii, List.map_map]
  exact (List.map_congr_left same).trans (List.map_id s)

theorem asciiBytes_eq_textEncode {s : Utf16} (h : ∀ u ∈ s, u < 0x80) :
    asciiBytes s = textEncode s := by
  rw [textEncode_ascii h, asciiBytes]
  apply List.map_congr_left
  intro u hu
  rw [if_pos (h u hu)]

theorem computePaddingLength_eq (n : Nat) : computePaddingLength n = (32 - n % 32) % 32 := by
  unfold computePaddingLength paddingBlock
  simp only
  split <;> omega

theorem serializeForHash_eq {v : Nat} {proof nonce : Bytes} (origin code : Utf16)
    (hn : nonce.length = ChallengeVerifier.nonceLength) :
    serializeForHash ⟨v, proof, origin, code, nonce⟩ = .ok
      (layout ChallengeVerifier.version proof (utf8Bytes origin) (asciiBytes code) nonce) := by
  simp only [serializeForHash, layout, hn, Nat.lt_irrefl, if_false, Nat.sub_self, Nat.zero_add,
    computePaddingLength_eq]
  rfl

theorem serializeForHash_layout {v : Nat} {proof nonce : Bytes} {origin code : Utf16}
    (ho : origin.WellFormed) (hc : ∀ u ∈ code, u < 0x80)
    (hn : nonce.length = ChallengeVerifier.nonceLength) :
    serializeForHash ⟨v, proof, origin, code, nonce⟩ = .ok
      (layout ChallengeVerifier.version proof (textEncode origin) (textEncode code) nonce) := by
  rw [serializeForHash_eq origin code hn, utf8Bytes_eq_textEncode ho, asciiBytes_eq_textEncode hc]

/-! ### The two formats -/

section Sha256

variable (sha256 : Bytes → Bytes) {input : ChallengeDerivationInput} {bytes : Bytes}

theorem parseTlvComponents_serialized (h : serializeChallengeComponents input = .ok bytes) :
    parseTlvComponents bytes =
      .error (.illegalArgument "Unsupported challenge version: 2") := by
  obtain ⟨-, -, -, rfl⟩ := serializeChallengeComponents_ok h
  exact parseTlvComponents_of_version (by decide)

/-- For every input that the extension serializes, whatever the hash is, the phone does not read the
components back and fails the challenge. -/
theorem formats_never_agree (h : serializeChallengeComponents input = .ok bytes) :
    ¬Agrees sha256 input bytes ∧ ∀ challenge,
      verifyChallenge sha256 bytes challenge =
        .failure "Verification error: Unsupported challenge version: 2" := by
  have hparse := parseTlvComponents_serialized h
  constructor
  · rintro ⟨components, hok, -⟩
    rw [hparse] at hok
    cases hok
  · intro challenge
    simp only [verifyChallenge, compareChallenges, hparse, bind, Except.bind]
    rfl

theorem verifyChallenge_hash {tlv canonical : Bytes} {components : ChallengeComponents}
    (hp : parseTlvComponents tlv = .ok components)
    (hs : serializeForHash components = .ok canonical) :
    verifyChallenge sha256 tlv (Base64.encodeUrl (sha256 canonical)) = .success := by
  have hdecode : base64UrlDecode (Base64.encodeUrl (sha256 canonical)) =
      .ok (sha256 canonical) := by
    rw [base64UrlDecode, Base64.decode_pad_encodeUrl]
  simp [verifyChallenge, compareChallenges, hp, hs, hdecode, bind, Except.bind]

/-- The version is all that the formats differ in: with the phone's version in the first byte, and
for an origin without lone surrogates whose length fits its field and an ASCII control code, the
phone reads the four components back, serializes them to the same bytes and passes their hash. -/
theorem formats_agree_up_to_version (h : serializeChallengeComponents input = .ok bytes)
    (ho : input.origin.WellFormed) (hl : (textEncode input.origin).length ≤ 65535)
    (hc : ∀ u ∈ input.controlCode, u < 0x80) :
    ∃ components, parseTlvComponents (ChallengeVerifier.version :: bytes.tail) = .ok components ∧
      components = ⟨1, input.tlsBinding, input.origin, input.controlCode, input.sessionNonce⟩ ∧
      serializeForHash components = .ok (ChallengeVerifier.version :: bytes.tail) ∧
      verifyChallenge sha256 (ChallengeVerifier.version :: bytes.tail)
        (Base64.encodeUrl (sha256 (ChallengeVerifier.version :: bytes.tail))) = .success := by
  obtain ⟨hproof, hcode, hnonce, rfl⟩ := serializeChallengeComponents_ok h
  have hparse := parseTlvComponents_layout hproof (Nat.lt_succ_of_le hl) hcode hnonce
  rw [stringOfUtf8_textEncode ho, textEncode_ascii hc, stringOfAscii_map hc,
    ← textEncode_ascii hc] at hparse
  have hserialize : serializeForHash
      ⟨1, input.tlsBinding, input.origin, input.controlCode, input.sessionNonce⟩ = .ok _ :=
    serializeForHash_layout ho hc hnonce
  exact ⟨_, hparse, rfl, hserialize, verifyChallenge_hash sha256 hparse hserialize⟩

end Sha256

/-- The origin `https://a`, the control code 1234 and no TLS binding. -/
def sampleInput : ChallengeDerivationInput where
  tlsBinding := []
  origin := Utf16.ofChars ['h', 't', 't', 'p', 's', ':', '/', '/', 'a']
  controlCode := Utf16.ofChars ['1', '2', '3', '4']
  sessionNonce := List.replicate 32 7

theorem phone_refuses_sampleInput :
    (textEncode sampleInput.origin).length ≤ 65535 ∧
      ∃ bytes, serializeChallengeComponents sampleInput = .ok bytes ∧
        ¬Agrees Sha256.sha256 sampleInput bytes := by
  refine ⟨by decide, _, rfl, ?_⟩
  rintro ⟨components, hok, -⟩
  have hser : serializeChallengeComponents sampleInput = .ok _ := rfl
  rw [parseTlvComponents_serialized hser] at hok
  cases hok

theorem sampleInput_never_agrees :
    ∃ bytes, serializeChallengeComponents sampleInput = .ok bytes ∧
      ¬Agrees Sha256.sha256 sampleInput bytes :=
  ⟨_, rfl, (formats_never_agree _ rfl).1⟩

end SmartIdVault.Challenge
