import SmartIdVault.Challenge.Contexts

/-! `parseChallengeComponents` of `lib/webauthn/challengeDerivation.ts` against the serializer.  The
serializer bounds the TLS binding and leaves the origin unbounded, and it takes any control code of
four bytes; so a length that does not fit its field, a lone surrogate and a byte order mark, which
`TextDecoder` drops, come out as something else. -/

namespace SmartIdVault.Challenge

open Utf8 (textEncode textDecode)

namespace ChallengeDerivation

structure ChallengeComponents where
  version : Nat
  tlsBinding : Bytes
  origin : Utf16
  controlCode : Utf16
  sessionNonce : Bytes
  deriving DecidableEq, Repr

/-- `serialized.slice(offset, offset + n)`, behind the check that there are as many bytes. -/
def slice (text : String) (n : Nat) (rest : Bytes) : Except String (Bytes × Bytes) :=
  if rest.length < n then .error text else .ok (rest.take n, rest.drop n)

def parseChallengeComponents (serialized : Bytes) : Except String ChallengeComponents := do
  let (version, rest) ← slice "Truncated: missing version byte" 1 serialized
  let version := Bytes.ofBigEndian version
  if version ≠ 0x01 ∧ version ≠ 0x02 then
    .error (s!"Unsupported challenge version: {version}. " ++
      "Please update both extension and Android companion app.")
  else
    let (proofLength, rest) ← slice "Truncated: missing TLS binding length" 2 rest
    let (tlsBinding, rest) ←
      slice "Truncated: TLS binding exceeds available data" (Bytes.ofBigEndian proofLength) rest
    let (originLength, rest) ← slice "Truncated: missing origin length" 2 rest
    let (originBytes, rest) ←
      slice "Truncated: origin exceeds available data" (Bytes.ofBigEndian originLength) rest
    let (codeLength, rest) ← slice "Invalid control code length" 1 rest
    if Bytes.ofBigEndian codeLength ≠ 4 then .error "Invalid control code length"
    else
      let (code, rest) ← slice "Truncated: control code exceeds available data" 4 rest
      let (sessionNonce, _) ←
        slice "Truncated: session nonce exceeds available data" nonceLength rest
      .ok
        { version, tlsBinding, origin := textDecode originBytes,
          controlCode := textDecode code, sessionNonce }

theorem slice_append {field rest : Bytes} {n : Nat} (text : String) (h : field.length = n) :
    slice text n (field ++ rest) = .ok (field, rest) := by
  unfold slice
  rw [if_neg (by simp [h]), ← h, List.take_left, List.drop_left]

theorem slice_eq_ok {text : String} {n : Nat} {rest field rest' : Bytes}
    (h : slice text n rest = .ok (field, rest')) : field = rest.take n ∧ rest' = rest.drop n := by
  unfold slice at h
  split at h
  · cases h
  · cases h
    exact ⟨rfl, rfl⟩

variable {proof origin code nonce padding : Bytes}

/-- The parser up to the origin, in bytes that begin like the serializer's. -/
theorem parse_unpadded (hp : proof.length ≤ maxTlsBindingLength) :
    parseChallengeComponents (unpadded version proof origin code nonce ++ padding) = (do
      let (originBytes, rest) ← slice "Truncated: origin exceeds available data"
        (origin.length % 65536) (afterLengths origin code nonce padding)
      let (codeLength, rest) ← slice "Invalid control code length" 1 rest
      if Bytes.ofBigEndian codeLength ≠ 4 then .error "Invalid control code length"
      else
        let (code, rest) ← slice "Truncated: control code exceeds available data" 4 rest
        let (sessionNonce, _) ←
          slice "Truncated: session nonce exceeds available data" nonceLength rest
        .ok ⟨2, proof, textDecode originBytes, textDecode code, sessionNonce⟩) := by
  unfold maxTlsBindingLength at hp
  have hproof : Bytes.ofBigEndian (Bytes.bigEndian 2 proof.length) = proof.length :=
    Bytes.ofBigEndian_bigEndian_of_lt (by omega)
  have horigin : Bytes.ofBigEndian (Bytes.bigEndian 2 origin.length) = origin.length % 65536 :=
    Bytes.ofBigEndian_bigEndian 2 origin.length
  have hversion : Bytes.ofBigEndian [version] = 2 := by decide
  rw [unpadded_append, parseChallengeComponents, slice_append _ (by rfl)]
  simp only [bind, Except.bind, hversion]
  rw [if_neg (by decide), slice_append _ (by simp)]
  simp only [hproof]
  rw [slice_append _ rfl]
  simp only
  rw [slice_append _ (by simp)]
  simp only [horigin]

/-- Where the length of the origin fits its field, all fields are read back. -/
theorem parse_layout (hp : proof.length ≤ maxTlsBindingLength) (ho : origin.length ≤ 65535)
    (hc : code.length = 4) (hn : nonce.length = nonceLength) :
    parseChallengeComponents (layout version proof origin code nonce) =
      .ok ⟨2, proof, textDecode origin, textDecode code, nonce⟩ := by
  rw [layout, parse_unpadded hp, Nat.mod_eq_of_lt (Nat.lt_succ_of_le ho), afterLengths,
    slice_append _ rfl]
  simp only [bind, Except.bind]
  rw [slice_append _ (by rfl)]
  simp only
  rw [if_neg (by decide), slice_append _ hc]
  simp only
  rw [slice_append _ hn]

/-- The origin that the parser returns comes from the first bytes of what the serializer wrote, as
many as the field says. -/
theorem origin_of_parse_layout {components : ChallengeComponents}
    (hp : proof.length ≤ maxTlsBindingLength)
    (h : parseChallengeComponents (layout version proof origin code nonce) = .ok components) :
    components.origin = textDecode (origin.take (origin.length % 65536)) := by
  rw [layout, parse_unpadded hp] at h
  simp only [bind, Except.bind] at h
  split at h
  · cases h
  rename_i horigin
  obtain ⟨hfield, -⟩ := slice_eq_ok horigin
  split at h
  · cases h
  split at h
  · cases h
  split at h
  · cases h
  split at h
  · cases h
  cases h
  rw [afterLengths, List.take_append_of_le_length (Nat.mod_le _ _)] at hfield
  exact congrArg textDecode hfield

/-- The strings that come back from their bytes: without lone surrogates, and with no byte order
mark in front. -/
def Plain (s : Utf16) : Prop := s.WellFormed ∧ s.head? ≠ some 0xFEFF

/-- The parser takes back exactly the inputs whose strings are plain and whose origin has at most
65535 bytes. -/
theorem parse_serialize_iff {input : ChallengeDerivationInput} {bytes : Bytes}
    (h : serializeChallengeComponents input = .ok bytes) :
    parseChallengeComponents bytes = .ok
        ⟨2, input.tlsBinding, input.origin, input.controlCode, input.sessionNonce⟩ ↔
      (textEncode input.origin).length ≤ 65535 ∧ Plain input.origin ∧ Plain input.controlCode := by
  obtain ⟨hp, hc, hn, rfl⟩ := serializeChallengeComponents_ok h
  by_cases ho : (textEncode input.origin).length ≤ 65535
  · rw [parse_layout hp ho hc hn, Plain, Plain, ← Utf8.textDecode_textEncode_iff,
      ← Utf8.textDecode_textEncode_iff]
    simp [ho]
  · refine iff_of_false ?_ fun hplain => ho hplain.1
    intro hparse
    have horigin := origin_of_parse_layout hp hparse
    have hle := Utf8.length_textEncode_le_of_take horigin.symm
    omega

/-- An origin with a byte order mark in front of its scheme. -/
def markedInput : ChallengeDerivationInput where
  tlsBinding := []
  origin := 0xFEFF :: Utf16.ofChars ['h', 't', 't', 'p', 's', ':', '/', '/', 'a']
  controlCode := Utf16.ofChars ['1', '2', '3', '4']
  sessionNonce := List.replicate 32 7

theorem mark_is_dropped : ∃ bytes, serializeChallengeComponents markedInput = .ok bytes ∧
    parseChallengeComponents bytes = .ok
      ⟨2, [], (contextOf 'a').origin, markedInput.controlCode, markedInput.sessionNonce⟩ ∧
    (contextOf 'a').origin ≠ markedInput.origin :=
  ⟨_, rfl, by decide +kernel, by decide⟩

theorem contextOf_comes_back : ∃ bytes, serializeChallengeComponents (contextOf 'a') = .ok bytes ∧
    parseChallengeComponents bytes = .ok
      ⟨2, [], (contextOf 'a').origin, (contextOf 'a').controlCode, List.replicate 32 7⟩ :=
  ⟨_, rfl, (@parse_serialize_iff (contextOf 'a') _ rfl).mpr
    ⟨by decide, ⟨⟨_, rfl⟩, by decide⟩, ⟨_, rfl⟩, by decide⟩⟩

end ChallengeDerivation

end SmartIdVault.Challenge
