import SmartIdVault.Lib.Faults
import SmartIdVault.Challenge.Agreement
import SmartIdVault.Challenge.Contexts

/-! Which TLV bytes the phone accepts.  It hashes what it has parsed and serialized again, and never
compares that with its input: bytes after the nonce, and bytes that the charsets replace, make no
difference to the challenge. -/

namespace SmartIdVault.Challenge

open Faults (bind_eq_ok)

namespace ChallengeVerifier

variable {tlv proof origin code nonce rest : Bytes}

/-- What the parser reads: the fields, and bytes that it leaves alone. -/
structure TlvFields (tlv proof origin code nonce rest : Bytes) : Prop where
  bytes : tlv = unpadded version proof origin code nonce ++ rest
  proof : proof.length ≤ maxProofLength
  origin : origin.length < 65536
  code : code.length = 4
  nonce : nonce.length = nonceLength

/-- The bytes are what the phone itself would serialize. -/
def Canonical (tlv : Bytes) : Prop :=
  ∃ components, parseTlvComponents tlv = .ok components ∧ serializeForHash components = .ok tlv

/-- If the bytes have the fields at all, the origin is UTF-8, the control code is ASCII, and nothing
but the zeros up to a multiple of 32 bytes follows. -/
def WellFormedTlv (tlv : Bytes) : Prop :=
  ∀ proof origin code nonce rest, TlvFields tlv proof origin code nonce rest →
    (∃ cs, origin = Utf8.encode cs) ∧ (∀ b ∈ code, b < 0x80) ∧
      rest = List.replicate
        (computePaddingLength (unpadded version proof origin code nonce).length) 0

/-! ### The parser -/

theorem bufGet_eq_ok {buf field rest : Bytes} {n : Nat} (h : bufGet buf n = .ok (field, rest)) :
    buf = field ++ rest ∧ field.length = n := by
  unfold bufGet at h
  split at h
  · cases h
  · rename_i hn
    cases h
    exact ⟨(List.take_append_drop n buf).symm, by rw [List.length_take]; omega⟩

theorem eq_singleton {bs : Bytes} {b : UInt8} (hlen : bs.length = 1)
    (h : Bytes.ofBigEndian bs = b.toNat) : bs = [b] := by
  obtain ⟨c, rfl⟩ := List.length_eq_one_iff.mp hlen
  rw [ofBigEndian_singleton] at h
  rw [UInt8.toNat_inj.mp h]

theorem TlvFields.parse (h : TlvFields tlv proof origin code nonce rest) :
    parseTlvComponents tlv = .ok ⟨1, proof, stringOfUtf8 origin, stringOfAscii code, nonce⟩ := by
  rw [h.bytes, parseTlvComponents_unpadded rest h.proof h.origin h.code h.nonce]

theorem exists_fields_of_parse {components : ChallengeComponents}
    (h : parseTlvComponents tlv = .ok components) :
    ∃ proof origin code nonce rest, TlvFields tlv proof origin code nonce rest := by
  unfold parseTlvComponents at h
  obtain ⟨⟨tag, buf₁⟩, htag, h⟩ := bind_eq_ok.mp h
  simp only at h
  split at h
  · cases h
  rename_i hversion
  obtain ⟨⟨proofField, buf₂⟩, hproofField, h⟩ := bind_eq_ok.mp h
  simp only at h
  split at h
  · cases h
  rename_i hmax
  obtain ⟨⟨proof, buf₃⟩, hproof, h⟩ := bind_eq_ok.mp h
  obtain ⟨⟨originField, buf₄⟩, horiginField, h⟩ := bind_eq_ok.mp h
  obtain ⟨⟨origin, buf₅⟩, horigin, h⟩ := bind_eq_ok.mp h
  obtain ⟨⟨codeField, buf₆⟩, hcodeField, h⟩ := bind_eq_ok.mp h
  simp only at h
  split at h
  · cases h
  rename_i hfour
  obtain ⟨⟨code, buf₇⟩, hcode, h⟩ := bind_eq_ok.mp h
  obtain ⟨⟨nonce, rest⟩, hnonce, -⟩ := bind_eq_ok.mp h
  obtain ⟨rfl, ltag⟩ := bufGet_eq_ok htag
  obtain ⟨rfl, lproofField⟩ := bufGet_eq_ok hproofField
  obtain ⟨rfl, lproof⟩ := bufGet_eq_ok hproof
  obtain ⟨rfl, loriginField⟩ := bufGet_eq_ok horiginField
  obtain ⟨rfl, lorigin⟩ := bufGet_eq_ok horigin
  obtain ⟨rfl, lcodeField⟩ := bufGet_eq_ok hcodeField
  obtain ⟨rfl, lcode⟩ := bufGet_eq_ok hcode
  obtain ⟨rfl, lnonce⟩ := bufGet_eq_ok hnonce
  obtain rfl : tag = [version] := eq_singleton ltag (not_not.mp hversion)
  obtain rfl : codeField = [controlCodeLength] := eq_singleton lcodeField (not_not.mp hfour)
  have hfield : Bytes.bigEndian 2 proof.length = proofField := by
    rw [lproof, Bytes.bigEndian_ofBigEndian lproofField]
  have hfield' : Bytes.bigEndian 2 origin.length = originField := by
    rw [lorigin, Bytes.bigEndian_ofBigEndian loriginField]
  have hbound := Bytes.ofBigEndian_lt originField
  rw [loriginField, ← lorigin] at hbound
  refine ⟨proof, origin, code, nonce, rest, ⟨?_, ?_, hbound, lcode, lnonce⟩⟩
  · rw [unpadded, hfield, hfield']
    simp only [List.append_assoc]
  · exact lproof ▸ Nat.le_of_not_lt hmax

/-! ### The charsets -/

theorem utf8Bytes_stringOfUtf8 (bs : Bytes) :
    utf8Bytes (stringOfUtf8 bs) = Utf8.encode (Utf8.decode bs) := by
  rw [utf8Bytes, stringOfUtf8, Utf16.chars_ofChars]

theorem asciiBytes_stringOfAscii (bs : Bytes) :
    asciiBytes (stringOfAscii bs) = bs.map fun b => if b < 0x80 then b else 0x3F := by
  rw [asciiBytes, stringOfAscii, List.map_map]
  refine List.map_congr_left fun b _ => ?_
  have hb := b.toNat_lt
  simp only [Function.comp_apply]
  split
  · rename_i hlt
    have hnat : (UInt16.ofNat b.toNat).toNat = b.toNat :=
      UInt16.toNat_ofNat_of_lt' (show _ < 65536 by omega)
    rw [if_pos (by rw [UInt16.lt_iff_toNat_lt, hnat]; exact UInt8.lt_iff_toNat_lt.mp hlt), hnat,
      UInt8.ofNat_toNat]
  · rfl

theorem asciiBytes_eq_self_iff (bs : Bytes) :
    asciiBytes (stringOfAscii bs) = bs ↔ ∀ b ∈ bs, b < 0x80 := by
  rw [asciiBytes_stringOfAscii]
  constructor
  · intro h b hb
    by_contra hge
    have hb' : b ∈ bs.map fun b => if b < 0x80 then b else (0x3F : UInt8) := h.symm ▸ hb
    obtain ⟨b', -, rfl⟩ := List.mem_map.mp hb'
    split at hge <;> contradiction
  · intro h
    exact (List.map_congr_left fun b hb => if_pos (h b hb)).trans (List.map_id bs)

/-- The replacements of malformed bytes never make up for the cut of the length. -/
theorem length_eq_of_take {o : Bytes}
    (hmod : (Utf8.encode (Utf8.decode o)).length % 65536 = o.length)
    (h : (Utf8.encode (Utf8.decode o)).take o.length = o) :
    (Utf8.encode (Utf8.decode o)).length = o.length := by
  have hle := Utf8.length_encode_le_of_take (Utf8.decode o) o.length (by rw [h])
  omega

/-! ### What is accepted -/

theorem length_unpadded {tag : UInt8} (h : nonce.length = nonceLength) :
    (unpadded tag proof origin code nonce).length =
      1 + 2 + 2 + 1 + nonceLength + (proof.length + origin.length + code.length) := by
  simp only [unpadded, List.length_append, Bytes.length_bigEndian, List.length_singleton, h]
  omega

theorem canonical_iff (h : TlvFields tlv proof origin code nonce rest) :
    Canonical tlv ↔ (∃ cs, origin = Utf8.encode cs) ∧ (∀ b ∈ code, b < 0x80) ∧
      rest = List.replicate
        (computePaddingLength (unpadded version proof origin code nonce).length) 0 := by
  have hserialize : serializeForHash
      ⟨1, proof, stringOfUtf8 origin, stringOfAscii code, nonce⟩ = .ok _ :=
    serializeForHash_eq _ _ h.nonce
  rw [utf8Bytes_stringOfUtf8] at hserialize
  rw [length_unpadded h.nonce]
  constructor
  · rintro ⟨components, hparse, hcanonical⟩
    obtain rfl := Except.ok.inj (h.parse.symm.trans hparse)
    have heq := Except.ok.inj (hserialize.symm.trans hcanonical)
    rw [h.bytes] at heq
    obtain ⟨-, -, hmod, hrest⟩ := unpadded_append_inj h.proof h.proof heq
    rw [Nat.mod_eq_of_lt h.origin] at hmod
    have htake : (Utf8.encode (Utf8.decode origin)).take origin.length = origin := by
      have hle : origin.length ≤ (Utf8.encode (Utf8.decode origin)).length :=
        hmod ▸ Nat.mod_le _ _
      have hfirst := congrArg (List.take origin.length) hrest
      rwa [afterLengths, afterLengths, List.take_append_of_le_length hle, List.take_left] at hfirst
    have hcodes : (asciiBytes (stringOfAscii code)).length = code.length := by
      rw [asciiBytes_stringOfAscii, List.length_map]
    obtain ⟨horigin, hcode, -, hpadding⟩ :=
      afterLengths_inj (length_eq_of_take hmod htake) hcodes rfl hrest
    refine ⟨⟨_, horigin.symm⟩, (asciiBytes_eq_self_iff code).mp hcode, ?_⟩
    rw [← hpadding, horigin, hcode]
    rfl
  · rintro ⟨⟨cs, rfl⟩, hascii, rfl⟩
    refine ⟨_, h.parse, hserialize.trans ?_⟩
    rw [Utf8.decode_encode, (asciiBytes_eq_self_iff code).mpr hascii, h.bytes]
    rfl

section Sha256

variable (sha256 : Bytes → Bytes)

theorem exists_parse_of_success {challenge : List Char}
    (h : verifyChallenge sha256 tlv challenge = .success) :
    ∃ components, parseTlvComponents tlv = .ok components := by
  unfold verifyChallenge at h
  split at h
  · cases h
  · rename_i hcompare
    obtain ⟨components, hparse, -⟩ := bind_eq_ok.mp hcompare
    exact ⟨components, hparse⟩

/-- The challenge of the canonical form passes for all bytes that parse. -/
theorem exists_challenge (h : TlvFields tlv proof origin code nonce rest) :
    ∃ challenge, verifyChallenge sha256 tlv challenge = .success :=
  ⟨_, verifyChallenge_hash sha256 h.parse (serializeForHash_eq _ _ h.nonce)⟩

/-- Whatever challenge passes with them, the bytes are canonical, exactly for the bytes that do not
parse and those that are well formed. -/
theorem accepts_only_canonical_iff (tlv : Bytes) :
    (∀ challenge, verifyChallenge sha256 tlv challenge = .success → Canonical tlv) ↔
      WellFormedTlv tlv := by
  constructor
  · intro h proof origin code nonce rest hfields
    obtain ⟨challenge, hpass⟩ := exists_challenge sha256 hfields
    exact (canonical_iff hfields).mp (h challenge hpass)
  · intro h challenge hpass
    obtain ⟨components, hparse⟩ := exists_parse_of_success sha256 hpass
    obtain ⟨proof, origin, code, nonce, rest, hfields⟩ := exists_fields_of_parse hparse
    exact (canonical_iff hfields).mpr (h proof origin code nonce rest hfields)

end Sha256

/-- The TLV bytes of `https://a` with the control code 1234. -/
def sampleTlv : Bytes :=
  layout version [] (Utf8.encode ['h', 't', 't', 'p', 's', ':', '/', '/', 'a'])
    (Utf8.encode ['1', '2', '3', '4']) (List.replicate 32 7)

theorem sampleTlv_fields (extra : Bytes) :
    TlvFields (sampleTlv ++ extra) [] (Utf8.encode ['h', 't', 't', 'p', 's', ':', '/', '/', 'a'])
      (Utf8.encode ['1', '2', '3', '4']) (List.replicate 32 7) (List.replicate 13 0 ++ extra) where
  bytes := by
    rw [sampleTlv, layout, List.append_assoc]
    rfl
  proof := by decide
  origin := by decide
  code := by decide
  nonce := by decide

theorem trailing_byte_is_accepted : ∃ challenge,
    verifyChallenge Sha256.sha256 sampleTlv challenge = .success ∧ Canonical sampleTlv ∧
      verifyChallenge Sha256.sha256 (sampleTlv ++ [1]) challenge = .success ∧
      ¬Canonical (sampleTlv ++ [1]) := by
  have hfields := sampleTlv_fields []
  rw [List.append_nil] at hfields
  refine ⟨_, verifyChallenge_hash _ hfields.parse (serializeForHash_eq _ _ rfl), ?_,
    verifyChallenge_hash _ (sampleTlv_fields [1]).parse (serializeForHash_eq _ _ rfl), ?_⟩
  · exact (canonical_iff hfields).mpr ⟨⟨_, rfl⟩, by decide +kernel, rfl⟩
  · intro h
    exact absurd ((canonical_iff (sampleTlv_fields [1])).mp h).2.2 (by decide)

end ChallengeVerifier

end SmartIdVault.Challenge
