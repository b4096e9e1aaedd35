import SmartIdVault.Lib.Sha256
import SmartIdVault.Challenge.Serialize

/-! Different contexts never share a challenge.  The length field of the origin holds the low
sixteen bits only, but the array ends in fewer than 32 zeros, so its own length tells the rest. -/

namespace SmartIdVault.Challenge

open Utf8 (textEncode textEncode_ofChars)

variable {tag tag' : UInt8} {proof proof' origin origin' code code' nonce nonce' : Bytes}

theorem computePaddingLength_lt (n : Nat) : computePaddingLength n < 32 := by
  unfold computePaddingLength paddingBlock
  simp only
  split <;> omega

/-- What comes after the length field of the origin. -/
def afterLengths (origin code nonce padding : Bytes) : Bytes :=
  origin ++ ([controlCodeLength] ++ (code ++ (nonce ++ padding)))

theorem unpadded_append (padding : Bytes) :
    unpadded tag proof origin code nonce ++ padding = [tag] ++ (Bytes.bigEndian 2 proof.length ++
      (proof ++ (Bytes.bigEndian 2 origin.length ++ afterLengths origin code nonce padding))) := by
  simp only [unpadded, afterLengths, List.append_assoc]

/-- The lengths that two arrays with the same bytes agree on, whatever follows their fields. -/
theorem unpadded_append_inj {padding padding' : Bytes} (hp : proof.length ≤ maxTlsBindingLength)
    (hp' : proof'.length ≤ maxTlsBindingLength)
    (h : unpadded tag proof origin code nonce ++ padding =
      unpadded tag' proof' origin' code' nonce' ++ padding') :
    tag = tag' ∧ proof = proof' ∧ origin.length % 65536 = origin'.length % 65536 ∧
      afterLengths origin code nonce padding = afterLengths origin' code' nonce' padding' := by
  unfold maxTlsBindingLength at hp hp'
  rw [unpadded_append, unpadded_append] at h
  obtain ⟨htag, h⟩ := List.append_inj h rfl
  obtain ⟨hlength, h⟩ := List.append_inj h (by simp)
  have hproofs : proof.length = proof'.length :=
    Bytes.bigEndian_inj (by omega) (by omega) hlength
  obtain ⟨hproof, h⟩ := List.append_inj h hproofs
  obtain ⟨hfield, h⟩ := List.append_inj h (by simp)
  have horigin := congrArg Bytes.ofBigEndian hfield
  rw [Bytes.ofBigEndian_bigEndian, Bytes.ofBigEndian_bigEndian] at horigin
  exact ⟨List.singleton_inj.mp htag, hproof, horigin, h⟩

/-- The rest of the fields, once the origins are known to be of one length. -/
theorem afterLengths_inj {padding padding' : Bytes} (ho : origin.length = origin'.length)
    (hc : code.length = code'.length) (hn : nonce.length = nonce'.length)
    (h : afterLengths origin code nonce padding = afterLengths origin' code' nonce' padding') :
    origin = origin' ∧ code = code' ∧ nonce = nonce' ∧ padding = padding' := by
  obtain ⟨horigin, h⟩ := List.append_inj h ho
  obtain ⟨-, h⟩ := List.append_inj h rfl
  obtain ⟨hcode, h⟩ := List.append_inj h hc
  obtain ⟨hnonce, hpadding⟩ := List.append_inj h hn
  exact ⟨horigin, hcode, hnonce, hpadding⟩

/-- Two origins whose lengths agree in their low sixteen bits give arrays that differ by more than
their padding. -/
theorem layout_inj (hp : proof.length ≤ maxTlsBindingLength)
    (hp' : proof'.length ≤ maxTlsBindingLength) (hc : code.length = 4) (hc' : code'.length = 4)
    (hn : nonce.length = nonceLength) (hn' : nonce'.length = nonceLength)
    (h : layout tag proof origin code nonce = layout tag' proof' origin' code' nonce') :
    proof = proof' ∧ origin = origin' ∧ code = code' ∧ nonce = nonce' := by
  obtain ⟨-, rfl, hmod, hrest⟩ := unpadded_append_inj hp hp' h
  have hlength := congrArg List.length hrest
  simp only [afterLengths, List.length_append, List.length_replicate, hc, hc', hn, hn'] at hlength
  have hpad := computePaddingLength_lt (1 + 2 + 2 + 1 + nonceLength +
    (proof.length + origin.length + 4))
  have hpad' := computePaddingLength_lt (1 + 2 + 2 + 1 + nonceLength +
    (proof.length + origin'.length + 4))
  have horigins : origin.length = origin'.length := by omega
  obtain ⟨horigin, hcode, hnonce, -⟩ :=
    afterLengths_inj horigins (hc.trans hc'.symm) (hn.trans hn'.symm) hrest
  exact ⟨rfl, horigin, hcode, hnonce⟩

theorem textEncode_inj {s t : Utf16} (hs : s.WellFormed) (ht : t.WellFormed)
    (h : textEncode s = textEncode t) : s = t := by
  obtain ⟨cs, rfl⟩ := hs
  obtain ⟨ds, rfl⟩ := ht
  rw [textEncode_ofChars, textEncode_ofChars] at h
  rw [Utf8.encode_inj h]

/-- The serialization of well-formed strings tells all four components, for origins of any length,
and so does the challenge if its hash tells the two serializations apart. -/
theorem no_shared_challenge {sha256 : Bytes → Bytes} {i j : ChallengeDerivationInput}
    {bytes bytes' : Bytes} (hi : serializeChallengeComponents i = .ok bytes)
    (hj : serializeChallengeComponents j = .ok bytes') (hio : i.origin.WellFormed)
    (hjo : j.origin.WellFormed) (hic : i.controlCode.WellFormed) (hjc : j.controlCode.WellFormed)
    (hsha : sha256 bytes = sha256 bytes' → bytes = bytes') :
    (bytes = bytes' → i = j) ∧ (deriveChallenge sha256 i = deriveChallenge sha256 j → i = j) := by
  have hbytes : bytes = bytes' → i = j := by
    intro h
    obtain ⟨hp, hc, hn, rfl⟩ := serializeChallengeComponents_ok hi
    obtain ⟨hp', hc', hn', rfl⟩ := serializeChallengeComponents_ok hj
    obtain ⟨hproof, horigin, hcode, hnonce⟩ := layout_inj hp hp' hc hc' hn hn' h
    obtain ⟨tlsBinding, origin, controlCode, sessionNonce⟩ := i
    rw [ChallengeDerivationInput.mk.injEq]
    exact ⟨hproof, textEncode_inj hio hjo horigin, textEncode_inj hic hjc hcode, hnonce⟩
  refine ⟨hbytes, ?_⟩
  intro h
  rw [deriveChallenge, deriveChallenge, hi, hj] at h
  exact hbytes (hsha (Except.ok.inj h))

def contextOf (host : Char) : ChallengeDerivationInput where
  tlsBinding := []
  origin := Utf16.ofChars ['h', 't', 't', 'p', 's', ':', '/', '/', host]
  controlCode := Utf16.ofChars ['1', '2', '3', '4']
  sessionNonce := List.replicate 32 7

theorem two_origins_two_challenges :
    deriveChallenge Sha256.sha256 (contextOf 'a') ≠
      deriveChallenge Sha256.sha256 (contextOf 'b') := by
  intro h
  have hcontexts := (no_shared_challenge (i := contextOf 'a') (j := contextOf 'b') rfl rfl ⟨_, rfl⟩
    ⟨_, rfl⟩ ⟨_, rfl⟩ ⟨_, rfl⟩ fun hsha => absurd hsha (by decide +kernel)).2 h
  exact absurd hcontexts (by decide)

end SmartIdVault.Challenge
