import SmartIdVault.NativeHost.Crypto

/-! What becomes of a packet that one side seals when the other side opens it: the round trip, and
which check refuses a packet that carries another number, goes the other way or is cut short. -/

namespace SmartIdVault.NativeHost

def ivSize : Nat := 12
abbrev wireOverhead : Nat := sequenceSize + authTagSize

@[simp] theorem length_buildIV (direction : UInt8) (seqNum : UInt64) :
    (buildIV direction seqNum).length = ivSize := by
  simp [buildIV, ivSize]

/-- What the packets rely on of AES-256-GCM: the tag adds 16 bytes, what was sealed opens under its
own nonce, and under no other. -/
structure Gcm.Correct (gcm : Gcm) : Prop where
  length_seal {key iv : Bytes} (plaintext : Bytes) :
    key.length = sessionKeySize → iv.length = ivSize →
      (gcm.gcmSeal key iv plaintext).length = plaintext.length + authTagSize
  open_seal {key iv : Bytes} (plaintext : Bytes) :
    key.length = sessionKeySize → iv.length = ivSize →
      gcm.gcmOpen key iv (gcm.gcmSeal key iv plaintext) = some plaintext
  open_other {key iv iv' : Bytes} (plaintext : Bytes) :
    key.length = sessionKeySize → iv.length = ivSize → iv'.length = ivSize → iv ≠ iv' →
      gcm.gcmOpen key iv' (gcm.gcmSeal key iv plaintext) = none

def FailsWith (kind : DecryptErrorKind) (r : Except DecryptFailure (Bytes × UInt64)) : Prop :=
  ∃ message, r = .error (.decryptError kind message)

theorem FailsWith.unique {kind kind' : DecryptErrorKind}
    {r : Except DecryptFailure (Bytes × UInt64)}
    (h : FailsWith kind r) (h' : FailsWith kind' r) : kind = kind' := by
  obtain ⟨message, rfl⟩ := h
  obtain ⟨message', h'⟩ := h'
  simp only [Except.error.injEq, DecryptFailure.decryptError.injEq] at h'
  exact h'.1

/-! ### The checks, one by one -/

variable (gcm : Gcm) {key : Bytes}

/-- The number in front of a packet is read back as it was written. -/
theorem wireSeq_append (seqNum : UInt64) (ciphertext : Bytes) :
    wireSeq (Bytes.bigEndian 8 seqNum.toNat ++ ciphertext) = seqNum := by
  have htake : (Bytes.bigEndian 8 seqNum.toNat ++ ciphertext).take sequenceSize =
      Bytes.bigEndian 8 seqNum.toNat :=
    List.take_left' (Bytes.length_bigEndian 8 seqNum.toNat)
  rw [wireSeq, htake, Bytes.ofBigEndian_bigEndian_of_lt (seq_lt seqNum), UInt64.ofNat_toNat]

theorem decryptWithDirection_short (hkey : key.length = sessionKeySize) {wire : Bytes}
    (hwire : wire.length < wireOverhead) (e : UInt64) (d : UInt8) :
    decryptWithDirection gcm key wire e d = .error (.decryptError .format
      s!"wire data too short: {wire.length} bytes (min {sequenceSize + authTagSize})") := by
  rw [decryptWithDirection, if_neg (not_not_intro hkey), if_pos hwire]

section Long

variable {wire : Bytes} {e : UInt64} (d : UInt8)

theorem decryptWithDirection_replay (hkey : key.length = sessionKeySize)
    (hwire : wireOverhead ≤ wire.length) (hseq : wireSeq wire < e) :
    FailsWith .replay (decryptWithDirection gcm key wire e d) := by
  rw [decryptWithDirection, if_neg (not_not_intro hkey), if_neg (Nat.not_lt.mpr hwire)]
  simp only [if_pos hseq]
  exact ⟨_, rfl⟩

theorem decryptWithDirection_gap (hkey : key.length = sessionKeySize)
    (hwire : wireOverhead ≤ wire.length) (hseq : e < wireSeq wire) :
    FailsWith .sequenceGap (decryptWithDirection gcm key wire e d) := by
  rw [decryptWithDirection, if_neg (not_not_intro hkey), if_neg (Nat.not_lt.mpr hwire)]
  simp only [if_neg (UInt64.lt_asymm hseq), if_pos hseq]
  exact ⟨_, rfl⟩

/-- At the expected number the nonce of that number decides. -/
theorem decryptWithDirection_expected (hkey : key.length = sessionKeySize)
    (hwire : wireOverhead ≤ wire.length) (hseq : wireSeq wire = e) :
    decryptWithDirection gcm key wire e d =
      match gcm.gcmOpen key (buildIV d e) (wire.drop sequenceSize) with
      | none => .error (.decryptError .auth "GCM authentication failed")
      | some plaintext => .ok (plaintext, e) := by
  rw [decryptWithDirection, if_neg (not_not_intro hkey), if_neg (Nat.not_lt.mpr hwire)]
  cases hopen : gcm.gcmOpen key (buildIV d e) (wire.drop sequenceSize) with
  | none => simp [hseq, hopen]
  | some plaintext => simp [hseq, hopen]

end Long

/-! ### Packets of the other side -/

variable {gcm}

/-- A packet is its number and the sealed plaintext, and never too short. -/
theorem encryptWithDirection_eq (hgcm : gcm.Correct) (hkey : key.length = sessionKeySize)
    (p : Bytes) (s : UInt64) (d : UInt8) :
    ∃ wire, encryptWithDirection gcm key p s d = .ok wire ∧ wireOverhead ≤ wire.length ∧
      wireSeq wire = s ∧ wire.drop sequenceSize = gcm.gcmSeal key (buildIV d s) p := by
  refine ⟨_, if_neg (not_not_intro hkey), ?_, wireSeq_append s _, ?_⟩
  · rw [List.length_append, Bytes.length_bigEndian,
      hgcm.length_seal p hkey (length_buildIV d s), wireOverhead, sequenceSize]
    omega
  · exact List.drop_left' (Bytes.length_bigEndian 8 s.toNat)

/-- What opens and what is refused, and by which check: at the expected number and in the right
direction a packet opens to its plaintext, a smaller number is a replay and a larger one a gap, and
only the direction is left to the tag.  A packet too short for a number and a tag is refused
whatever it holds.  A nonce stands for one direction and one number. -/
theorem decrypt_encryptWithDirection (hgcm : gcm.Correct) :
    (∀ (key p : Bytes) (s e : UInt64) (d d' : UInt8), key.length = sessionKeySize →
      ∃ wire, encryptWithDirection gcm key p s d = .ok wire ∧
        (s = e → d = d' → decryptWithDirection gcm key wire e d' = .ok (p, s)) ∧
        (FailsWith .replay (decryptWithDirection gcm key wire e d') ↔ s < e) ∧
        (FailsWith .sequenceGap (decryptWithDirection gcm key wire e d') ↔ e < s) ∧
        (s = e → d ≠ d' → FailsWith .auth (decryptWithDirection gcm key wire e d'))) ∧
    (∀ key wire : Bytes, key.length = sessionKeySize → wire.length < wireOverhead →
      ∃ message, ∀ (gcm' : Gcm) (e : UInt64) (d' : UInt8),
        decryptWithDirection gcm' key wire e d' = .error (.decryptError .format message)) ∧
    ∀ (d d' : UInt8) (s s' : UInt64), buildIV d s = buildIV d' s' → d = d' ∧ s = s' := by
  refine ⟨fun key p s e d d' hkey => ?_, fun key wire hkey hwire => ?_, fun _ _ _ _ => buildIV_inj⟩
  · obtain ⟨wire, hwire, hlen, hseq, hdrop⟩ := encryptWithDirection_eq hgcm hkey p s d
    have hopens : s = e → d = d' → decryptWithDirection gcm key wire e d' = .ok (p, s) := by
      rintro rfl rfl
      rw [decryptWithDirection_expected gcm d hkey hlen hseq, hdrop,
        hgcm.open_seal p hkey (length_buildIV d s)]
    have hauth : s = e → d ≠ d' → FailsWith .auth (decryptWithDirection gcm key wire e d') := by
      rintro rfl hd
      have hiv : buildIV d s ≠ buildIV d' s := fun h => hd (buildIV_inj h).1
      rw [decryptWithDirection_expected gcm d' hkey hlen hseq, hdrop,
        hgcm.open_other p hkey (length_buildIV d s) (length_buildIV d' s) hiv]
      exact ⟨_, rfl⟩
    have hreplay : s < e → FailsWith .replay (decryptWithDirection gcm key wire e d') :=
      fun h => decryptWithDirection_replay gcm d' hkey hlen (hseq.symm ▸ h)
    have hgap : e < s → FailsWith .sequenceGap (decryptWithDirection gcm key wire e d') :=
      fun h => decryptWithDirection_gap gcm d' hkey hlen (hseq.symm ▸ h)
    -- at the expected number the packet opens or its tag fails
    have hne {kind : DecryptErrorKind} (hk : kind ≠ .auth)
        (hf : FailsWith kind (decryptWithDirection gcm key wire e d')) : s ≠ e := by
      intro h
      by_cases hd : d = d'
      · obtain ⟨message, hf⟩ := hf
        rw [hopens h hd] at hf
        contradiction
      · exact hk (hf.unique (hauth h hd))
    refine ⟨wire, hwire, hopens, ⟨fun hf => ?_, hreplay⟩, ⟨fun hf => ?_, hgap⟩, hauth⟩
    · rcases UInt64.lt_or_lt_of_ne (hne (by decide) hf) with h | h
      · exact h
      · exact absurd (hf.unique (hgap h)) (by decide)
    · rcases UInt64.lt_or_lt_of_ne (hne (by decide) hf) with h | h
      · exact absurd (hf.unique (hreplay h)) (by decide)
      · exact h
  · exact ⟨_, fun gcm' e d' => decryptWithDirection_short gcm' hkey hwire e d'⟩

/-- A cipher that puts the nonce and four more bytes after the plaintext. -/
def taggingGcm : Gcm where
  gcmSeal _ iv plaintext := plaintext ++ iv ++ [0, 0, 0, 0]
  gcmOpen _ iv sealed :=
    let plaintext := sealed.take (sealed.length - authTagSize)
    if sealed = plaintext ++ iv ++ [0, 0, 0, 0] then some plaintext else none

theorem taggingGcm_correct : taggingGcm.Correct := by
  have hlen {iv p : Bytes} (hiv : iv.length = ivSize) :
      (taggingGcm.gcmSeal [] iv p).length = p.length + authTagSize := by
    simp [taggingGcm, hiv, ivSize, authTagSize]
  have htake {iv p : Bytes} (hiv : iv.length = ivSize) :
      (p ++ iv ++ [0, 0, 0, 0]).take ((p ++ iv ++ [0, 0, 0, 0]).length - authTagSize) = p := by
    have h : (p ++ iv ++ [0, 0, 0, 0] : Bytes).length - authTagSize = p.length := by
      rw [show (p ++ iv ++ [0, 0, 0, 0] : Bytes).length = p.length + authTagSize from hlen hiv]
      omega
    rw [h, List.append_assoc, List.take_left]
  refine ⟨fun p _ hiv => hlen hiv, fun p _ hiv => ?_, fun p _ hiv _ hne => ?_⟩
  · simp only [taggingGcm, htake hiv, if_true]
  · simp only [taggingGcm, htake hiv, List.append_left_inj, List.append_right_inj]
    exact if_neg hne

theorem decrypt_encryptWithDirection_tagging :
    ∃ wire, encryptWithDirection taggingGcm (List.replicate 32 7) [1, 2] 3 directionHostToDevice =
        .ok wire ∧
      decryptWithDirection taggingGcm (List.replicate 32 7) wire 3 directionHostToDevice =
        .ok ([1, 2], 3) := by
  obtain ⟨wire, hwire, hopens, -⟩ := (decrypt_encryptWithDirection taggingGcm_correct).1
    (List.replicate 32 7) [1, 2] 3 3 directionHostToDevice directionHostToDevice rfl
  exact ⟨wire, hwire, hopens rfl rfl⟩

end SmartIdVault.NativeHost
