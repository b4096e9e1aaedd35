import Mathlib.Data.List.DropRight
import SmartIdVault.Lib.Sha256
import SmartIdVault.Signaling.Values

/-! The commitment is accepted for the key, the nonce and the SAS code it was made of, and for no
others.  The three are hashed one after another without separators; read from the right, the code
comes off in one way only, since no UTF-8 character ends in another one and a code is six digits or
three emoji, and the nonce has a fixed length. -/

namespace SmartIdVault.Signaling

/-- `toBase64Url` of `lib/channel/qrCode.ts`: `btoa`, two replacements, and the padding cut off. -/
def toBase64Url (data : Bytes) : List Char :=
  let text := Base64.encode data
  let text := text.map fun c => if c = '+' then '-' else c
  let text := text.map fun c => if c = '/' then '_' else c
  text.rdropWhile (· = '=')

theorem rdropWhile_append_replicate {text : List Char} (h : '=' ∉ text) (k : Nat) :
    (text ++ List.replicate k '=').rdropWhile (· = '=') = text := by
  induction k with
  | zero =>
    rw [List.replicate_zero, List.append_nil, List.rdropWhile_eq_self_iff]
    intro hne heq
    rw [decide_eq_true_eq] at heq
    exact h (heq ▸ List.getLast_mem hne)
  | succ k ih =>
    rw [List.replicate_succ', ← List.append_assoc, List.rdropWhile_concat_pos _ _ _ (by decide), ih]

/-- It is what Node's `base64url` gives. -/
theorem toBase64Url_eq (data : Bytes) : toBase64Url data = Base64.encodeUrl data := by
  have hurl : (fun c : Char => if c = '/' then '_' else c) ∘
      (fun c => if c = '+' then '-' else c) = Base64.urlChar := by
    funext c
    simp only [Function.comp, Base64.urlChar]
    by_cases hc : c = '+'
    · subst hc; rfl
    · simp [hc]
  have hpad : '=' ∉ Base64.encodeUrl data := by
    rw [Base64.encodeUrl, List.mem_map]
    rintro ⟨c, hc, heq⟩
    rw [List.mem_filter, decide_eq_true_eq] at hc
    obtain ⟨n, hn, rfl⟩ := (Base64.mem_encode data c hc.1).resolve_left hc.2
    have hne : ∀ n < 64, Base64.urlChar (Base64.charOf n) ≠ '=' := by decide
    exact hne n hn heq
  have hsplit := congrArg (List.map Base64.urlChar) (Base64.pad_filter_encode data)
  rw [Base64.pad, List.map_append, List.map_replicate, ← Base64.encodeUrl] at hsplit
  rw [toBase64Url]
  simp only [List.map_map, hurl, ← hsplit]
  exact rdropWhile_append_replicate hpad _

theorem computeCommitment_eq (sha256 : Bytes → Bytes) (extensionStaticKey nonce : Bytes)
    (sasCode : Utf16) : computeCommitment sha256 extensionStaticKey nonce sasCode =
      Utf16.ofChars
        (toBase64Url (sha256 (extensionStaticKey ++ nonce ++ Utf8.textEncode sasCode))) := by
  rw [toBase64Url_eq, computeCommitment]

/-! ### SAS codes read from the right -/

/-- Six characters of one byte, or three of more. -/
def SasChars (cs : List Char) : Prop :=
  (cs.length = 6 ∧ ∀ c ∈ cs, c.toNat < 0x80) ∨ (cs.length = 3 ∧ ∀ c ∈ cs, 0x80 ≤ c.toNat)

theorem exists_of_isSasNumeric {text : Utf16} (h : isSasNumeric text = true) :
    ∃ cs, text = Utf16.ofChars cs ∧ SasChars cs := by
  rw [isSasNumeric, Bool.and_eq_true, decide_eq_true_eq, List.all_eq_true] at h
  obtain ⟨hlen, hall⟩ := h
  have hdigit : ∀ u ∈ text, u.toNat < 0x80 := by
    intro u hu
    have hu := hall u hu
    simp only [Bool.and_eq_true, decide_eq_true_eq, UInt16.le_iff_toNat_le] at hu
    have h39 : (0x39 : UInt16).toNat = 0x39 := rfl
    omega
  have hchar : ∀ u ∈ text, (Char.ofNat u.toNat).toNat = u.toNat := by
    intro u hu
    have := hdigit u hu
    exact Utf16.toNat_ofNat (.inl (by omega))
  refine ⟨text.map fun u => Char.ofNat u.toNat, ?_, .inl ⟨by simpa using hlen, ?_⟩⟩
  · rw [Utf16.ofChars, List.flatMap_map]
    have hunits : ∀ u ∈ text, Utf16.units (Char.ofNat u.toNat) = [u] := by
      intro u hu
      have := hdigit u hu
      rw [Utf16.units, hchar u hu, if_pos (by omega), UInt16.ofNat_toNat]
    rw [List.flatMap_congr hunits, List.flatMap_singleton']
  · simp only [List.forall_mem_map]
    intro u hu
    rw [hchar u hu]
    exact hdigit u hu

theorem exists_of_isSasEmoji {text : Utf16} (h : isSasEmoji text = true) :
    ∃ cs, text = Utf16.ofChars cs ∧ SasChars cs := by
  simp only [isSasEmoji, Bool.and_eq_true, decide_eq_true_eq, List.all_map, List.all_eq_true,
    List.length_map, Function.comp, Bool.or_eq_true] at h
  obtain ⟨hlen, hall⟩ := h
  refine ⟨text.chars Utf8.replacement, ?_, .inr ⟨hlen, ?_⟩⟩
  · rw [Utf16.ofChars_chars]
    intro hmem
    have := hall _ hmem
    revert this
    decide
  · intro c hc
    have := hall c hc
    omega

theorem exists_of_isValidSasCode {text : Utf16} (h : isValidSasCode text = true) :
    ∃ cs, text = Utf16.ofChars cs ∧ SasChars cs := by
  rcases (Bool.or_eq_true _ _).mp h with h | h
  · exact exists_of_isSasNumeric h
  · exact exists_of_isSasEmoji h

theorem SasChars.exists_concat {cs : List Char} (h : SasChars cs) :
    ∃ ds c, cs = ds ++ [c] := by
  rcases List.eq_nil_or_concat' cs with rfl | hconcat
  · rcases h with ⟨hlen, -⟩ | ⟨hlen, -⟩
    · cases hlen
    · cases hlen
  · exact hconcat

/-- The last character tells which of the two a code is. -/
theorem SasChars.length_eq {a b : Bytes} {cs ds : List Char} (hc : SasChars cs) (hd : SasChars ds)
    (h : a ++ Utf8.encode cs = b ++ Utf8.encode ds) : cs.length = ds.length := by
  obtain ⟨cs, c, rfl⟩ := hc.exists_concat
  obtain ⟨ds, d, rfl⟩ := hd.exists_concat
  rw [Utf8.encode_append_singleton, Utf8.encode_append_singleton, ← List.append_assoc,
    ← List.append_assoc] at h
  obtain ⟨-, rfl⟩ := Utf8.append_utf8EncodeChar_inj h
  rcases hc with ⟨hc, hsmall⟩ | ⟨hc, hlarge⟩
  · rcases hd with ⟨hd, -⟩ | ⟨-, hlarge⟩
    · exact hc.trans hd.symm
    · have h1 := hsmall c (by simp)
      have h2 := hlarge c (by simp)
      omega
  · rcases hd with ⟨-, hsmall⟩ | ⟨hd, -⟩
    · have h1 := hsmall c (by simp)
      have h2 := hlarge c (by simp)
      omega
    · exact hc.trans hd.symm

theorem append_sas_inj {a b : Bytes} {sas sas' : Utf16} (hs : isValidSasCode sas = true)
    (hs' : isValidSasCode sas' = true)
    (h : a ++ Utf8.textEncode sas = b ++ Utf8.textEncode sas') : a = b ∧ sas = sas' := by
  obtain ⟨cs, rfl, hcs⟩ := exists_of_isValidSasCode hs
  obtain ⟨ds, rfl, hds⟩ := exists_of_isValidSasCode hs'
  rw [Utf8.textEncode_ofChars, Utf8.textEncode_ofChars] at h
  obtain ⟨hab, hcd⟩ := Utf8.append_encode_inj (hcs.length_eq hds h) h
  exact ⟨hab, congrArg Utf16.ofChars hcd⟩

/-! ### The check on the server -/

/-- The arrays of the metadata hold the bytes of the key and the nonce. -/
structure Metadata.Holds (m : Metadata) (key nonce : Bytes) (sas : Utf16) : Prop where
  key : m.extensionStaticKey.arrayBytes = some key
  nonce : m.nonce.arrayBytes = some nonce
  sas : m.sasCode = .str sas

theorem holds_ofBytes (key nonce : Bytes) (sas : Utf16) :
    Metadata.Holds ⟨.str sas, .ofBytes 0 nonce, .ofBytes 1 key⟩ key nonce sas where
  key := by simp [JsVal.ofBytes, JsVal.arrayBytes, Function.comp_def]
  nonce := by simp [JsVal.ofBytes, JsVal.arrayBytes, Function.comp_def]
  sas := rfl

theorem verifyCommitment_iff {sha256 : Bytes → Bytes} {m : Metadata} {key nonce : Bytes}
    {sas commitment : Utf16} (hm : m.Holds key nonce sas) :
    verifyCommitment sha256 m (.str commitment) = true ↔
      (commitment ≠ [] ∧ nonce.length = 32) ∧ Utf8.textEncode commitment =
        Utf8.encode (Base64.encodeUrl (sha256 (key ++ nonce ++ Utf8.textEncode sas))) := by
  unfold verifyCommitment
  simp only [hm.key, hm.nonce, hm.sas, JsVal.str, Utf8.textEncode_ofChars]
  split
  · rename_i h
    simp only [Bool.false_eq_true, false_iff, not_and]
    intro hne
    exact absurd h (by simpa using hne)
  · rename_i h
    rw [decide_eq_true_eq, and_iff_right (by simpa using h)]

/-- What is hashed. -/
def committed (key nonce : Bytes) (sas : Utf16) : Bytes := key ++ nonce ++ Utf8.textEncode sas

theorem committed_inj {key nonce key' nonce' : Bytes} {sas sas' : Utf16}
    (hlen : nonce.length = nonce'.length) (hs : isValidSasCode sas = true)
    (hs' : isValidSasCode sas' = true) (h : committed key nonce sas = committed key' nonce' sas') :
    key = key' ∧ nonce = nonce' ∧ sas = sas' := by
  obtain ⟨hfront, rfl⟩ := append_sas_inj hs hs' h
  obtain ⟨rfl, rfl⟩ := List.append_inj' hfront hlen
  exact ⟨rfl, rfl, rfl⟩

/-- The server accepts the commitment for what it was made of, and for nothing else, as long as
SHA-256 does not give the same for two such values.  How long the keys are does not matter. -/
theorem commitment_accepted_and_binding {sha256 : Bytes → Bytes}
    (hsha : ∀ data, (sha256 data).length = 32) {key nonce : Bytes} {sas : Utf16}
    (hnonce : nonce.length = 32) (hsas : isValidSasCode sas = true) :
    (∀ m : Metadata, m.Holds key nonce sas →
      verifyCommitment sha256 m (.str (computeCommitment sha256 key nonce sas)) = true) ∧
    ∀ (key' nonce' : Bytes) (sas' : Utf16) (m : Metadata), m.Holds key' nonce' sas' →
      nonce'.length = 32 → isValidSasCode sas' = true →
      (sha256 (committed key nonce sas) = sha256 (committed key' nonce' sas') →
        committed key nonce sas = committed key' nonce' sas') →
      verifyCommitment sha256 m (.str (computeCommitment sha256 key nonce sas)) = true →
      key = key' ∧ nonce = nonce' ∧ sas = sas' := by
  constructor
  · intro m hm
    rw [verifyCommitment_iff hm, computeCommitment, Utf8.textEncode_ofChars]
    refine ⟨⟨?_, hnonce⟩, rfl⟩
    intro hnil
    have htext := Utf16.chars_ofChars Utf8.replacement
      (Base64.encodeUrl (sha256 (key ++ nonce ++ Utf8.textEncode sas)))
    rw [hnil] at htext
    have hdigest : [] = sha256 (key ++ nonce ++ Utf8.textEncode sas) :=
      Base64.encodeUrl_inj htext
    have hlen := hsha (key ++ nonce ++ Utf8.textEncode sas)
    rw [← hdigest] at hlen
    cases hlen
  · intro key' nonce' sas' m hm hnonce' hsas' hsha' hv
    rw [verifyCommitment_iff hm, computeCommitment, Utf8.textEncode_ofChars] at hv
    have hdigest := Base64.encodeUrl_inj (Utf8.encode_inj hv.2)
    exact committed_inj (hnonce.trans hnonce'.symm) hsas hsas' (hsha' hdigest)

def emojiSas : Utf16 := utf16 "😀☀🎉"

def emojiMetadata : Metadata :=
  ⟨.str emojiSas, .ofBytes 0 (List.replicate 32 7), .ofBytes 1 (List.replicate 33 9)⟩

def numericMetadata : Metadata :=
  ⟨.str (utf16 "123456"), .ofBytes 0 (List.replicate 32 7), .ofBytes 1 (List.replicate 33 9)⟩

theorem emojiSas_accepted_and_binding :
    (verifyCommitment Sha256.sha256 emojiMetadata (.str (computeCommitment Sha256.sha256
      (List.replicate 33 9) (List.replicate 32 7) emojiSas)) = true) ∧
    verifyCommitment Sha256.sha256 numericMetadata (.str (computeCommitment Sha256.sha256
      (List.replicate 33 9) (List.replicate 32 7) emojiSas)) = false := by
  have h := @commitment_accepted_and_binding _ Sha256.length_sha256 (List.replicate 33 9)
    (List.replicate 32 7) emojiSas (by decide) (by decide +kernel)
  have hdigests : Sha256.sha256 (committed (List.replicate 33 9) (List.replicate 32 7) emojiSas) ≠
      Sha256.sha256 (committed (List.replicate 33 9) (List.replicate 32 7) (utf16 "123456")) := by
    decide +kernel
  refine ⟨h.1 _ (holds_ofBytes _ _ _), ?_⟩
  by_contra hv
  rw [Bool.not_eq_false] at hv
  obtain ⟨-, -, hsas⟩ := h.2 _ _ _ _ (holds_ofBytes _ _ _) (by decide) (by decide +kernel)
    (fun heq => absurd heq hdigests) hv
  revert hsas
  decide +kernel

end SmartIdVault.Signaling
