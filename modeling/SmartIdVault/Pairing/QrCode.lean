import SmartIdVault.Attestation.Header
import SmartIdVault.Challenge.Verifier
import SmartIdVault.Lib.JsonRoundTrip
import SmartIdVault.Signaling.Commitment

/-! The QR codes of `lib/channel/qrCode.ts`: the pairing URL with the SAS code, the nonce and the
commitment, and the payload with the offer and its candidates.  Both are read by hand-written
parsers, which give back what was written.  The base64url texts in them are the ones that
`lib/attestation/base64url.ts` and the phone's `ChallengeVerifier.java` write and read. -/

namespace SmartIdVault.Pairing.QrCode

open Utf16 (ofString)
open Signaling (toBase64Url)

/-! ### Pairing URLs -/

def sasLength : Nat := 6

def pairingScheme : Utf16 := ofString "smartid2-pair"

/-- What a pairing URL starts with. -/
def pairingStart : Utf16 := pairingScheme ++ ofString "://"

def buildPairingUrl (sasCode : Utf16) (nonce : Option Bytes) (commitment : Option Utf16) : Utf16 :=
  let url := pairingStart ++ sasCode
  match nonce, commitment with
  | some nonce, some commitment =>
    if commitment = [] then url
    else url ++ ofString "?nonce=" ++ Utf16.ofChars (toBase64Url nonce) ++
      ofString "&commitment=" ++ commitment
  | _, _ => url

def indexOf (s : Utf16) (u : UInt16) : Option Nat := s.findIdx? (· = u)

/-- `/^\d{6}$/`. -/
def isSixDigits (code : Utf16) : Bool := code.length = 6 && code.all Json.isDigit

/-- The code before the query of a URL without its start, if it is one. -/
def codeOf (rest : Utf16) : Option Utf16 :=
  let code := (indexOf rest 0x3f).elim rest rest.take
  if code.length ≠ sasLength || !isSixDigits code then none else some code

def extractSasCode (url : Utf16) : Option Utf16 :=
  if !pairingStart.isPrefixOf url then none
  else codeOf (url.drop pairingStart.length)

structure PairingUrl where
  sasCode : Utf16
  nonce : Option Utf16 := none
  commitment : Option Utf16 := none
  deriving DecidableEq, Repr

/-- A part of the query, which sets the nonce, the commitment or neither. -/
def parsePart (parsed : PairingUrl) (part : Utf16) : PairingUrl :=
  match indexOf part 0x3d with
  | none => parsed
  | some eqIndex =>
    let key := part.take eqIndex
    let value := part.drop (eqIndex + 1)
    if key = ofString "nonce" then { parsed with nonce := some value }
    else if key = ofString "commitment" then { parsed with commitment := some value }
    else parsed

def parsePairingUrl (url : Utf16) : Option PairingUrl :=
  if !pairingStart.isPrefixOf url then none
  else
    let rest := url.drop pairingStart.length
    (codeOf rest).map fun sasCode =>
      match indexOf rest 0x3f with
      | none => { sasCode }
      | some queryIndex => ((rest.drop (queryIndex + 1)).splitOn 0x26).foldl parsePart { sasCode }

/-- The first unit of its kind. -/
theorem indexOf_append {s t : Utf16} {u : UInt16} (h : u ∉ s) :
    indexOf (s ++ u :: t) u = some s.length := by
  rw [indexOf, List.findIdx?_append]
  have hnone : s.findIdx? (· = u) = none := by
    rw [List.findIdx?_eq_none_iff]
    intro v hv
    exact decide_eq_false fun heq => h (heq ▸ hv)
  simp [hnone, List.findIdx?_cons]

theorem sasCode_parsePart (parsed : PairingUrl) (part : Utf16) :
    (parsePart parsed part).sasCode = parsed.sasCode := by
  unfold parsePart
  split
  · rfl
  · simp only
    split
    · rfl
    · split <;> rfl

theorem sasCode_foldl_parsePart (parts : List Utf16) (parsed : PairingUrl) :
    (parts.foldl parsePart parsed).sasCode = parsed.sasCode := by
  induction parts generalizing parsed with
  | nil => rfl
  | cons part parts ih => rw [List.foldl_cons, ih, sasCode_parsePart]

/-- The two readers of the SAS code agree on every URL. -/
theorem extractSasCode_eq (url : Utf16) :
    extractSasCode url = (parsePairingUrl url).map (·.sasCode) := by
  rw [extractSasCode, parsePairingUrl]
  split
  · rfl
  · rw [Option.map_map]
    have hcode (sasCode : Utf16) : (match indexOf (url.drop pairingStart.length) 0x3f with
        | none => ({ sasCode } : PairingUrl)
        | some queryIndex => (((url.drop pairingStart.length).drop (queryIndex + 1)).splitOn
            0x26).foldl parsePart { sasCode }).sasCode = sasCode := by
      split
      · rfl
      · exact sasCode_foldl_parsePart _ _
    simp only [Function.comp_def, hcode, Option.map_id']

/-! ### base64url -/

def isUrlSafe (u : UInt16) : Prop :=
  0x41 ≤ u ∧ u ≤ 0x5a ∨ 0x61 ≤ u ∧ u ≤ 0x7a ∨ 0x30 ≤ u ∧ u ≤ 0x39 ∨ u = 0x2d ∨ u = 0x5f

instance (u : UInt16) : Decidable (isUrlSafe u) :=
  inferInstanceAs (Decidable (_ ∨ _ ∨ _ ∨ _ ∨ _))

theorem isUrlSafe_of_mem (data : Bytes) :
    ∀ u ∈ Attestation.base64urlEncode data, isUrlSafe u := by
  have halphabet : ∀ n < 64, ∀ u ∈ Utf16.units (Base64.urlChar (Base64.charOf n)), isUrlSafe u := by
    decide
  intro u hu
  obtain ⟨d, hd, hunit⟩ := List.mem_flatMap.mp hu
  obtain ⟨c, hc, rfl⟩ := List.mem_map.mp hd
  obtain ⟨hc, hpad⟩ := List.mem_filter.mp hc
  obtain rfl | ⟨n, hn, rfl⟩ := Base64.mem_encode data c hc
  · simp at hpad
  · exact halphabet n hn u hunit

theorem ofChars_toBase64Url (data : Bytes) :
    Utf16.ofChars (toBase64Url data) = Attestation.base64urlEncode data := by
  rw [Signaling.toBase64Url_eq, Attestation.base64urlEncode]

/-- What `base64urlEncode` writes, `base64urlDecode` and the phone read back, and `toBase64Url`
writes the same; no other characters stand in it than those of the alphabet. -/
theorem base64url_codecs_agree (data : Bytes) :
    Attestation.base64urlDecode (Attestation.base64urlEncode data) = some data ∧
    (∀ u ∈ Attestation.base64urlEncode data, isUrlSafe u) ∧
    Utf16.ofChars (toBase64Url data) = Attestation.base64urlEncode data ∧
    Challenge.ChallengeVerifier.base64UrlDecode
      ((Attestation.base64urlEncode data).chars Utf8.replacement) = .ok data := by
  refine ⟨?_, isUrlSafe_of_mem data, ofChars_toBase64Url data, ?_⟩
  · rw [Attestation.base64urlDecode, Attestation.base64urlEncode, Utf16.chars_ofChars,
      Base64.map_standardChar_encodeUrl, Base64.pad_filter_encode, Base64.atob_encode]
  · rw [Challenge.ChallengeVerifier.base64UrlDecode, Attestation.base64urlEncode,
      Utf16.chars_ofChars, Base64.decode_pad_encodeUrl]

/-! ### What a pairing URL is read as -/

theorem not_mem_of_not_urlSafe {u : UInt16} (h : ¬isUrlSafe u) (data : Bytes) :
    u ∉ Utf16.ofChars (toBase64Url data) := by
  rw [ofChars_toBase64Url]
  exact fun hu => h (isUrlSafe_of_mem data u hu)

theorem parsePart_append {parsed : PairingUrl} (key : Utf16) {value : Utf16} (h : 0x3d ∉ key) :
    parsePart parsed (key ++ 0x3d :: value) =
      if key = ofString "nonce" then { parsed with nonce := some value }
      else if key = ofString "commitment" then { parsed with commitment := some value }
      else parsed := by
  have hdrop : (key ++ 0x3d :: value).drop (key.length + 1) = value := by
    rw [← List.drop_drop, List.drop_left]
    rfl
  rw [parsePart, indexOf_append h]
  simp only [List.take_left, hdrop]

theorem codeOf_append {sas query : Utf16} (hlen : sas.length = 6)
    (hdigits : ∀ u ∈ sas, Json.isDigit u = true) : codeOf (sas ++ 0x3f :: query) = some sas := by
  have hnot : (0x3f : UInt16) ∉ sas := fun hu => absurd (hdigits _ hu) (by decide)
  have hall : sas.all Json.isDigit = true := List.all_eq_true.mpr hdigits
  rw [codeOf, indexOf_append hnot]
  simp [isSixDigits, sasLength, hlen, hall]

theorem splitOn_query {nonce commitment : Utf16} (hnonce : 0x26 ∉ nonce)
    (hcommitment : 0x26 ∉ commitment) :
    (ofString "nonce=" ++ nonce ++ ofString "&commitment=" ++ commitment).splitOn 0x26 =
      [ofString "nonce" ++ 0x3d :: nonce, ofString "commitment" ++ 0x3d :: commitment] := by
  have hname : ofString "nonce=" = ofString "nonce" ++ [0x3d] := by decide
  have hamp : ofString "&commitment=" = 0x26 :: ofString "commitment" ++ [0x3d] := by decide
  have hparts : ∀ part ∈ [ofString "nonce" ++ 0x3d :: nonce, ofString "commitment" ++ 0x3d ::
      commitment], (0x26 : UInt16) ∉ part := by
    have hn : (0x26 : UInt16) ∉ ofString "nonce" := by decide
    have hc : (0x26 : UInt16) ∉ ofString "commitment" := by decide
    simp [hn, hc, hnonce, hcommitment]
  rw [← List.splitOn_intercalate 0x26 hparts (by simp), hname, hamp]
  simp

theorem parse_build {sas : Utf16} (hlen : sas.length = 6)
    (hdigits : ∀ u ∈ sas, Json.isDigit u = true) (nonce : Bytes) {commitment : Utf16}
    (hne : commitment ≠ []) (hamp : 0x26 ∉ commitment) :
    parsePairingUrl (buildPairingUrl sas (some nonce) (some commitment)) = some {
      sasCode := sas
      nonce := some (Utf16.ofChars (toBase64Url nonce))
      commitment := some commitment } := by
  have hquestion : ofString "?nonce=" = 0x3f :: ofString "nonce=" := by decide
  have hnot : (0x3f : UInt16) ∉ sas := fun hu => absurd (hdigits _ hu) (by decide)
  have hurl : buildPairingUrl sas (some nonce) (some commitment) =
      pairingStart ++ (sas ++ 0x3f :: (ofString "nonce=" ++ Utf16.ofChars (toBase64Url nonce) ++
        ofString "&commitment=" ++ commitment)) := by
    rw [buildPairingUrl, hquestion]
    simp [hne]
  have hstart (rest : Utf16) : pairingStart.isPrefixOf (pairingStart ++ rest) = true :=
    List.isPrefixOf_iff_prefix.mpr (List.prefix_append _ _)
  have hdrop (query : Utf16) : (sas ++ 0x3f :: query).drop (sas.length + 1) = query := by
    rw [← List.drop_drop, List.drop_left]
    rfl
  rw [hurl, parsePairingUrl, hstart, List.drop_left]
  simp only [Bool.not_true, Bool.false_eq_true, if_false, codeOf_append hlen hdigits,
    indexOf_append hnot, Option.map_some, hdrop]
  rw [splitOn_query (not_mem_of_not_urlSafe (by decide) nonce) hamp]
  have hcommitment : ofString "commitment" ≠ ofString "nonce" := by decide
  simp only [List.foldl_cons, List.foldl_nil, parsePart_append (ofString "nonce") (by decide),
    parsePart_append (ofString "commitment") (by decide), if_true, if_neg hcommitment]

/-! ### Pairing payloads -/

def compressSdp (sdp : Utf16) : Utf16 := Utf16.ofChars (Base64.encode (Utf8.textEncode sdp))

/-- The first eight fields. -/
def candidateToShort (candidate : Utf16) : Utf16 :=
  let parts := candidate.splitOn 0x20
  if 8 ≤ parts.length then [0x20].intercalate (parts.take 8) else candidate

def payloadFields (sasCode : Utf16) (sdpOffer : Option Utf16)
    (iceCandidates : Option (List Utf16)) : List (Utf16 × Json) :=
  [(ofString "v", .num (.ofNat 2)), (ofString "c", .str sasCode)] ++
    ((sdpOffer.filter (· ≠ [])).map fun sdp => (ofString "s", Json.str (compressSdp sdp))).toList ++
    ((iceCandidates.filter (· ≠ [])).map fun candidates =>
      (ofString "i", Json.arr (candidates.map fun c => .str (candidateToShort c)))).toList

def encodePairingPayload (sasCode : Utf16) (sdpOffer : Option Utf16)
    (iceCandidates : Option (List Utf16)) : Utf16 :=
  Json.stringify (.obj (payloadFields sasCode sdpOffer iceCandidates))

def isNull : Json → Bool
  | .null => true
  | _ => false

def truthy : Json → Bool
  | .null => false
  | .bool b => b
  | .num n => n ≠ .zero
  | .str s => s ≠ []
  | .arr _ | .obj _ => true

mutual

/-- The string that `atob` makes of its argument, or `none` where that throws: an object with a
property `toString` of its own cannot be made one. -/
def toText : Json → Option Utf16
  | .null => some (ofString "null")
  | .bool b => some (ofString (if b then "true" else "false"))
  | .num n => some (Utf16.ofChars n.text)
  | .str s => some s
  | .arr items => joinText items
  | .obj fields =>
    if (fields.lookup (ofString "toString")).isSome then none else some (ofString "[object Object]")

def joinText : List Json → Option Utf16
  | [] => some []
  | [v] => if isNull v then some [] else toText v
  | v :: w :: rest => do
    let text ← if isNull v then some [] else toText v
    let others ← joinText (w :: rest)
    return text ++ 0x2c :: others

end

structure PairingPayload where
  sasCode : Json
  sdpOffer : Option Utf16
  iceCandidates : Option Json

/-- The SDP of a field `s`, or `none` where `atob` throws. -/
def decodeSdp (s : Json) : Option Utf16 := do
  let text ← toText s
  let bytes ← Base64.atob (text.chars Utf8.replacement)
  return Utf8.textDecode bytes

def decodeOffer (s : Option Json) : Option (Option Utf16) :=
  match s.filter truthy with
  | none => some none
  | some s => (decodeSdp s).map some

/-- Whether a field is the number two. -/
def isTwo : Option Json → Bool
  | some (.num n) => n = .ofNat 2
  | _ => false

def decodePairingPayload (payload : Utf16) : Option PairingPayload := do
  let parsed ← Json.parse payload
  let sasCode ← (parsed.field (ofString "c")).filter truthy
  if !isTwo (parsed.field (ofString "v")) then none
  let sdpOffer ← decodeOffer (parsed.field (ofString "s"))
  return { sasCode, sdpOffer, iceCandidates := (parsed.field (ofString "i")).filter (!isNull ·) }

/-- A candidate's first eight fields, of those that spaces separate. -/
theorem candidateToShort_eq (candidate : Utf16) :
    candidateToShort candidate = [0x20].intercalate ((candidate.splitOn 0x20).take 8) := by
  rw [candidateToShort]
  split
  · rfl
  · rw [List.take_of_length_le (by omega)]
    exact (List.intercalate_splitOn 0x20).symm

theorem decodeSdp_compressSdp {sdp : Utf16} (hwell : sdp.WellFormed)
    (hmark : sdp.head? ≠ some 0xFEFF) : decodeSdp (.str (compressSdp sdp)) = some sdp := by
  rw [decodeSdp, toText, compressSdp]
  simp only [Option.bind_eq_bind, Option.bind_some, Utf16.chars_ofChars, Base64.atob_encode,
    Option.pure_def, Option.some.injEq]
  exact (Utf8.textDecode_textEncode_iff sdp).mpr ⟨hwell, hmark⟩

theorem compressSdp_ne_nil {sdp : Utf16} (hwell : sdp.WellFormed) (hne : sdp ≠ []) :
    compressSdp sdp ≠ [] := by
  intro h
  have hdecode := congrArg (fun s => Base64.atob (Utf16.chars Utf8.replacement s)) h
  simp only [compressSdp, Utf16.chars_ofChars, Base64.atob_encode] at hdecode
  obtain ⟨cs, rfl⟩ := hwell
  rw [Utf8.textEncode_ofChars] at hdecode
  have hnil : Utf8.encode cs = Utf8.encode [] := Option.some.inj hdecode
  exact hne (by rw [Utf8.encode_inj hnil]; rfl)

/-- The fields are in the order in which they are listed. -/
theorem proper_payload (sasCode : Utf16) (sdpOffer : Option Utf16)
    (iceCandidates : Option (List Utf16)) :
    (Json.obj (payloadFields sasCode sdpOffer iceCandidates)).Proper := by
  have hkeys : ∀ ks : List Utf16,
      ks.Sublist [ofString "v", ofString "c", ofString "s", ofString "i"] →
      ks.Pairwise fun k l => k ≠ l ∧ Json.before l k = false := by
    have hall : [ofString "v", ofString "c", ofString "s", ofString "i"].Pairwise
        fun k l => k ≠ l ∧ Json.before l k = false := by decide +kernel
    exact fun ks hks => hall.sublist hks
  have hitems (cs : List Utf16) :
      Json.Proper (.arr (cs.map fun c => .str (candidateToShort c))) := by
    refine Json.properItems_iff.mpr fun v hv => ?_
    obtain ⟨c, -, rfl⟩ := List.mem_map.mp hv
    trivial
  unfold payloadFields
  refine ⟨Properties.inOrder_iff.mpr ?_, Json.properFields_iff.mpr ?_⟩
  · apply hkeys
    cases sdpOffer.filter (· ≠ []) with
    | none => cases iceCandidates.filter (· ≠ []) <;> simp [Properties.keys]
    | some sdp => cases iceCandidates.filter (· ≠ []) <;> simp [Properties.keys]
  · intro f hf
    simp only [List.mem_append, List.mem_cons, Option.mem_toList,
      Option.map_eq_some_iff, List.not_mem_nil, or_false] at hf
    rcases hf with ((rfl | rfl) | ⟨sdp, -, rfl⟩) | ⟨cs, -, rfl⟩
    · trivial
    · trivial
    · trivial
    · exact hitems cs

section Payload

variable (sasCode : Utf16) (sdpOffer : Option Utf16) (iceCandidates : Option (List Utf16))

theorem lookup_v : (payloadFields sasCode sdpOffer iceCandidates).lookup (ofString "v") =
    some (.num (.ofNat 2)) := by
  simp only [payloadFields, List.cons_append, List.lookup_cons, beq_self_eq_true]

theorem lookup_c : (payloadFields sasCode sdpOffer iceCandidates).lookup (ofString "c") =
    some (.str sasCode) := by
  have hv : (ofString "c" == ofString "v") = false := by decide
  simp only [payloadFields, List.cons_append, List.lookup_cons, hv, beq_self_eq_true]

theorem lookup_s : (payloadFields sasCode sdpOffer iceCandidates).lookup (ofString "s") =
    (sdpOffer.filter (· ≠ [])).map fun sdp => Json.str (compressSdp sdp) := by
  have hv : (ofString "s" == ofString "v") = false := by decide
  have hc : (ofString "s" == ofString "c") = false := by decide
  have hi : (ofString "s" == ofString "i") = false := by decide
  simp only [payloadFields, List.cons_append, List.nil_append, List.lookup_cons, hv, hc]
  cases sdpOffer.filter (· ≠ []) with
  | some sdp => exact List.lookup_cons_self
  | none => cases iceCandidates.filter (· ≠ []) <;> simp [List.lookup_cons, hi]

theorem lookup_i : (payloadFields sasCode sdpOffer iceCandidates).lookup (ofString "i") =
    (iceCandidates.filter (· ≠ [])).map fun candidates =>
      Json.arr (candidates.map fun c => .str (candidateToShort c)) := by
  have hv : (ofString "i" == ofString "v") = false := by decide
  have hc : (ofString "i" == ofString "c") = false := by decide
  have hs : (ofString "i" == ofString "s") = false := by decide
  simp only [payloadFields, List.cons_append, List.nil_append, List.lookup_cons, hv, hc]
  cases sdpOffer.filter (· ≠ []) with
  | none => cases iceCandidates.filter (· ≠ []) <;> simp
  | some sdp => cases iceCandidates.filter (· ≠ []) <;> simp [List.lookup_cons, hs]

end Payload

theorem filter_of_ne_nil {α : Type} [DecidableEq α] {o : Option (List α)}
    (h : ∀ xs ∈ o, xs ≠ []) : o.filter (· ≠ []) = o := by
  cases o with
  | none => rfl
  | some xs => exact Option.filter_some_pos (decide_eq_true (h xs rfl))

/-- A payload is read as the SAS code, the offer and the candidates that it was made of, each
candidate cut to its first eight fields. -/
theorem decode_encode {sasCode : Utf16} (hsas : sasCode ≠ []) {sdpOffer : Option Utf16}
    (hsdp : ∀ sdp ∈ sdpOffer, sdp ≠ [] ∧ sdp.WellFormed ∧ sdp.head? ≠ some 0xFEFF)
    {iceCandidates : Option (List Utf16)} (hice : ∀ candidates ∈ iceCandidates, candidates ≠ []) :
    decodePairingPayload (encodePairingPayload sasCode sdpOffer iceCandidates) = some {
      sasCode := .str sasCode
      sdpOffer
      iceCandidates := iceCandidates.map fun candidates =>
        .arr (candidates.map fun c => .str ([0x20].intercalate ((c.splitOn 0x20).take 8))) } := by
  have hsdpOffer : sdpOffer.filter (· ≠ []) = sdpOffer :=
    filter_of_ne_nil fun sdp h => (hsdp sdp h).1
  have hcandidates : iceCandidates.filter (· ≠ []) = iceCandidates := filter_of_ne_nil hice
  rw [decodePairingPayload, encodePairingPayload, Json.parse_stringify (proper_payload _ _ _)]
  simp only [Option.bind_eq_bind, Option.bind_some, Json.field, lookup_v, lookup_c, lookup_s,
    lookup_i, hsdpOffer, hcandidates, isTwo, decide_true, Bool.not_true, Bool.false_eq_true,
    if_false, candidateToShort_eq]
  have hcode : (some (Json.str sasCode)).filter truthy = some (.str sasCode) :=
    Option.filter_some_pos (decide_eq_true hsas)
  have hoffer : decodeOffer (sdpOffer.map fun sdp => .str (compressSdp sdp)) = some sdpOffer := by
    cases sdpOffer with
    | none => rfl
    | some sdp =>
      obtain ⟨hne, hwell, hmark⟩ := hsdp sdp rfl
      have htruthy : truthy (.str (compressSdp sdp)) = true :=
        decide_eq_true (compressSdp_ne_nil hwell hne)
      rw [decodeOffer, Option.map_some, Option.filter_some_pos htruthy]
      simp only [decodeSdp_compressSdp hwell hmark, Option.map_some]
  rw [hcode, Option.bind_some, hoffer]
  cases iceCandidates with
  | none => rfl
  | some candidates => rfl

/-- Both codecs: a pairing URL with a code of six digits, a nonce and a commitment is read as these,
the two readers of the code agree on every string, and a payload is read as what it was made of. -/
theorem codecs_round_trip :
    (∀ (sas : Utf16) (nonce : Bytes) (commitment : Utf16), sas.length = 6 →
      (∀ u ∈ sas, Json.isDigit u = true) → commitment ≠ [] → 0x26 ∉ commitment →
      parsePairingUrl (buildPairingUrl sas (some nonce) (some commitment)) = some {
        sasCode := sas
        nonce := some (Attestation.base64urlEncode nonce)
        commitment := some commitment }) ∧
    (∀ url, extractSasCode url = (parsePairingUrl url).map (·.sasCode)) ∧
    ∀ (sas : Utf16) (sdp : Option Utf16) (candidates : Option (List Utf16)), sas ≠ [] →
      (∀ s ∈ sdp, s ≠ [] ∧ s.WellFormed ∧ s.head? ≠ some 0xFEFF) →
      (∀ cs ∈ candidates, cs ≠ []) →
      decodePairingPayload (encodePairingPayload sas sdp candidates) = some {
        sasCode := .str sas
        sdpOffer := sdp
        iceCandidates := candidates.map fun cs =>
          .arr (cs.map fun c => .str ([0x20].intercalate ((c.splitOn 0x20).take 8))) } := by
  refine ⟨?_, extractSasCode_eq, ?_⟩
  · intro sas nonce commitment hlen hdigits hne hamp
    rw [← ofChars_toBase64Url]
    exact parse_build hlen hdigits nonce hne hamp
  · intro sas sdp candidates hsas hsdp hcandidates
    exact decode_encode hsas hsdp hcandidates

theorem codecs_round_trip_sample :
    parsePairingUrl (ofString "smartid2-pair://012345?nonce=-_8&commitment=a=?b") = some {
      sasCode := ofString "012345"
      nonce := some (ofString "-_8")
      commitment := some (ofString "a=?b") } ∧
    decodePairingPayload (encodePairingPayload (ofString "012345") (some (ofString "v=0"))
      (some [ofString "1 1 udp 9 ::1 9 typ host generation 0"])) = some {
        sasCode := .str (ofString "012345")
        sdpOffer := some (ofString "v=0")
        iceCandidates := some (.arr [.str (ofString "1 1 udp 9 ::1 9 typ host")]) } := by
  constructor
  · have hnonce : Attestation.base64urlEncode [0xfb, 0xff] = ofString "-_8" := by decide
    rw [← hnonce]
    exact codecs_round_trip.1 (ofString "012345") [0xfb, 0xff] (ofString "a=?b") rfl (by decide)
      (by decide) (by decide)
  · have hshort : [0x20].intercalate
        (((ofString "1 1 udp 9 ::1 9 typ host generation 0").splitOn 0x20).take 8) =
          ofString "1 1 udp 9 ::1 9 typ host" := by decide
    have hsdp : ofString "v=0" ≠ [] ∧ (ofString "v=0").WellFormed ∧
        (ofString "v=0").head? ≠ some 0xFEFF := ⟨by decide, ⟨_, rfl⟩, by decide⟩
    rw [← hshort]
    exact codecs_round_trip.2.2 (ofString "012345") (some (ofString "v=0"))
      (some [ofString "1 1 udp 9 ::1 9 typ host generation 0"]) (by decide)
      (fun s hs => Option.some.inj hs ▸ hsdp) (fun cs hcs => Option.some.inj hcs ▸ by decide)

end SmartIdVault.Pairing.QrCode
