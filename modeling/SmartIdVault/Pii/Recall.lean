import SmartIdVault.Pii.Filter

/-! Which card numbers, IBANs and Estonian id codes `filterPii` leaves in a text.  A number of at
most fifteen digits is always replaced, as a phone number if nothing else takes it.  A longer card
number or an IBAN is in a match of its pattern, which may go on to digits around it: when the check
fails on the whole match, all of it is left.  What matches of the passes before have not replaced
stood in the text that is filtered, with the same units around it. -/

namespace SmartIdVault.Pii

open Utf16 (ofString)
open Redaction (Apart Ends Finds IsToken SparedAt TokenAt redact)
open Regex (Always Matches Plain Turns bounded cat isSpace isWord opt rep seq set wordBoundary)

/-! ### Accepted tokens -/

/-- A card number without separators. -/
def IsCardToken (t : Utf16) : Prop :=
  (∀ u ∈ t, isSeparator u = false) ∧ isValidCardNumber t = true

/-- An IBAN that starts with two letters and two digits. -/
def IsIbanToken (t : Utf16) : Prop :=
  isValidIban t = true ∧ ∃ a b c d rest, t = a :: b :: c :: d :: rest ∧
    isLetter a = true ∧ isLetter b = true ∧ Json.isDigit c = true ∧ Json.isDigit d = true

/-- An Estonian id code of eleven digits. -/
def IsIdCodeToken (t : Utf16) : Prop :=
  t.length = 11 ∧ (∀ u ∈ t, Json.isDigit u = true) ∧ isValidEstonianIdCode t = true

def Accepted (t : Utf16) : Prop := IsCardToken t ∨ IsIbanToken t ∨ IsIdCodeToken t

/-! ### What stands around a token -/

/-- A phone number, or two letters and the number of a passport. -/
def IsOtherNumber (v : Utf16) : Prop :=
  (∀ u ∈ v, Json.isDigit u = true) ∧ 6 ≤ v.length ∧ v.length ≤ 15 ∨
    ∃ a b number, v = a :: b :: number ∧ isLetter a = true ∧ isLetter b = true ∧
      (∀ u ∈ number, Json.isDigit u = true) ∧ 6 ≤ number.length ∧ number.length ≤ 8

/-- A word of the token is another number. -/
def HoldsOtherNumber (t : Utf16) : Prop :=
  ∃ a v b, t = a ++ v ++ b ∧ IsOtherNumber v ∧ a.getLast?.any isWord = false ∧
    b.head?.any isWord = false

/-- Each stretch of the text that has the token, is written as numbers of the kind are and stands
between word boundaries passes the check, unless a match for a password takes a part of it. -/
def ReadsValid (body : Regex UInt16) (valid : Utf16 → Bool) (text t : Utf16) : Prop :=
  ∀ before a b after, text = before ++ (a ++ t ++ b) ++ after →
    TokenAt isSpace (before ++ a) t (b ++ after) → Always body (a ++ t ++ b) →
    before.getLast?.any isWord = false → after.head?.any isWord = false →
    SparedAt passwordRe (isValid .password) text before (a ++ t ++ b) → valid (a ++ t ++ b) = true

/-- An IBAN that no match for a password takes is written in digits after its first four characters,
or holds another number; and with what stands around it the token is no number that is not valid. -/
structure Recognised (text t : Utf16) : Prop where
  iban_digits : IsIbanToken t → ∀ before after, text = before ++ t ++ after →
    TokenAt isSpace before t after → SparedAt passwordRe (isValid .password) text before t →
    (∀ u ∈ t.drop 4, Json.isDigit u = true) ∨ HoldsOtherNumber t
  iban_valid : IsIbanToken t → ReadsValid ibanBody isValidIban text t
  card_valid : IsCardToken t → 16 ≤ t.length → ReadsValid creditCardBody isValidCardNumber text t

/-! ### Tokens of words -/

theorem isWord_of_isSpace {u : UInt16} (h : isSpace u = true) : isWord u = false := by
  have hothers : ∀ v ∈ ([0x20, 0xA0, 0x1680, 0x2028, 0x2029, 0x202F, 0x205F, 0x3000, 0xFEFF] :
      Utf16), isWord v = false := by decide
  simp only [isSpace, Bool.or_eq_true, List.contains_iff_mem, or_assoc] at h
  rcases h with hcontrol | hwide | hmem
  · grind [isWord]
  · grind [isWord]
  · exact hothers u hmem

theorem isWord_of_isDigit {u : UInt16} (h : Json.isDigit u = true) : isWord u = true := by
  grind [Json.isDigit, isWord]

theorem isWord_of_isLetter {u : UInt16} (h : isLetter u = true) : isWord u = true := by
  grind [isLetter, isUpper, isLower, isWord]

theorem any_isWord_of_ends {o : Option UInt16} (h : Ends isSpace o) : o.any isWord = false := by
  cases o with
  | none => rfl
  | some u => exact isWord_of_isSpace (h u rfl)

theorem any_isWord_of_isDigit {o : Option UInt16} (h : o.any Json.isDigit = true) :
    o.any isWord = true := by
  cases o with
  | none => exact h
  | some u => exact isWord_of_isDigit h

theorem isWord_of_isSeparator {u : UInt16} (h : isSeparator u = true) : isWord u = false := by
  simp only [isSeparator, Bool.or_eq_true, decide_eq_true_eq] at h
  rcases h with hspace | rfl
  · exact isWord_of_isSpace hspace
  · decide

theorem notMem_redacted_of_isDigit {u : UInt16} (h : Json.isDigit u = true) :
    u ∉ redacted.text := by
  have hnone : ∀ v ∈ redacted.text, Json.isDigit v = false := by decide
  intro hmem
  rw [hnone u hmem] at h
  contradiction

section Words

variable {t v s a b : Utf16} {r : Regex UInt16} {valid : Utf16 → Bool}

/-- A pattern between word boundaries matches a word of its language. -/
theorem matches_bounded (hr : Always r v) (hne : v ≠ []) (hword : ∀ u ∈ v, isWord u = true)
    {before after : Option UInt16} (hbefore : before.any isWord = false)
    (hafter : after.any isWord = false) : Matches (bounded r) before v after := by
  apply hr.bounded
  · rw [List.head?_eq_some_head hne, Option.some_or, wordBoundary, hbefore]
    simp [hword _ (List.head_mem hne)]
  · rw [List.getLast?_eq_some_getLast hne, Option.some_or, wordBoundary, hafter]
    simp [hword _ (List.getLast_mem hne)]

/-- What is left of the tokens that such a pattern matches: those in matches that are not valid. -/
theorem left_of_bounded (hr : Always r t) (hword : ∀ u ∈ t, isWord u = true)
    (hlength : 0 < (bounded r).minLength)
    (h : IsToken isSpace t (redact redacted (bounded r) valid s)) :
    ∃ before a b after, Finds (bounded r) s before (a ++ t ++ b) after ∧
      TokenAt isSpace (before ++ a) t (b ++ after) ∧ valid (a ++ t ++ b) = false := by
  have hne : t ≠ [] := by
    obtain ⟨_, _, -, htoken⟩ := h
    exact htoken.ne_nil
  refine IsToken.not_valid (Regex.not_matches_nil hlength) ?_ ?_ ?_ h
  · intro before after hbefore hafter
    exact matches_bounded hr hne hword (any_isWord_of_ends hbefore) (any_isWord_of_ends hafter)
  · intro before m u v hm hlast hu hv
    have hend := Regex.bounded_ends hm
    rw [hlast, Option.some_or, wordBoundary, Option.any_some, Option.any_some, hword u hu,
      hword v hv] at hend
    simp at hend
  · intro hmem
    have hbracket := hword _ hmem
    revert hbracket
    decide

/-- Where all matches of such a pattern are replaced, no word of its language is left in a token. -/
theorem word_not_left (hr : Always r v) (hne : v ≠ []) (hword : ∀ u ∈ v, isWord u = true)
    (hlength : 0 < (bounded r).minLength) (ha : a.getLast?.any isWord = false)
    (hb : b.head?.any isWord = false) (hbracket : 0x5B ∉ a ++ v ++ b) :
    ¬IsToken isSpace (a ++ v ++ b) (redact redacted (bounded r) (fun _ => true) s) := by
  intro h
  obtain ⟨before, after, hbefore, hafter, hno⟩ :=
    IsToken.not_matches (Regex.not_matches_nil hlength) hbracket h
  have hor {o o' : Option UInt16} (ho : o.any isWord = false) (ho' : Ends isSpace o') :
      (o.or o').any isWord = false := by
    cases o with
    | none => exact any_isWord_of_ends ho'
    | some u => exact ho
  exact hno a v b rfl hne (matches_bounded hr hne hword (hor ha hbefore) (hor hb hafter))

end Words

/-! ### Patterns of digits -/

section Digits

variable {t : Utf16}

theorem always_digits (min : Nat) (max : Option Nat) (h : ∀ u ∈ t, Json.isDigit u = true)
    (hmin : min ≤ t.length) (hmax : ∀ k ∈ max, t.length ≤ k) : Always (digits min max) t :=
  Always.repeatedSet h hmin hmax

/-- The card pattern matches 13 to 19 digits. -/
theorem always_creditCard (h : ∀ u ∈ t, Json.isDigit u = true) (hmin : 13 ≤ t.length)
    (hmax : t.length ≤ 19) : Always creditCardBody t := by
  have hparts : Always creditCardBody (t.map fun u => [u]).flatten := by
    refine Always.repeated ?_ (by simpa using hmin) (by simpa using hmax)
    intro part hpart
    obtain ⟨u, hu, rfl⟩ := List.mem_map.mp hpart
    exact ⟨by simp, Always.cat (a := [u]) (b := []) (Always.set (h u hu)) Always.opt_nil⟩
  rwa [← List.flatMap_def, List.flatMap_singleton'] at hparts

theorem exists_split {a b : Nat} (h : t.length = a + b) :
    ∃ p q, t = p ++ q ∧ p.length = a ∧ q.length = b :=
  ⟨t.take a, t.drop a, (List.take_append_drop a t).symm, by rw [List.length_take]; omega,
    by rw [List.length_drop]; omega⟩

/-- Lengths of the country code and of the three groups of a phone number. -/
theorem exists_phone_lengths {n : Nat} (hmin : 6 ≤ n) (hmax : n ≤ 15) :
    ∃ g a b c, n = g + (a + (b + c)) ∧
      g ≤ 3 ∧ 2 ≤ a ∧ a ≤ 4 ∧ 2 ≤ b ∧ b ≤ 4 ∧ 2 ≤ c ∧ c ≤ 4 := by
  rcases Nat.lt_or_ge n 9 with hlt | hge
  · rcases Nat.lt_or_ge n 8 with hlt | hge
    · exact ⟨0, n - 4, 2, 2, by omega⟩
    · exact ⟨0, 4, 2, 2, by omega⟩
  · rcases Nat.lt_or_ge n 13 with hlt | hge
    · rcases Nat.lt_or_ge n 11 with hlt | hge
      · exact ⟨0, 4, n - 6, 2, by omega⟩
      · exact ⟨0, 4, 4, n - 8, by omega⟩
    · exact ⟨n - 12, 4, 4, 4, by omega⟩

/-- The phone pattern matches 6 to 15 digits. -/
theorem always_phone (h : ∀ u ∈ t, Json.isDigit u = true) (hmin : 6 ≤ t.length)
    (hmax : t.length ≤ 15) : Always phoneBody t := by
  obtain ⟨g, a, b, c, hsum, hg, ha, ha', hb, hb', hc, hc'⟩ := exists_phone_lengths hmin hmax
  obtain ⟨code, number, rfl, hcode, hnumber⟩ := exists_split hsum
  obtain ⟨first, others, rfl, hfirst, hothers⟩ := exists_split hnumber
  obtain ⟨second, third, rfl, hsecond, hthird⟩ := exists_split hothers
  simp only [List.forall_mem_append] at h
  obtain ⟨hcodeDigits, hfirstDigits, hsecondDigits, hthirdDigits⟩ := h
  have hopt : Always (opt (seq [opt (unitOf "+"), digits 1 (some 3), opt phoneSeparator]))
      code := by
    rcases eq_or_ne code [] with rfl | hne
    · exact Always.opt_nil
    · have hpos := List.length_pos_of_ne_nil hne
      have hseq := Always.seq_cons (r := opt (unitOf "+")) (a := []) Always.opt_nil <|
        Always.seq_cons (always_digits 1 (some 3) hcodeDigits hpos
          (by simp; omega)) <|
        Always.seq_cons (r := opt phoneSeparator) (a := []) Always.opt_nil Always.seq_nil
      exact Always.opt (by simpa using hseq) hne
  have hgroup {group : Utf16} (hdigits : ∀ u ∈ group, Json.isDigit u = true)
      (hmin : 2 ≤ group.length) (hmax : group.length ≤ 4) : Always (digits 2 (some 4)) group :=
    always_digits 2 (some 4) hdigits hmin (by simpa using hmax)
  have hseq := Always.seq_cons hopt <|
    Always.seq_cons (r := opt (unitOf "(")) (a := []) Always.opt_nil <|
    Always.seq_cons (hgroup hfirstDigits (by omega) (by omega)) <|
    Always.seq_cons (r := opt (unitOf ")")) (a := []) Always.opt_nil <|
    Always.seq_cons (r := opt phoneSeparator) (a := []) Always.opt_nil <|
    Always.seq_cons (hgroup hsecondDigits (by omega) (by omega)) <|
    Always.seq_cons (r := opt phoneSeparator) (a := []) Always.opt_nil <|
    Always.seq_cons (hgroup hthirdDigits (by omega) (by omega)) Always.seq_nil
  simpa [phoneBody] using hseq

/-- Groups of four digits. -/
theorem always_groups {k : Nat} (h : ∀ u ∈ t, Json.isDigit u = true) (hlength : t.length = 4 * k)
    (hmin : 2 ≤ k) (hmax : k ≤ 7) :
    Always (.rep (.cat (digits 4 (some 4)) (opt (.set isSpace))) 2 (some 7)) t := by
  have hparts : ∃ parts : List Utf16, parts.flatten = t ∧ parts.length = k ∧
      ∀ part ∈ parts, part.length = 4 := by
    clear hmin hmax h
    induction k generalizing t with
    | zero => exact ⟨[], (List.length_eq_zero_iff.mp hlength).symm, rfl, by simp⟩
    | succ k ih =>
      obtain ⟨part, rest, rfl, hpart, hrest⟩ := exists_split (t := t) (a := 4) (b := 4 * k)
        (by omega)
      obtain ⟨parts, rfl, hcount, hfour⟩ := ih hrest
      exact ⟨part :: parts, rfl, by rw [List.length_cons, hcount], by simpa using ⟨hpart, hfour⟩⟩
  obtain ⟨parts, rfl, hcount, hfour⟩ := hparts
  refine Always.repeated ?_ (by omega) (by simp; omega)
  intro part hpart
  have hdigits : ∀ u ∈ part, Json.isDigit u = true :=
    fun u hu => h u (List.mem_flatten_of_mem hpart hu)
  have hfourDigits := always_digits 4 (some 4) hdigits (by rw [hfour part hpart])
    (by simp [hfour part hpart])
  refine ⟨List.ne_nil_of_length_pos (by rw [hfour part hpart]; omega), ?_⟩
  simpa using Always.cat (b := []) hfourDigits (Always.opt_nil (r := .set isSpace))

/-- The IBAN pattern matches two letters, two digits and 9 to 32 digits. -/
theorem always_iban {a b c d : UInt16} {rest : Utf16} (ha : isLetter a = true)
    (hb : isLetter b = true) (hc : Json.isDigit c = true) (hd : Json.isDigit d = true)
    (hrest : ∀ u ∈ rest, Json.isDigit u = true) (hmin : 9 ≤ rest.length)
    (hmax : rest.length ≤ 32) : Always ibanBody (a :: b :: c :: d :: rest) := by
  obtain ⟨groups, last, rfl, hgroups, hlast⟩ := exists_split (t := rest)
    (a := 4 * ((rest.length - 1) / 4)) (b := rest.length - 4 * ((rest.length - 1) / 4)) (by omega)
  rw [List.length_append] at hgroups hlast hmin hmax
  rw [List.forall_mem_append] at hrest
  have hletters : Always (.rep (.set isLetter) 2 (some 2)) [a, b] :=
    Always.repeatedSet (by simp [ha, hb]) (by simp) (by simp)
  have hcheck : Always (digits 2 (some 2)) [c, d] :=
    always_digits 2 (some 2) (by simp [hc, hd]) (by simp) (by simp)
  have hseq := Always.seq_cons hletters <| Always.seq_cons hcheck <|
    Always.seq_cons (r := opt (.set isSpace)) (a := []) Always.opt_nil <|
    Always.seq_cons (always_groups hrest.1 hgroups (by omega) (by omega)) <|
    Always.seq_cons (always_digits 1 (some 4) hrest.2 (by omega)
      (by simp; omega)) Always.seq_nil
  simpa [ibanBody] using hseq

end Digits

/-! ### What the checks accept -/

section Accepted

variable {t : Utf16}

theorem isDigit_of_parseDigit {u : UInt16} (h : (parseDigit u).isSome = true) :
    Json.isDigit u = true := by
  unfold parseDigit at h
  split at h
  next hdigit => exact hdigit
  next => simp at h

theorem bracket_notMem_of_isDigit (h : ∀ u ∈ t, Json.isDigit u = true) : 0x5B ∉ t := by
  intro hmem
  have hdigit := h _ hmem
  revert hdigit
  decide

theorem luhnStep_isSome {s : Utf16} {state : Option Nat × Bool}
    (h : (s.foldl luhnStep state).1.isSome = true) :
    state.1.isSome = true ∧ ∀ u ∈ s, Json.isDigit u = true := by
  induction s generalizing state with
  | nil => exact ⟨h, by simp⟩
  | cons u s ih =>
    obtain ⟨hstep, hrest⟩ := ih h
    have hsum : state.1.isSome = true ∧ (parseDigit u).isSome = true := by
      obtain ⟨sum, alt⟩ := state
      cases sum <;> cases hparse : parseDigit u <;> cases alt <;> simp_all [luhnStep]
    exact ⟨hsum.1, List.forall_mem_cons.mpr ⟨isDigit_of_parseDigit hsum.2, hrest⟩⟩

/-- The sum of a number with anything but digits is no number. -/
theorem isDigit_of_luhnCheck {s : Utf16} (h : luhnCheck s = true) :
    ∀ u ∈ s, Json.isDigit u = true := by
  have hsome : (s.reverse.foldl luhnStep (some 0, false)).1.isSome = true := by
    rw [luhnCheck, Option.any_eq_true] at h
    obtain ⟨sum, hsum, -⟩ := h
    rw [hsum]
    rfl
  intro u hu
  exact (luhnStep_isSome hsome).2 u (List.mem_reverse.mpr hu)

theorem IsCardToken.digits (h : IsCardToken t) :
    (∀ u ∈ t, Json.isDigit u = true) ∧ 13 ≤ t.length ∧ t.length ≤ 19 := by
  obtain ⟨hseparators, hvalid⟩ := h
  have hcleaned : t.filter (fun u => !isSeparator u) = t := by
    rw [List.filter_eq_self]
    intro u hu
    rw [hseparators u hu]
    rfl
  rw [isValidCardNumber, hcleaned] at hvalid
  split at hvalid
  next => simp at hvalid
  next hlength =>
    simp only [Bool.or_eq_true, decide_eq_true_eq, not_or, Nat.not_lt] at hlength
    exact ⟨isDigit_of_luhnCheck hvalid, hlength.1, hlength.2⟩

theorem isDigit_of_foldlM {s : Utf16} {remainder : Nat} (h : (s.foldlM (fun remainder u =>
    (parseDigit u).map fun d => (remainder * 10 + d) % 97) remainder).isSome = true) :
    ∀ u ∈ s, Json.isDigit u = true := by
  induction s generalizing remainder with
  | nil => simp
  | cons u s ih =>
    rw [List.foldlM_cons] at h
    cases hparse : parseDigit u with
    | none => simp [hparse] at h
    | some d =>
      rw [hparse] at h
      exact List.forall_mem_cons.mpr ⟨isDigit_of_parseDigit (by rw [hparse]; rfl), ih h⟩

theorem isValidIban_spec {s : Utf16} (h : isValidIban s = true) :
    15 ≤ (ibanCleaned s).length ∧ (ibanCleaned s).length ≤ 34 ∧
      ibanRemainder (ibanCleaned s) = some 1 := by
  simp only [isValidIban] at h
  split at h
  next => simp at h
  next hlength =>
    simp only [Bool.or_eq_true, decide_eq_true_eq, not_or, Nat.not_lt] at hlength
    exact ⟨hlength.1, hlength.2, by simpa using h⟩

/-- The remainder of an IBAN with a bracket is no number. -/
theorem bracket_notMem_of_isValidIban {s : Utf16} (h : isValidIban s = true) : 0x5B ∉ s := by
  intro hmem
  obtain ⟨-, -, hremainder⟩ := isValidIban_spec h
  have hcleaned : 0x5B ∈ ibanCleaned s := by
    refine List.mem_flatMap.mpr ⟨0x5B, List.mem_filter.mpr ⟨hmem, by decide⟩, ?_⟩
    decide
  have hnumeric : 0x5B ∈ numericOf ((ibanCleaned s).drop 4 ++ (ibanCleaned s).take 4) := by
    refine List.mem_flatMap.mpr ⟨0x5B, ?_, by decide⟩
    rw [← List.take_append_drop 4 (ibanCleaned s), List.mem_append] at hcleaned
    exact List.mem_append.mpr hcleaned.symm
  have hsome : (ibanRemainder (ibanCleaned s)).isSome = true := by
    rw [hremainder]
    rfl
  have hdigit := isDigit_of_foldlM hsome 0x5B hnumeric
  revert hdigit
  decide

/-- The units of an IBAN of letters and digits are those that are counted. -/
theorem IsIbanToken.length (h : IsIbanToken t) (hspace : ∀ u ∈ t, isSpace u = false)
    (hchars : ∀ u ∈ t, isAlphanumeric u = true) : 15 ≤ t.length ∧ t.length ≤ 34 := by
  obtain ⟨hmin, hmax, -⟩ := isValidIban_spec h.1
  have hfilter : t.filter (fun u => !isSpace u) = t := by
    rw [List.filter_eq_self]
    intro u hu
    rw [hspace u hu]
    rfl
  obtain ⟨upper, hupper, hlength, -⟩ := exists_toUpperCase hchars
  rw [ibanCleaned, hfilter, hupper, hlength] at hmin hmax
  exact ⟨hmin, hmax⟩

theorem Accepted.bracket_notMem (h : Accepted t) : 0x5B ∉ t := by
  rcases h with hcard | hiban | hid
  · exact bracket_notMem_of_isDigit hcard.digits.1
  · exact bracket_notMem_of_isValidIban hiban.1
  · exact bracket_notMem_of_isDigit hid.2.1

end Accepted

/-! ### What the patterns match -/

section Matching

variable {before after : Option UInt16} {m : Utf16}

theorem apart_bounded {r : Regex UInt16} (hr : ∀ before m after, Matches r before m after →
    m.head?.any isWord = true ∧ m.getLast?.any isWord = true) : Apart isWord (bounded r) := by
  intro before m after hm
  obtain ⟨hfirst, hlast⟩ := hr _ _ _ (Regex.bounded_inner hm)
  exact ⟨Regex.before_of_bounded hm hfirst, Regex.after_of_bounded hm hlast⟩

theorem plain_ibanBody : Plain ibanBody := by simp [Plain, ibanBody, seq, digits, opt]

/-- What the IBAN pattern matches starts with two letters and ends in a digit. -/
theorem iban_shape (h : Matches ibanBody before m after) : ∃ c d rest e,
    m = c :: d :: rest ++ [e] ∧ isLetter c = true ∧ isLetter d = true ∧
      (∀ u ∈ rest, Json.isDigit u = true ∨ isSpace u = true) ∧ Json.isDigit e = true := by
  obtain ⟨letters, _, rfl, hletters, check, _, rfl, hcheck, space, _, rfl, hspace, groups, _, rfl,
    hgroups, last, _, rfl, hlast, rfl, -⟩ := h
  obtain ⟨hisLetter, htwo, htwo'⟩ := Matches.repeatedSet hletters
  obtain ⟨c, d, rfl⟩ := List.length_eq_two.mp (Nat.le_antisymm (htwo' 2 rfl) htwo)
  obtain ⟨hisDigit, hone, -⟩ := Matches.repeatedSet hlast
  obtain ⟨init, e, rfl⟩ :=
    (List.eq_nil_or_concat last).resolve_left (List.ne_nil_of_length_pos hone)
  have hgroup : ∀ u ∈ groups, Json.isDigit u = true ∨ isSpace u = true := by
    obtain ⟨parts, rfl, -, -, hparts⟩ := Turns.exists_parts hgroups
    intro u hu
    obtain ⟨part, hpart, hu⟩ := List.mem_flatten.mp hu
    obtain ⟨_, _, group, gap, rfl, hgroup, hgap⟩ := hparts part hpart
    rcases List.mem_append.mp hu with hu | hu
    · exact .inl ((Matches.repeatedSet hgroup).1 u hu)
    · exact .inr ((Matches.repeatedSet hgap).1 u hu)
  rw [List.concat_eq_append, List.forall_mem_append] at hisDigit
  refine ⟨c, d, check ++ (space ++ (groups ++ init)), e, by simp, hisLetter c (by simp),
    hisLetter d (by simp), ?_, hisDigit.2 e (by simp)⟩
  simp only [List.forall_mem_append]
  exact ⟨fun u hu => .inl ((Matches.repeatedSet hcheck).1 u hu),
    fun u hu => .inr ((Matches.repeatedSet hspace).1 u hu), hgroup,
    fun u hu => .inl (hisDigit.1 u hu)⟩

theorem apart_ibanRe : Apart isWord ibanRe := by
  refine apart_bounded fun before m after hm => ?_
  obtain ⟨c, d, rest, e, rfl, hc, -, -, he⟩ := iban_shape hm
  constructor
  · exact isWord_of_isLetter hc
  · rw [List.getLast?_concat]
    exact isWord_of_isDigit he

theorem isWord_of_toLower {u v : UInt16} (h : (toLower v == toLower u) = true)
    (hu : isLower u = true) : isWord v = true := by
  grind [toLower, isUpper, isLower, isWord]

theorem anyCase_head {text : String} {u : UInt16} {rest : Utf16} (htext : ofString text = u :: rest)
    (hu : isLower u = true) (h : Matches (anyCase text) before m after) :
    ∃ v m', m = v :: m' ∧ isWord v = true := by
  rw [anyCase, htext] at h
  obtain ⟨_, m', rfl, ⟨v, rfl, hv⟩, -⟩ := h
  exact ⟨v, m', rfl, isWord_of_toLower hv hu⟩

theorem apart_passwordRe : Apart isWord passwordRe := by
  rintro before _ after ⟨_, _, rfl, ⟨rfl, hstart⟩, name, _, rfl, hname, _, _, rfl, -, _, _, rfl, -,
    _, _, rfl, -, _, _, rfl, -, _, _, rfl, ⟨rfl, hend⟩, rfl, -⟩
  have hhead : ∃ v m', name = v :: m' ∧ isWord v = true := by
    rcases hname with hm | hm | hm | ⟨pin, digit, rfl, hm, -⟩ | ⟨_, -, hfalse⟩
    · exact anyCase_head rfl rfl hm
    · exact anyCase_head rfl rfl hm
    · exact anyCase_head rfl rfl hm
    · obtain ⟨v, m', rfl, hv⟩ := anyCase_head rfl rfl hm
      exact ⟨v, m' ++ digit, rfl, hv⟩
    · simp at hfalse
  obtain ⟨v, m', rfl, hv⟩ := hhead
  constructor
  · simpa [wordBoundary, hv] using hstart
  · cases after with
    | none => rfl
    | some u => exact isWord_of_isSpace (by simpa using hend)

/-- What the card pattern matches, without a separator at its end. -/
theorem card_shape (h : Matches creditCardBody before m after) : ∃ m' s,
    m = m' ++ s ∧ (∀ u ∈ s, isSeparator u = true) ∧ Always creditCardBody m' ∧
      m'.head?.any Json.isDigit = true ∧ m'.getLast?.any Json.isDigit = true ∧
      ∀ u ∈ m', Json.isDigit u = true ∨ isSeparator u = true := by
  obtain ⟨parts, rfl, hmin, hmax, hparts⟩ := Turns.exists_parts h
  have hpart : ∀ part ∈ parts, ∃ d gap, part = d :: gap ∧ Json.isDigit d = true ∧
      (∀ u ∈ gap, isSeparator u = true) ∧
      Always (cat (set Json.isDigit) (opt (set isSeparator))) part := by
    intro part hmem
    obtain ⟨before, after, hm⟩ := hparts part hmem
    have halways := Matches.always (by simp [Plain, opt]) hm
    obtain ⟨_, gap, rfl, ⟨d, rfl, hd⟩, hgap⟩ := hm
    exact ⟨d, gap, rfl, hd, (Matches.repeatedSet hgap).1, halways⟩
  clear hparts h
  obtain ⟨init, part, rfl⟩ :=
    (List.eq_nil_or_concat parts).resolve_left (List.ne_nil_of_length_pos (by omega))
  rw [List.concat_eq_append, List.forall_mem_append] at hpart
  obtain ⟨d, gap, rfl, hd, hgap, -⟩ := hpart.2 part (by simp)
  refine ⟨(init ++ [[d]]).flatten, gap, by simp, hgap, ?_, ?_, ?_, ?_⟩
  · refine Always.repeated ?_ (by simpa using hmin) (by simpa using hmax)
    rw [List.forall_mem_append]
    constructor
    · intro part hmem
      obtain ⟨d', gap', rfl, -, -, halways⟩ := hpart.1 part hmem
      exact ⟨by simp, halways⟩
    · intro part hmem
      obtain rfl := List.mem_singleton.mp hmem
      exact ⟨by simp, Always.cat (a := [d]) (b := []) (Always.set hd) Always.opt_nil⟩
  · cases init with
    | nil => simpa using hd
    | cons first init =>
      obtain ⟨d', gap', rfl, hd', -⟩ := hpart.1 first (by simp)
      simpa using hd'
  · simpa using hd
  · intro u hu
    obtain ⟨part, hmem, hu⟩ := List.mem_flatten.mp hu
    rcases List.mem_append.mp hmem with hmem | hmem
    · obtain ⟨d', gap', rfl, hd', hgap', -⟩ := hpart.1 part hmem
      rcases List.mem_cons.mp hu with rfl | hu
      · exact .inl hd'
      · exact .inr (hgap' u hu)
    · obtain rfl := List.mem_singleton.mp hmem
      obtain rfl := List.mem_singleton.mp hu
      exact .inl hd

end Matching

/-! ### Passes -/

theorem isToken_of_foldl {t : Utf16} (hbracket : 0x5B ∉ t)
    (entries : List (PiiCategory × Regex UInt16)) {content : FilteredContent}
    (h : IsToken isSpace t (entries.foldl filterCategory content).text) :
    IsToken isSpace t content.text := by
  induction entries generalizing content with
  | nil => exact h
  | cons entry entries ih =>
    have hafter := ih h
    rw [text_filterCategory] at hafter
    exact hafter.of_redact hbracket

/-- What the filter leaves, each category has left. -/
theorem left_of_filterPii {t text : Utf16} (hbracket : 0x5B ∉ t)
    (before after : List (PiiCategory × Regex UInt16)) {category : PiiCategory}
    {pattern : Regex UInt16} (hsplit : patterns = before ++ (category, pattern) :: after)
    (h : IsToken isSpace t (filterPii text).text) :
    IsToken isSpace t (redact redacted pattern (isValid category)
      (before.foldl filterCategory { text }).text) := by
  rw [filterPii, hsplit, List.foldl_append, List.foldl_cons] at h
  have hafter := isToken_of_foldl hbracket after h
  rwa [text_filterCategory] at hafter

section Stages

variable {text u x y : Utf16}

/-- The text that the IBAN pattern is searched in. -/
def beforeIban (text : Utf16) : Utf16 := (filterCategory { text } (.password, passwordRe)).text

/-- The text that the card pattern is searched in. -/
def beforeCard (text : Utf16) : Utf16 :=
  (filterCategory (filterCategory { text } (.password, passwordRe)) (.iban, ibanRe)).text

/-- A stretch that the password pass has left stood in the text that is filtered, and no match for a
password took a part of it. -/
theorem spared_of_beforeIban (hne : u ≠ []) (hbracket : 0x5B ∉ u)
    (hstart : Ends isSpace x.getLast? ∨
      u.head?.any isWord = true ∧ ∀ v ∈ u.head?, v ∉ redacted.text)
    (hend : u.getLast?.any isWord = true ∨ Ends isSpace y.head?)
    (h : beforeIban text = x ++ u ++ y) :
    ∃ x' y', text = x' ++ u ++ y' ∧ x'.getLast? = x.getLast? ∧ y'.head? = y.head? ∧
      SparedAt passwordRe (isValid .password) text x' u := by
  rw [beforeIban, text_filterCategory] at h
  exact Redaction.spared_of_redact apart_passwordRe (Regex.not_matches_nil (by decide)) hne hbracket
    hstart hend h

/-- A stretch that the IBAN pass has left, too. -/
theorem spared_of_beforeCard (hne : u ≠ []) (hbracket : 0x5B ∉ u)
    (hstart : Ends isSpace x.getLast? ∨
      u.head?.any isWord = true ∧ ∀ v ∈ u.head?, v ∉ redacted.text)
    (hend : u.getLast?.any isWord = true ∨ Ends isSpace y.head?)
    (h : beforeCard text = x ++ u ++ y) :
    ∃ x' y', text = x' ++ u ++ y' ∧ x'.getLast? = x.getLast? ∧ y'.head? = y.head? ∧
      SparedAt passwordRe (isValid .password) text x' u := by
  rw [beforeCard, text_filterCategory] at h
  obtain ⟨x₁, y₁, htext, hx, hy, -⟩ := Redaction.spared_of_redact apart_ibanRe
    (Regex.not_matches_nil (by decide)) hne hbracket hstart hend h
  rw [← hx] at hstart
  rw [← hy] at hend
  obtain ⟨x₂, y₂, htext, hx₂, hy₂, hspared⟩ :=
    spared_of_beforeIban hne hbracket hstart hend htext
  exact ⟨x₂, y₂, htext, hx₂.trans hx, hy₂.trans hy, hspared⟩

end Stages

/-! ### Recall -/

section Recall

variable {text t : Utf16}

/-- What a token stands in, at a place with the same units around it. -/
theorem tokenAt_of_neighbours {x x' a b y y' : Utf16} (hx : x'.getLast? = x.getLast?)
    (hy : y'.head? = y.head?) (h : TokenAt isSpace (x ++ a) t (b ++ y)) :
    TokenAt isSpace (x' ++ a) t (b ++ y') where
  ne_nil := h.ne_nil
  noSep := h.noSep
  before_ends := by
    rw [List.getLast?_append, hx, ← List.getLast?_append]
    exact h.before_ends
  after_ends := by
    rw [List.head?_append, hy, ← List.head?_append]
    exact h.after_ends

/-- A phone number may be any number of 6 to 15 digits, and the number of a passport has two letters
before it. -/
theorem otherNumber_not_left (ht : HoldsOtherNumber t) (hbracket : 0x5B ∉ t) :
    ¬IsToken isSpace t (filterPii text).text := by
  intro h
  obtain ⟨a, v, b, rfl, hv, ha, hb⟩ := ht
  rcases hv with ⟨hdigits, hmin, hmax⟩ | ⟨c, d, number, rfl, hc, hd, hnumber, hmin, hmax⟩
  · have hleft : IsToken isSpace (a ++ v ++ b)
        (redact redacted phoneRe (isValid .phone) _) :=
      left_of_filterPii hbracket (patterns.take 5) (patterns.drop 6) rfl h
    exact word_not_left (always_phone hdigits hmin hmax) (List.ne_nil_of_length_pos (by omega))
      (fun u hu => isWord_of_isDigit (hdigits u hu)) (by decide) ha hb hbracket hleft
  · have hleft : IsToken isSpace (a ++ (c :: d :: number) ++ b)
        (redact redacted passportRe (isValid .passport) _) :=
      left_of_filterPii hbracket (patterns.take 9) (patterns.drop 10) rfl h
    have halways : Always (cat (rep (set isLetter) 2 (some 2)) (digits 6 (some 8)))
        ([c, d] ++ number) :=
      Always.cat (Always.repeatedSet (by simp [hc, hd]) (by simp) (by simp))
        (always_digits 6 (some 8) hnumber hmin (by simpa using hmax))
    have hword : ∀ u ∈ c :: d :: number, isWord u = true := by
      simp only [List.forall_mem_cons]
      exact ⟨isWord_of_isLetter hc, isWord_of_isLetter hd,
        fun u hu => isWord_of_isDigit (hnumber u hu)⟩
    exact word_not_left halways (by simp) hword (by decide) ha hb hbracket hleft

theorem digits_not_left (hdigits : ∀ u ∈ t, Json.isDigit u = true) (hmin : 6 ≤ t.length)
    (hmax : t.length ≤ 15) : ¬IsToken isSpace t (filterPii text).text :=
  otherNumber_not_left ⟨[], t, [], by simp, .inl ⟨hdigits, hmin, hmax⟩, rfl, rfl⟩
    (bracket_notMem_of_isDigit hdigits)

/-- A separator at the end of a match is no part of the number. -/
theorem isValidCardNumber_append {m s : Utf16} (hs : ∀ u ∈ s, isSeparator u = true) :
    isValidCardNumber (m ++ s) = isValidCardNumber m := by
  have hnone : s.filter (fun u => !isSeparator u) = [] := by
    rw [List.filter_eq_nil_iff]
    intro u hu
    simp [hs u hu]
  simp only [isValidCardNumber, List.filter_append, hnone, List.append_nil]

/-- What the card pattern matches starts with a digit and goes on with digits and separators. -/
theorem card_prefix {a b : Utf16} (hne : a ≠ []) (h : Always creditCardBody (a ++ b)) :
    a.head?.any Json.isDigit = true ∧ ∀ u ∈ a, Json.isDigit u = true ∨ isSeparator u = true := by
  obtain ⟨m, s, hm, hs, -, hfirst, -, hunits⟩ := card_shape (h none none)
  constructor
  · have hheads := congrArg (fun l => l.head?.any Json.isDigit) hm
    cases hmHead : m.head? with
    | none =>
      rw [hmHead] at hfirst
      simp at hfirst
    | some u =>
      simp only [List.head?_append, List.head?_eq_some_head hne, Option.some_or, hmHead] at hheads
      rw [List.head?_eq_some_head hne, hheads, ← hmHead]
      exact hfirst
  · intro u hu
    have hmem : u ∈ m ++ s := by
      rw [← hm]
      exact List.mem_append_left _ hu
    exact (List.mem_append.mp hmem).elim (hunits u) fun h => .inr (hs u h)

/-- A match of the card pattern with a number of digits in it, without a separator at its end. -/
theorem card_reading {before after : Option UInt16} {a b : Utf16} (hne : t ≠ [])
    (hdigits : ∀ u ∈ t, Json.isDigit u = true)
    (h : Matches creditCardRe before (a ++ t ++ b) after) :
    ∃ b' s, b = b' ++ s ∧ (∀ u ∈ s, isSeparator u = true) ∧
      Always creditCardBody (a ++ t ++ b') ∧ before.any isWord = false ∧
      (s.head?.or after).any isWord = false ∧
      (a ++ t ++ b').head?.any Json.isDigit = true ∧
      (a ++ t ++ b').getLast?.any Json.isDigit = true ∧ 0x5B ∉ a ++ t ++ b' := by
  obtain ⟨m', s, hm, hs, halways, hfirst, hlast, hunits⟩ := card_shape (Regex.bounded_inner h)
  have hsplit : ∃ b', b = b' ++ s ∧ a ++ t ++ b' = m' := by
    rcases List.append_eq_append_iff.mp hm with ⟨b', rfl, hb⟩ | ⟨c, hc, rfl⟩
    · exact ⟨b', hb, rfl⟩
    · rcases eq_or_ne c [] with rfl | hcne
      · exact ⟨[], rfl, by simpa using hc⟩
      · -- the last digit of the number would be a separator
        have hlasts := congrArg List.getLast? hc
        rw [List.getLast?_append, List.getLast?_append, List.getLast?_eq_some_getLast hne,
          List.getLast?_eq_some_getLast hcne, Option.some_or, Option.some_or,
          Option.some_inj] at hlasts
        have hword := isWord_of_isDigit (hdigits _ (List.getLast_mem hne))
        rw [hlasts, isWord_of_isSeparator (hs _ (List.mem_append_left _ (List.getLast_mem hcne)))]
          at hword
        contradiction
  obtain ⟨b', rfl, rfl⟩ := hsplit
  refine ⟨b', s, rfl, hs, halways, ?_, ?_, hfirst, hlast, ?_⟩
  · refine Regex.before_of_bounded h ?_
    rw [hm, List.head?_append]
    cases hhead : (a ++ t ++ b').head? with
    | none =>
      rw [hhead] at hfirst
      simp at hfirst
    | some u =>
      rw [hhead] at hfirst
      exact isWord_of_isDigit hfirst
  · cases s with
    | nil =>
      refine Regex.after_of_bounded h ?_
      rw [hm, List.append_nil]
      exact any_isWord_of_isDigit hlast
    | cons w s => exact isWord_of_isSeparator (hs w (by simp))
  · intro hmem
    rcases hunits _ hmem with hdigit | hseparator
    · revert hdigit
      decide
    · revert hseparator
      decide

theorem card_not_left (ht : IsCardToken t)
    (hread : 16 ≤ t.length → ReadsValid creditCardBody isValidCardNumber text t) :
    ¬IsToken isSpace t (filterPii text).text := by
  obtain ⟨hdigits, hmin, hmax⟩ := ht.digits
  rcases Nat.lt_or_ge t.length 16 with hshort | hlong
  · exact digits_not_left hdigits (by omega) (by omega)
  intro h
  have hleft : IsToken isSpace t
      (redact redacted creditCardRe (isValid .creditCard) (beforeCard text)) :=
    left_of_filterPii (bracket_notMem_of_isDigit hdigits) (patterns.take 2) (patterns.drop 3) rfl h
  obtain ⟨before, a, b, after, hfinds, htoken, hinvalid⟩ :=
    left_of_bounded (always_creditCard hdigits hmin hmax)
      (fun u hu => isWord_of_isDigit (hdigits u hu)) (by decide) hleft
  have htext := hfinds.text_eq
  obtain ⟨b', s, rfl, hs, halways, hbefore, hafter, hfirst, hlast, hbracket⟩ :=
    card_reading htoken.ne_nil hdigits (hfinds.matches (Regex.not_matches_nil (by decide)))
  rw [← List.head?_append] at hafter
  rw [List.append_assoc b'] at htoken
  have hne : a ++ t ++ b' ≠ [] := by
    intro hnil
    rw [hnil] at hfirst
    simp at hfirst
  have hstart : (a ++ t ++ b').head?.any isWord = true ∧
      ∀ v ∈ (a ++ t ++ b').head?, v ∉ redacted.text := by
    refine ⟨any_isWord_of_isDigit hfirst, fun v hv => ?_⟩
    rw [Option.mem_def.mp hv] at hfirst
    exact notMem_redacted_of_isDigit hfirst
  have hsame : beforeCard text = before ++ (a ++ t ++ b') ++ (s ++ after) := by
    rw [htext]
    simp
  obtain ⟨x, y, hfound, hx, hy, hspared⟩ :=
    spared_of_beforeCard hne hbracket (.inr hstart) (.inl (any_isWord_of_isDigit hlast)) hsame
  rw [← hx] at hbefore
  rw [← hy] at hafter
  have hvalid := hread hlong x a b' y hfound (tokenAt_of_neighbours hx hy htoken) halways hbefore
    hafter hspared
  rw [isValid, ← List.append_assoc, isValidCardNumber_append hs, hvalid] at hinvalid
  contradiction

/-- A match of the IBAN pattern. -/
theorem iban_reading {before after : Option UInt16} {m : Utf16} (h : Matches ibanRe before m after) :
    m ≠ [] ∧ 0x5B ∉ m ∧ Always ibanBody m ∧ before.any isWord = false ∧
      after.any isWord = false ∧ m.getLast?.any isWord = true := by
  have hmatch := Regex.bounded_inner h
  obtain ⟨c, d, rest, e, hm, hc, hd, hrest, he⟩ := iban_shape hmatch
  have hlast : m.getLast?.any isWord = true := by
    rw [hm, List.getLast?_concat]
    exact isWord_of_isDigit he
  refine ⟨by simp [hm], ?_, Matches.always plain_ibanBody hmatch, Regex.before_of_bounded h ?_,
    Regex.after_of_bounded h hlast, hlast⟩
  · have hunits : ∀ u ∈ m, isLetter u = true ∨ Json.isDigit u = true ∨ isSpace u = true := by
      rw [hm]
      simp only [List.forall_mem_append, List.forall_mem_cons]
      exact ⟨⟨.inl hc, .inl hd, fun u hu => .inr (hrest u hu)⟩, .inr (.inl he), by simp⟩
    intro hmem
    have hunit := hunits _ hmem
    revert hunit
    decide
  · rw [hm]
    exact isWord_of_isLetter hc

/-- An IBAN in a match of the pattern stands at its start. -/
theorem iban_starts {before after : Option UInt16} {a b : Utf16} (ht : IsIbanToken t)
    (ha : Ends isSpace a.getLast?) (h : Matches ibanBody before (a ++ t ++ b) after) : a = [] := by
  obtain ⟨c, d, rest, e, hm, hc, -, hrest, he⟩ := iban_shape h
  obtain ⟨-, c', d', c₂, d₂, t', rfl, hc', -⟩ := ht
  have hletter {u : UInt16} (hu : isLetter u = true) :
      ¬(Json.isDigit u = true ∨ isSpace u = true) := by
    rintro (hdigit | hspace)
    · grind [isLetter, isUpper, isLower, Json.isDigit]
    · have hword := isWord_of_isLetter hu
      rw [isWord_of_isSpace hspace] at hword
      contradiction
  cases a with
  | nil => rfl
  | cons u a =>
    cases a with
    | nil =>
      obtain rfl : u = c := (List.cons.inj hm).1
      exact absurd (.inr (ha u rfl)) (hletter hc)
    | cons v a =>
      -- the first letter of the IBAN would be in the digits
      have htail : a ++ (c' :: d' :: c₂ :: d₂ :: t') ++ b = rest ++ [e] :=
        (List.cons.inj (List.cons.inj hm).2).2
      have hmem : c' ∈ rest ++ [e] := by
        rw [← htail]
        simp
      rcases List.mem_append.mp hmem with hmem | hmem
      · exact absurd (hrest c' hmem) (hletter hc')
      · obtain rfl := List.mem_singleton.mp hmem
        exact absurd (.inl he) (hletter hc')

theorem iban_not_left (ht : IsIbanToken t) (hrecognised : Recognised text t) :
    ¬IsToken isSpace t (filterPii text).text := by
  intro h
  have hbracket := Accepted.bracket_notMem (.inr (.inl ht))
  have hleft : IsToken isSpace t (redact redacted ibanRe (isValid .iban) (beforeIban text)) :=
    left_of_filterPii hbracket (patterns.take 1) (patterns.drop 2) rfl h
  obtain ⟨x, y, hout, hthere⟩ := hleft.of_redact hbracket
  obtain ⟨x', y', htext, hx, hy, hspared⟩ := spared_of_beforeIban hthere.ne_nil hbracket
    (.inl hthere.before_ends) (.inr hthere.after_ends) hout
  have htokenAt : TokenAt isSpace x' t y' := by
    have hmoved := tokenAt_of_neighbours (a := []) (b := []) hx hy (by simpa using hthere)
    simpa using hmoved
  rcases hrecognised.iban_digits ht x' y' htext htokenAt hspared with hrest | hother
  · obtain ⟨a, b, c, d, rest, htoken, ha, hb, hc, hd⟩ := ht.2
    rw [htoken] at hrest
    have hunits : ∀ u ∈ t, isLetter u = true ∨ Json.isDigit u = true := by
      rw [htoken]
      simp only [List.forall_mem_cons]
      exact ⟨.inl ha, .inl hb, .inr hc, .inr hd, fun u hu => .inr (hrest u hu)⟩
    have hchars : ∀ u ∈ t, isAlphanumeric u = true := by
      intro u hu
      grind [hunits u hu, isLetter, isAlphanumeric]
    have hwords : ∀ u ∈ t, isWord u = true := fun u hu =>
      (hunits u hu).elim isWord_of_isLetter isWord_of_isDigit
    have hlength := ht.length hthere.noSep hchars
    have halways : Regex.Always ibanBody t := by
      rw [htoken] at hlength ⊢
      simp only [List.length_cons] at hlength
      exact always_iban ha hb hc hd hrest (by omega) (by omega)
    obtain ⟨before, a', b', after, hfinds, hat, hinvalid⟩ :=
      left_of_bounded halways hwords (by decide) hleft
    have hm := hfinds.matches (Regex.not_matches_nil (by decide))
    have hends : Ends isSpace a'.getLast? := by
      intro u hu
      refine hat.before_ends u ?_
      rw [List.getLast?_append, Option.mem_def.mp hu]
      rfl
    obtain rfl : a' = [] := iban_starts ht hends (Regex.bounded_inner hm)
    obtain ⟨hne, hnone, hmatched, hbefore, hafter, hlast⟩ := iban_reading hm
    have hstart := hat.before_ends
    rw [List.append_nil] at hstart
    obtain ⟨x, y, hfound, hx, hy, hspared⟩ :=
      spared_of_beforeIban hne hnone (.inl hstart) (.inl hlast) hfinds.text_eq
    rw [← hx] at hbefore
    rw [← hy] at hafter
    have hvalid := hrecognised.iban_valid ht x [] b' y hfound (tokenAt_of_neighbours hx hy hat)
      hmatched hbefore hafter hspared
    rw [isValid, hvalid] at hinvalid
    contradiction
  · exact otherNumber_not_left hother hbracket h

end Recall

end SmartIdVault.Pii
