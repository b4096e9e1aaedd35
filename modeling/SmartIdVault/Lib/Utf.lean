import Mathlib.Data.List.Induction
import SmartIdVault.Lib.Bytes

/-! Strings as JavaScript and Java keep them, in UTF-16 code units, and their UTF-8 form.  The
encoder is Lean's own, over characters; the decoder is the one of the WHATWG Encoding Standard,
which replaces what is malformed. -/

/-- A string of UTF-16 code units, in which surrogates need not come in pairs. -/
abbrev Utf16 := List UInt16

namespace Utf16

/-- Every membership in a list of strings is decided through this one. -/
instance : LawfulBEq Utf16 := inferInstance

/-- What holds of all units of a string is decided over the string, not over all code units. -/
instance (priority := high) (s : Utf16) (p : UInt16 → Prop) [DecidablePred p] :
    Decidable (∀ u ∈ s, p u) :=
  List.decidableBAll p s

def isHigh (u : UInt16) : Bool := 0xD800 ≤ u && u ≤ 0xDBFF

def isLow (u : UInt16) : Bool := 0xDC00 ≤ u && u ≤ 0xDFFF

def pair (u v : UInt16) : Char :=
  Char.ofNat (0x10000 + (u.toNat - 0xD800) * 0x400 + (v.toNat - 0xDC00))

def single (lone : Char) (u : UInt16) : Char :=
  if isHigh u || isLow u then lone else Char.ofNat u.toNat

/-- The characters of a string, with `lone` for every surrogate that is not in a pair. -/
def chars (lone : Char) : Utf16 → List Char
  | [] => []
  | [u] => [single lone u]
  | u :: v :: rest =>
    if isHigh u && isLow v then pair u v :: chars lone rest
    else single lone u :: chars lone (v :: rest)

theorem chars_cons (lone : Char) {u : UInt16} (h : isHigh u = false) (rest : Utf16) :
    chars lone (u :: rest) = single lone u :: chars lone rest := by
  cases rest with
  | nil => rfl
  | cons v rest =>
    rw [chars, h]
    rfl

def units (c : Char) : Utf16 :=
  if c.toNat < 0x10000 then [UInt16.ofNat c.toNat]
  else [UInt16.ofNat (0xD800 + (c.toNat - 0x10000) / 0x400),
    UInt16.ofNat (0xDC00 + (c.toNat - 0x10000) % 0x400)]

def ofChars (cs : List Char) : Utf16 := cs.flatMap units

def ofString (s : String) : Utf16 := ofChars s.toList

/-- Every surrogate is in a pair. -/
def WellFormed (s : Utf16) : Prop := ∃ cs, s = ofChars cs

theorem isHigh_iff (u : UInt16) : isHigh u = true ↔ 0xD800 ≤ u.toNat ∧ u.toNat ≤ 0xDBFF := by
  simp [isHigh, UInt16.le_iff_toNat_le]

theorem isLow_iff (u : UInt16) : isLow u = true ↔ 0xDC00 ≤ u.toNat ∧ u.toNat ≤ 0xDFFF := by
  simp [isLow, UInt16.le_iff_toNat_le]

theorem scalar_range (c : Char) :
    c.toNat < 0xD800 ∨ 0xDFFF < c.toNat ∧ c.toNat < 0x110000 := c.valid

theorem single_of_scalar (lone : Char) {c : Char} (h : c.toNat < 0x10000) :
    isHigh (UInt16.ofNat c.toNat) = false ∧ single lone (UInt16.ofNat c.toNat) = c := by
  have hn : (UInt16.ofNat c.toNat).toNat = c.toNat := UInt16.toNat_ofNat_of_lt' h
  have hr := scalar_range c
  have h1 : isHigh (UInt16.ofNat c.toNat) = false := by
    rw [← Bool.not_eq_true, isHigh_iff, hn]
    omega
  have h2 : isLow (UInt16.ofNat c.toNat) = false := by
    rw [← Bool.not_eq_true, isLow_iff, hn]
    omega
  refine ⟨h1, ?_⟩
  simp only [single, h1, h2, Bool.or_self, Bool.false_eq_true, if_false, hn, Char.ofNat_toNat]

theorem pair_of_scalar {c : Char} (h : 0x10000 ≤ c.toNat) :
    isHigh (UInt16.ofNat (0xD800 + (c.toNat - 0x10000) / 0x400)) = true ∧
      isLow (UInt16.ofNat (0xDC00 + (c.toNat - 0x10000) % 0x400)) = true ∧
      pair (UInt16.ofNat (0xD800 + (c.toNat - 0x10000) / 0x400))
        (UInt16.ofNat (0xDC00 + (c.toNat - 0x10000) % 0x400)) = c := by
  have hr := scalar_range c
  rw [isHigh_iff, isLow_iff, pair, UInt16.toNat_ofNat_of_lt' (show _ < 65536 by omega),
    UInt16.toNat_ofNat_of_lt' (show _ < 65536 by omega)]
  refine ⟨by omega, by omega, ?_⟩
  have hsum : 0x10000 + (0xD800 + (c.toNat - 0x10000) / 0x400 - 0xD800) * 0x400 +
      (0xDC00 + (c.toNat - 0x10000) % 0x400 - 0xDC00) = c.toNat := by omega
  rw [hsum, Char.ofNat_toNat]

theorem chars_units_append (lone c : Char) (s : Utf16) :
    chars lone (units c ++ s) = c :: chars lone s := by
  unfold units
  split
  · rename_i h
    obtain ⟨hh, hs⟩ := single_of_scalar lone h
    cases s with
    | nil => simp [chars, hs]
    | cons v s => simp [chars, hh, hs]
  · rename_i h
    obtain ⟨hh, hl, hp⟩ := pair_of_scalar (Nat.le_of_not_lt h)
    simp only [List.cons_append, List.nil_append, chars, hh, hl, hp, Bool.and_self, if_true]

theorem chars_ofChars (lone : Char) (cs : List Char) : chars lone (ofChars cs) = cs := by
  induction cs with
  | nil => rfl
  | cons c cs ih => rw [ofChars, List.flatMap_cons, chars_units_append, ← ofChars, ih]

theorem ofString_inj {s t : String} (h : ofString s = ofString t) : s = t := by
  have hchars := congrArg (chars ' ') h
  rw [ofString, ofString, chars_ofChars, chars_ofChars] at hchars
  exact String.toList_inj.mp hchars

theorem decimal_inj {m n : Nat} (h : ofString (toString m) = ofString (toString n)) : m = n := by
  have hdigits : Nat.toDigits 10 m = Nat.toDigits 10 n := by
    simpa using congrArg String.toList (ofString_inj h)
  have hvalue := congrArg (Nat.ofDigitChars 10 · 0) hdigits
  simpa using hvalue

theorem toNat_ofNat {n : Nat} (h : n.isValidChar) : (Char.ofNat n).toNat = n := by
  rw [Char.ofNat, dif_pos h]
  rfl

theorem units_ofNat {u : UInt16} (hhigh : isHigh u = false) (hlow : isLow u = false) :
    units (Char.ofNat u.toNat) = [u] := by
  have hu := u.toNat_lt
  rw [← Bool.not_eq_true, isHigh_iff] at hhigh
  rw [← Bool.not_eq_true, isLow_iff] at hlow
  have hv : u.toNat.isValidChar := by
    rw [Nat.isValidChar]
    omega
  have hn := toNat_ofNat hv
  rw [units, if_pos (by omega), hn, UInt16.ofNat_toNat]

theorem units_single {lone : Char} {u : UInt16} (h : single lone u ≠ lone) :
    units (single lone u) = [u] := by
  rw [single] at h ⊢
  split at h
  · exact absurd rfl h
  · rename_i hs
    rw [if_neg hs]
    rw [Bool.not_eq_true, Bool.or_eq_false_iff] at hs
    exact units_ofNat hs.1 hs.2

theorem units_pair {u v : UInt16} (hu : isHigh u = true) (hv : isLow v = true) :
    units (pair u v) = [u, v] := by
  rw [isHigh_iff] at hu
  rw [isLow_iff] at hv
  have hn : (pair u v).toNat = 0x10000 + (u.toNat - 0xD800) * 0x400 + (v.toNat - 0xDC00) := by
    apply toNat_ofNat
    rw [Nat.isValidChar]
    omega
  have h1 : 0xD800 + ((pair u v).toNat - 0x10000) / 0x400 = u.toNat := by omega
  have h2 : 0xDC00 + ((pair u v).toNat - 0x10000) % 0x400 = v.toNat := by omega
  rw [units, if_neg (by omega), h1, h2, UInt16.ofNat_toNat, UInt16.ofNat_toNat]

theorem WellFormed.append {s t : Utf16} (hs : s.WellFormed) (ht : t.WellFormed) :
    (s ++ t).WellFormed := by
  obtain ⟨cs, rfl⟩ := hs
  obtain ⟨ds, rfl⟩ := ht
  exact ⟨cs ++ ds, List.flatMap_append.symm⟩

theorem WellFormed.cons {s : Utf16} {u : UInt16} (hhigh : isHigh u = false) (hlow : isLow u = false)
    (h : s.WellFormed) : WellFormed (u :: s) :=
  .append (s := [u]) ⟨[Char.ofNat u.toNat], by rw [ofChars, List.flatMap_singleton,
    units_ofNat hhigh hlow]⟩ h

theorem WellFormed.cons_pair {s : Utf16} {u v : UInt16} (hu : isHigh u = true) (hv : isLow v = true)
    (h : s.WellFormed) : WellFormed (u :: v :: s) :=
  .append (s := [u, v]) ⟨[pair u v], by rw [ofChars, List.flatMap_singleton, units_pair hu hv]⟩ h

/-- A string that has no surrogate without a pair is made up of its characters. -/
theorem ofChars_chars {lone : Char} {s : Utf16} (h : lone ∉ chars lone s) :
    ofChars (chars lone s) = s := by
  fun_induction chars lone s with
  | case1 => rfl
  | case2 u =>
    rw [List.mem_singleton] at h
    simpa [ofChars] using units_single (Ne.symm h)
  | case3 u v rest hp ih =>
    rw [List.mem_cons, not_or] at h
    rw [Bool.and_eq_true] at hp
    rw [ofChars, List.flatMap_cons, units_pair hp.1 hp.2, ← ofChars, ih h.2]
    rfl
  | case4 u v rest hp ih =>
    rw [List.mem_cons, not_or] at h
    rw [ofChars, List.flatMap_cons, units_single (Ne.symm h.1), ← ofChars, ih h.2]
    rfl

end Utf16

namespace Utf8

def encode (cs : List Char) : Bytes := cs.flatMap String.utf8EncodeChar

/-- A sequence that has begun: how many bytes it still needs, the range of the next one, and the
bits so far. -/
structure Partial where
  needed : Nat
  lower : Nat
  upper : Nat
  codePoint : Nat
  deriving DecidableEq, Repr

def replacement : Char := Char.ofNat 0xFFFD

def feedFirst (b : UInt8) : List Char × Option Partial :=
  let n := b.toNat
  if n ≤ 0x7F then ([Char.ofNat n], none)
  else if 0xC2 ≤ n ∧ n ≤ 0xDF then ([], some ⟨1, 0x80, 0xBF, n - 0xC0⟩)
  else if 0xE0 ≤ n ∧ n ≤ 0xEF then
    ([], some ⟨2, if n = 0xE0 then 0xA0 else 0x80, if n = 0xED then 0x9F else 0xBF, n - 0xE0⟩)
  else if 0xF0 ≤ n ∧ n ≤ 0xF4 then
    ([], some ⟨3, if n = 0xF0 then 0x90 else 0x80, if n = 0xF4 then 0x8F else 0xBF, n - 0xF0⟩)
  else ([replacement], none)

/-- What a byte yields.  A byte that the sequence cannot go on with ends it, and begins anew. -/
def feed : Option Partial → UInt8 → List Char × Option Partial
  | none, b => feedFirst b
  | some q, b =>
    if q.lower ≤ b.toNat ∧ b.toNat ≤ q.upper then
      let codePoint := q.codePoint * 64 + (b.toNat - 0x80)
      if q.needed = 1 then ([Char.ofNat codePoint], none)
      else ([], some ⟨q.needed - 1, 0x80, 0xBF, codePoint⟩)
    else (replacement :: (feedFirst b).1, (feedFirst b).2)

def decodeFrom : Option Partial → Bytes → List Char
  | none, [] => []
  | some _, [] => [replacement]
  | p, b :: bs => (feed p b).1 ++ decodeFrom (feed p b).2 bs

def decode (bs : Bytes) : List Char := decodeFrom none bs

theorem decodeFrom_cons (p : Option Partial) (b : UInt8) (bs : Bytes) :
    decodeFrom p (b :: bs) = (feed p b).1 ++ decodeFrom (feed p b).2 bs := by
  cases p <;> rfl

section Feed

variable {q : Partial} {n : Nat}

theorem feed_one (h : n ≤ 0x7F) : feed none (UInt8.ofNat n) = ([Char.ofNat n], none) := by
  simp only [feed, feedFirst, UInt8.toNat_ofNat_of_lt' (show n < 256 by omega)]
  rw [if_pos h]

theorem feed_two (h : 0xC2 ≤ n ∧ n ≤ 0xDF) :
    feed none (UInt8.ofNat n) = ([], some ⟨1, 0x80, 0xBF, n - 0xC0⟩) := by
  simp only [feed, feedFirst, UInt8.toNat_ofNat_of_lt' (show n < 256 by omega)]
  rw [if_neg (by omega), if_pos h]

theorem feed_three (h : 0xE0 ≤ n ∧ n ≤ 0xEF) :
    feed none (UInt8.ofNat n) =
      ([], some ⟨2, if n = 0xE0 then 0xA0 else 0x80, if n = 0xED then 0x9F else 0xBF,
        n - 0xE0⟩) := by
  simp only [feed, feedFirst, UInt8.toNat_ofNat_of_lt' (show n < 256 by omega)]
  rw [if_neg (by omega), if_neg (by omega), if_pos h]

theorem feed_four (h : 0xF0 ≤ n ∧ n ≤ 0xF4) :
    feed none (UInt8.ofNat n) =
      ([], some ⟨3, if n = 0xF0 then 0x90 else 0x80, if n = 0xF4 then 0x8F else 0xBF,
        n - 0xF0⟩) := by
  simp only [feed, feedFirst, UInt8.toNat_ofNat_of_lt' (show n < 256 by omega)]
  rw [if_neg (by omega), if_neg (by omega), if_neg (by omega), if_pos h]

theorem feed_more (hn : n < 256) (h : q.lower ≤ n ∧ n ≤ q.upper) (hq : q.needed ≠ 1) :
    feed (some q) (UInt8.ofNat n) =
      ([], some ⟨q.needed - 1, 0x80, 0xBF, q.codePoint * 64 + (n - 0x80)⟩) := by
  simp only [feed, UInt8.toNat_ofNat_of_lt' hn]
  rw [if_pos h, if_neg hq]

theorem feed_last (hn : n < 256) (h : q.lower ≤ n ∧ n ≤ q.upper) (hq : q.needed = 1) :
    feed (some q) (UInt8.ofNat n) = ([Char.ofNat (q.codePoint * 64 + (n - 0x80))], none) := by
  simp only [feed, UInt8.toNat_ofNat_of_lt' hn]
  rw [if_pos h, if_pos hq]

end Feed

theorem decodeFrom_encodeChar (c : Char) (bs : Bytes) :
    decodeFrom none (String.utf8EncodeChar c ++ bs) = c :: decodeFrom none bs := by
  have hr := Utf16.scalar_range c
  have hv : c.val.toNat = c.toNat := rfl
  have hc := Char.ofNat_toNat c
  unfold String.utf8EncodeChar
  simp only [hv]
  generalize c.toNat = v at hr hc ⊢
  subst hc
  split
  · simp only [List.cons_append, List.nil_append, decodeFrom_cons]
    rw [feed_one (by omega)]
    rfl
  split
  · simp only [List.cons_append, List.nil_append, decodeFrom_cons]
    rw [feed_two (by omega)]
    simp only
    rw [feed_last (by omega) (by simp only; omega) rfl]
    have hcp : (v / 64 % 32 + 192 - 192) * 64 + (v % 64 + 128 - 128) = v := by omega
    rw [hcp]
    rfl
  split
  · simp only [List.cons_append, List.nil_append, decodeFrom_cons]
    rw [feed_three (by omega)]
    simp only
    rw [feed_more (by omega) (by simp only; split <;> split <;> omega) (by simp)]
    simp only
    rw [feed_last (by omega) (by simp only; omega) rfl]
    have hcp : ((v / 4096 % 16 + 224 - 224) * 64 + (v / 64 % 64 + 128 - 128)) * 64 +
        (v % 64 + 128 - 128) = v := by omega
    rw [hcp]
    rfl
  · simp only [List.cons_append, List.nil_append, decodeFrom_cons]
    rw [feed_four (by omega)]
    simp only
    rw [feed_more (by omega) (by simp only; split <;> split <;> omega) (by simp)]
    simp only
    rw [feed_more (by omega) (by simp only; omega) (by simp)]
    simp only
    rw [feed_last (by omega) (by simp only; omega) rfl]
    have hcp : (((v / 262144 % 8 + 240 - 240) * 64 + (v / 4096 % 64 + 128 - 128)) * 64 +
        (v / 64 % 64 + 128 - 128)) * 64 + (v % 64 + 128 - 128) = v := by omega
    rw [hcp]
    rfl

theorem decode_encode (cs : List Char) : decode (encode cs) = cs := by
  induction cs with
  | nil => rfl
  | cons c cs ih =>
    rw [decode, encode, List.flatMap_cons, decodeFrom_encodeChar, ← encode, ← decode, ih]

theorem encode_inj {cs ds : List Char} (h : encode cs = encode ds) : cs = ds := by
  rw [← decode_encode cs, h, decode_encode]

/-- The UTF-8 form of a string: `TextEncoder.encode`, and `Buffer.from` of a string. -/
def textEncode (s : Utf16) : Bytes := encode (s.chars replacement)

theorem textEncode_cons {u : UInt16} (h : Utf16.isHigh u = false) (rest : Utf16) :
    textEncode (u :: rest) = textEncode [u] ++ textEncode rest := by
  rw [textEncode, Utf16.chars_cons _ h, encode, List.flatMap_cons, textEncode, Utf16.chars_cons _ h,
    encode, List.flatMap_cons, textEncode]
  simp [Utf16.chars, encode]

theorem textEncode_ofChars (cs : List Char) : textEncode (Utf16.ofChars cs) = encode cs := by
  rw [textEncode, Utf16.chars_ofChars]

/-! ### Reading from the right -/

def isContinuation (b : UInt8) : Bool := b.toNat / 64 = 2

/-- The first byte of a character tells it apart from the others. -/
theorem exists_utf8EncodeChar_eq (c : Char) : ∃ b bs, String.utf8EncodeChar c = b :: bs ∧
    isContinuation b = false ∧ ∀ b' ∈ bs, isContinuation b' = true := by
  have hr := Utf16.scalar_range c
  have hv : c.val.toNat = c.toNat := rfl
  have lead (n : Nat) (h : n < 128 ∨ 192 ≤ n) (hn : n < 256) :
      isContinuation (UInt8.ofNat n) = false := by
    rw [isContinuation, UInt8.toNat_ofNat_of_lt' hn, decide_eq_false_iff_not]
    omega
  have more (n : Nat) : isContinuation (UInt8.ofNat (n % 64 + 128)) = true := by
    rw [isContinuation, UInt8.toNat_ofNat_of_lt' (show _ < 256 by omega), decide_eq_true_eq]
    omega
  unfold String.utf8EncodeChar
  simp only [hv]
  generalize c.toNat = v at hr ⊢
  split
  · exact ⟨_, _, rfl, lead _ (by omega) (by omega), by simp⟩
  split
  · exact ⟨_, _, rfl, lead _ (by omega) (by omega), by simp [-UInt8.ofNat_add, more]⟩
  split
  · exact ⟨_, _, rfl, lead _ (by omega) (by omega), by simp [-UInt8.ofNat_add, more]⟩
  · exact ⟨_, _, rfl, lead _ (by omega) (by omega), by simp [-UInt8.ofNat_add, more]⟩

theorem utf8EncodeChar_inj {c d : Char}
    (h : String.utf8EncodeChar c = String.utf8EncodeChar d) : c = d := by
  have hdecode := congrArg (decodeFrom none) h
  rw [← List.append_nil (String.utf8EncodeChar c), ← List.append_nil (String.utf8EncodeChar d),
    decodeFrom_encodeChar, decodeFrom_encodeChar] at hdecode
  exact (List.cons.inj hdecode).1

/-- No character ends in another one. -/
theorem eq_nil_of_utf8EncodeChar_eq {u : Bytes} {c d : Char}
    (h : String.utf8EncodeChar c = u ++ String.utf8EncodeChar d) : u = [] := by
  obtain ⟨b, bs, hc, -, hbs⟩ := exists_utf8EncodeChar_eq c
  obtain ⟨b', bs', hd, hb', -⟩ := exists_utf8EncodeChar_eq d
  cases u with
  | nil => rfl
  | cons x u =>
    rw [hc, hd, List.cons_append, List.cons.injEq] at h
    have hmore := hbs b' (by simp [h.2])
    rw [hb'] at hmore
    cases hmore

theorem append_utf8EncodeChar_inj {a b : Bytes} {c d : Char}
    (h : a ++ String.utf8EncodeChar c = b ++ String.utf8EncodeChar d) : a = b ∧ c = d := by
  rcases List.append_eq_append_iff.mp h with ⟨u, rfl, hu⟩ | ⟨u, rfl, hu⟩
  · obtain rfl := eq_nil_of_utf8EncodeChar_eq hu
    exact ⟨(List.append_nil a).symm, utf8EncodeChar_inj hu⟩
  · obtain rfl := eq_nil_of_utf8EncodeChar_eq hu
    exact ⟨List.append_nil b, utf8EncodeChar_inj hu.symm⟩

theorem encode_append_singleton (cs : List Char) (c : Char) :
    encode (cs ++ [c]) = encode cs ++ String.utf8EncodeChar c := by
  simp [encode]

/-- As many characters can be read off the end of some bytes in one way only. -/
theorem append_encode_inj {a b : Bytes} {cs ds : List Char} (hlen : cs.length = ds.length)
    (h : a ++ encode cs = b ++ encode ds) : a = b ∧ cs = ds := by
  induction cs using List.reverseRecOn generalizing ds with
  | nil =>
    obtain rfl := List.eq_nil_of_length_eq_zero hlen.symm
    exact ⟨by simpa [encode] using h, rfl⟩
  | append_singleton cs c ih =>
    rcases List.eq_nil_or_concat' ds with rfl | ⟨ds, d, rfl⟩
    · simp at hlen
    · rw [encode_append_singleton, encode_append_singleton, ← List.append_assoc,
        ← List.append_assoc] at h
      obtain ⟨hrest, rfl⟩ := append_utf8EncodeChar_inj h
      obtain ⟨rfl, rfl⟩ := ih (by simpa using hlen) hrest
      exact ⟨rfl, rfl⟩

/-! ### What is cut off -/

theorem length_feed_le (p : Option Partial) (b : UInt8) :
    (feed p b).1.length + (feed p b).2.toList.length ≤ 1 + p.toList.length := by
  have hfirst : (feedFirst b).1.length + (feedFirst b).2.toList.length ≤ 1 := by
    unfold feedFirst
    simp only
    repeat' split
    all_goals simp
  cases p with
  | none => exact hfirst
  | some q =>
    simp only [feed]
    split
    · split <;> simp
    · simp only [List.length_cons, Option.toList_some, List.length_nil]
      omega

/-- A byte gives one character at most. -/
theorem length_decodeFrom_le (p : Option Partial) (bs : Bytes) :
    (decodeFrom p bs).length ≤ bs.length + p.toList.length := by
  induction bs generalizing p with
  | nil => cases p <;> simp [decodeFrom]
  | cons b bs ih =>
    have hfeed := length_feed_le p b
    have hrest := ih (feed p b).2
    rw [decodeFrom_cons, List.length_append, List.length_cons]
    omega

theorem decode_encode_append (cs : List Char) (bs : Bytes) :
    decode (encode cs ++ bs) = cs ++ decode bs := by
  induction cs with
  | nil => rfl
  | cons c cs ih =>
    rw [decode, encode, List.flatMap_cons, List.append_assoc, decodeFrom_encodeChar, ← encode,
      ← decode, ih, List.cons_append]

theorem length_utf8EncodeChar_le (c : Char) : (String.utf8EncodeChar c).length ≤ 4 := by
  rw [String.length_utf8EncodeChar]
  exact c.utf8Size_le_four

theorem length_encode_le (cs : List Char) : (encode cs).length ≤ 4 * cs.length := by
  induction cs with
  | nil => rfl
  | cons c cs ih =>
    have hc := length_utf8EncodeChar_le c
    rw [encode, List.flatMap_cons, ← encode, List.length_append, List.length_cons]
    omega

/-- The first bytes of some characters: all of them, or whole characters and a part of the next. -/
theorem take_encode_cases (cs : List Char) (m : Nat) : (encode cs).length ≤ m ∨
    ∃ ds c es p, cs = ds ++ c :: es ∧ (encode cs).take m = encode ds ++ p ∧
      p.length < (String.utf8EncodeChar c).length ∧ m = (encode ds).length + p.length := by
  induction cs generalizing m with
  | nil => exact .inl (Nat.zero_le m)
  | cons c cs ih =>
    have hcons : encode (c :: cs) = String.utf8EncodeChar c ++ encode cs := List.flatMap_cons
    rw [hcons, List.take_append, List.length_append]
    by_cases hm : m < (String.utf8EncodeChar c).length
    · refine .inr ⟨[], c, cs, (String.utf8EncodeChar c).take m, rfl, ?_, ?_, ?_⟩
      · rw [Nat.sub_eq_zero_of_le hm.le, List.take_zero, List.append_nil]
        rfl
      · rwa [List.length_take, Nat.min_eq_left hm.le]
      · rw [List.length_take, Nat.min_eq_left hm.le]
        exact (Nat.zero_add m).symm
    · have hm := Nat.le_of_not_lt hm
      rcases ih (m - (String.utf8EncodeChar c).length) with hle |
        ⟨ds, d, es, p, rfl, htake, hp, hlen⟩
      · exact .inl (by omega)
      · refine .inr ⟨c :: ds, d, es, p, rfl, ?_, hp, ?_⟩
        · rw [List.take_of_length_le hm, htake, ← List.append_assoc]
          rfl
        · rw [encode, List.flatMap_cons, List.length_append, ← encode]
          omega

/-- What decodes to as many characters again has lost none but the last few. -/
theorem length_encode_le_of_take (cs : List Char) (m : Nat)
    (h : cs.length ≤ (decode ((encode cs).take m)).length) : (encode cs).length ≤ m + 12 := by
  rcases take_encode_cases cs m with hle | ⟨ds, c, es, p, rfl, htake, hp, rfl⟩
  · omega
  · have hc := length_utf8EncodeChar_le c
    have hes := length_encode_le es
    have hdecode := length_decodeFrom_le none p
    rw [htake, decode_encode_append, List.length_append, List.length_append, List.length_cons] at h
    have hdecode : (decode p).length ≤ p.length := hdecode
    have hsplit : (encode (ds ++ c :: es)).length =
        (encode ds).length + (String.utf8EncodeChar c).length + (encode es).length := by
      simp [encode, Nat.add_assoc]
    omega

/-- `TextDecoder.decode`, which drops a byte order mark. -/
def textDecode (bs : Bytes) : Utf16 :=
  Utf16.ofChars (decode (if [0xEF, 0xBB, 0xBF].isPrefixOf bs then bs.drop 3 else bs))

def byteOrderMark : Char := Char.ofNat 0xFEFF

theorem decode_of_mark {bs : Bytes} (h : [0xEF, 0xBB, 0xBF].isPrefixOf bs = true) :
    decode bs = byteOrderMark :: decode (bs.drop 3) := by
  obtain ⟨rest, rfl⟩ := List.isPrefixOf_iff_prefix.mp h
  have hmark : ([0xEF, 0xBB, 0xBF] : Bytes) = String.utf8EncodeChar byteOrderMark := by decide
  rw [hmark, decode, decodeFrom_encodeChar]
  rfl

theorem isPrefixOf_encode_iff (cs : List Char) :
    [0xEF, 0xBB, 0xBF].isPrefixOf (encode cs) = true ↔ cs.head? = some byteOrderMark := by
  constructor
  · intro h
    have hdecode := decode_of_mark h
    rw [decode_encode] at hdecode
    rw [hdecode]
    rfl
  · intro h
    obtain ⟨ds, rfl⟩ := List.head?_eq_some_iff.mp h
    exact List.isPrefixOf_iff_prefix.mpr (List.prefix_append _ _)

theorem head?_ofChars_eq_mark_iff (cs : List Char) :
    (Utf16.ofChars cs).head? = some 0xFEFF ↔ cs.head? = some byteOrderMark := by
  cases cs with
  | nil => simp [Utf16.ofChars]
  | cons c cs =>
    rw [Utf16.ofChars, List.flatMap_cons, List.head?_cons, Option.some.injEq, ← Char.toNat_inj]
    have hmark : byteOrderMark.toNat = 0xFEFF := rfl
    have hr := Utf16.scalar_range c
    rw [hmark, Utf16.units]
    split
    · simp only [List.cons_append, List.head?_cons, Option.some.injEq, ← UInt16.toNat_inj]
      rw [UInt16.toNat_ofNat_of_lt' (by assumption)]
      rfl
    · simp only [List.cons_append, List.head?_cons, Option.some.injEq, ← UInt16.toNat_inj]
      rw [UInt16.toNat_ofNat_of_lt' (show _ < 65536 by omega)]
      simp only [UInt16.reduceToNat]
      omega

/-- Decoding takes back the encoding of the strings without lone surrogates and byte order mark. -/
theorem textDecode_textEncode_iff (s : Utf16) :
    textDecode (textEncode s) = s ↔ s.WellFormed ∧ s.head? ≠ some 0xFEFF := by
  constructor
  · intro h
    have hwell : s.WellFormed := ⟨_, h.symm⟩
    refine ⟨hwell, ?_⟩
    intro hmark
    obtain ⟨cs, rfl⟩ := hwell
    have hcs := (head?_ofChars_eq_mark_iff cs).mp hmark
    rw [textEncode_ofChars, textDecode, if_pos ((isPrefixOf_encode_iff cs).mpr hcs)] at h
    have hdecode := decode_of_mark ((isPrefixOf_encode_iff cs).mpr hcs)
    rw [decode_encode] at hdecode
    have hchars := congrArg (Utf16.chars replacement) h
    rw [Utf16.chars_ofChars, Utf16.chars_ofChars] at hchars
    rw [hchars] at hdecode
    exact absurd hdecode.symm (List.cons_ne_self _ _)
  · rintro ⟨⟨cs, rfl⟩, hmark⟩
    rw [ne_eq, head?_ofChars_eq_mark_iff, ← isPrefixOf_encode_iff] at hmark
    rw [textEncode_ofChars, textDecode, if_neg hmark, decode_encode]

/-- A string that can be decoded from the first bytes of its form has few more. -/
theorem length_textEncode_le_of_take {s : Utf16} {m : Nat}
    (h : textDecode ((textEncode s).take m) = s) : (textEncode s).length ≤ m + 12 := by
  obtain ⟨cs, rfl⟩ : s.WellFormed := ⟨_, h.symm⟩
  have hchars := congrArg (Utf16.chars replacement) h
  rw [textEncode_ofChars, textDecode, Utf16.chars_ofChars, Utf16.chars_ofChars] at hchars
  rw [textEncode_ofChars]
  refine length_encode_le_of_take cs m ?_
  split at hchars
  · rename_i hmark
    rw [decode_of_mark hmark, hchars]
    exact Nat.le_succ _
  · exact (congrArg List.length hchars).ge

end Utf8
