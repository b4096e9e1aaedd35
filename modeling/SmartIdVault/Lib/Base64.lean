import SmartIdVault.Lib.Bytes

/-! Base64 as RFC 4648 writes it, over lists of characters: the standard alphabet with padding,
and the URL-safe alphabet without it. -/

namespace Base64

def charOf (n : Nat) : Char :=
  if n < 26 then Char.ofNat (n + 65)
  else if n < 52 then Char.ofNat (n + 71)
  else if n < 62 then Char.ofNat (n - 4)
  else if n = 62 then '+'
  else '/'

def valueOf (c : Char) : Option Nat :=
  if 'A' ≤ c ∧ c ≤ 'Z' then some (c.toNat - 65)
  else if 'a' ≤ c ∧ c ≤ 'z' then some (c.toNat - 71)
  else if '0' ≤ c ∧ c ≤ '9' then some (c.toNat + 4)
  else if c = '+' then some 62
  else if c = '/' then some 63
  else none

/-- Three bytes in four characters; one or two last bytes are padded to four characters. -/
def encode : Bytes → List Char
  | [] => []
  | [a] => [charOf (a.toNat / 4), charOf (a.toNat % 4 * 16), '=', '=']
  | [a, b] =>
    [charOf (a.toNat / 4), charOf (a.toNat % 4 * 16 + b.toNat / 16), charOf (b.toNat % 16 * 4), '=']
  | a :: b :: c :: rest =>
    charOf (a.toNat / 4) :: charOf (a.toNat % 4 * 16 + b.toNat / 16) ::
      charOf (b.toNat % 16 * 4 + c.toNat / 64) :: charOf (c.toNat % 64) :: encode rest

/-- The bytes of a padded text: whole quanta of four characters, padding only in the last one. -/
def decode : List Char → Option Bytes
  | [] => some []
  | a :: b :: c :: d :: rest => do
    let x ← valueOf a
    let y ← valueOf b
    if rest = [] ∧ d = '=' then
      if c = '=' then
        some [UInt8.ofNat (x * 4 + y / 16)]
      else
        let z ← valueOf c
        some [UInt8.ofNat (x * 4 + y / 16), UInt8.ofNat (y % 16 * 16 + z / 4)]
    else
      let z ← valueOf c
      let w ← valueOf d
      let tail ← decode rest
      some (UInt8.ofNat (x * 4 + y / 16) :: UInt8.ofNat (y % 16 * 16 + z / 4) ::
        UInt8.ofNat (z % 4 * 64 + w) :: tail)
  | _ => none

theorem valueOf_charOf : ∀ n < 64, valueOf (charOf n) = some n := by decide

theorem charOf_ne_pad : ∀ n < 64, charOf n ≠ '=' := by decide

theorem split_bytes (a b c : UInt8) :
    a.toNat / 4 < 64 ∧ a.toNat % 4 * 16 + b.toNat / 16 < 64 ∧
      b.toNat % 16 * 4 + c.toNat / 64 < 64 ∧ c.toNat % 64 < 64 := by
  have ha := a.toNat_lt
  have hb := b.toNat_lt
  have hc := c.toNat_lt
  omega

theorem ofNat_of_toNat {a : UInt8} {n : Nat} (h : n = a.toNat) : UInt8.ofNat n = a := by
  subst h
  exact UInt8.ofNat_toNat

theorem decode_encode (bs : Bytes) : decode (encode bs) = some bs := by
  fun_induction encode bs with
  | case1 => rfl
  | case2 a =>
    obtain ⟨h1, h2, -, -⟩ := split_bytes a 0 0
    simp only [UInt8.toNat_zero, Nat.zero_div, Nat.add_zero] at h2
    have e1 : UInt8.ofNat (a.toNat / 4 * 4 + a.toNat % 4 * 16 / 16) = a :=
      ofNat_of_toNat (by omega)
    simp only [decode, valueOf_charOf _ h1, valueOf_charOf _ h2, Option.bind_eq_bind,
      Option.bind_some, and_self, if_true, e1]
  | case3 a b =>
    obtain ⟨h1, h2, h3, -⟩ := split_bytes a b 0
    simp only [UInt8.toNat_zero, Nat.zero_div, Nat.add_zero] at h3
    have hb := b.toNat_lt
    have e1 : UInt8.ofNat (a.toNat / 4 * 4 + (a.toNat % 4 * 16 + b.toNat / 16) / 16) = a :=
      ofNat_of_toNat (by omega)
    have e2 : UInt8.ofNat ((a.toNat % 4 * 16 + b.toNat / 16) % 16 * 16 +
        b.toNat % 16 * 4 / 4) = b := ofNat_of_toNat (by omega)
    simp only [decode, valueOf_charOf _ h1, valueOf_charOf _ h2, valueOf_charOf _ h3,
      Option.bind_eq_bind, Option.bind_some, and_self, if_true, charOf_ne_pad _ h3, if_false, e1,
      e2]
  | case4 a b c rest ih =>
    obtain ⟨h1, h2, h3, h4⟩ := split_bytes a b c
    have hb := b.toNat_lt
    have hc := c.toNat_lt
    have e1 : UInt8.ofNat (a.toNat / 4 * 4 + (a.toNat % 4 * 16 + b.toNat / 16) / 16) = a :=
      ofNat_of_toNat (by omega)
    have e2 : UInt8.ofNat ((a.toNat % 4 * 16 + b.toNat / 16) % 16 * 16 +
        (b.toNat % 16 * 4 + c.toNat / 64) / 4) = b := ofNat_of_toNat (by omega)
    have e3 : UInt8.ofNat ((b.toNat % 16 * 4 + c.toNat / 64) % 4 * 64 + c.toNat % 64) = c :=
      ofNat_of_toNat (by omega)
    simp only [decode, valueOf_charOf _ h1, valueOf_charOf _ h2, valueOf_charOf _ h3,
      valueOf_charOf _ h4, Option.bind_eq_bind, Option.bind_some, charOf_ne_pad _ h4, and_false,
      if_false, ih, e1, e2, e3]

/-- A text with a character that is neither of the alphabet nor padding has no bytes. -/
theorem decode_eq_none {c : Char} (hv : valueOf c = none) (hpad : c ≠ '=') {text : List Char}
    (hc : c ∈ text) : decode text = none := by
  fun_induction decode text with
  | case1 => contradiction
  | case2 a b z d rest ih =>
    simp only [List.mem_cons] at hc
    rcases hc with rfl | rfl | rfl | rfl | hrest
    · simp [hv]
    · simp [hv]
    · simp [hv, hpad]
    · simp [hv, hpad]
    · -- a later quantum has it, so this one is not the last
      have hne : rest ≠ [] := List.ne_nil_of_mem hrest
      simp [hne, ih hrest]
  | case3 => rfl

/-! ### The URL-safe alphabet -/

def urlChar (c : Char) : Char := if c = '+' then '-' else if c = '/' then '_' else c

def standardChar (c : Char) : Char := if c = '-' then '+' else if c = '_' then '/' else c

/-- The URL-safe text of a byte array, without padding. -/
def encodeUrl (bs : Bytes) : List Char := ((encode bs).filter (· ≠ '=')).map urlChar

def pad (text : List Char) : List Char :=
  text ++ List.replicate ((4 - text.length % 4) % 4) '='

theorem standardChar_urlChar_charOf :
    ∀ n < 64, standardChar (urlChar (charOf n)) = charOf n := by decide

theorem mem_encode (bs : Bytes) : ∀ c ∈ encode bs, c = '=' ∨ ∃ n < 64, c = charOf n := by
  fun_induction encode bs with
  | case1 => simp
  | case2 a =>
    obtain ⟨h1, h2, -, -⟩ := split_bytes a 0 0
    simp only [UInt8.toNat_zero, Nat.zero_div, Nat.add_zero] at h2
    simp only [List.forall_mem_cons]
    exact ⟨.inr ⟨_, h1, rfl⟩, .inr ⟨_, h2, rfl⟩, by simp⟩
  | case3 a b =>
    obtain ⟨h1, h2, h3, -⟩ := split_bytes a b 0
    simp only [UInt8.toNat_zero, Nat.zero_div, Nat.add_zero] at h3
    simp only [List.forall_mem_cons]
    exact ⟨.inr ⟨_, h1, rfl⟩, .inr ⟨_, h2, rfl⟩, .inr ⟨_, h3, rfl⟩, by simp⟩
  | case4 a b c rest ih =>
    obtain ⟨h1, h2, h3, h4⟩ := split_bytes a b c
    simp only [List.forall_mem_cons]
    exact ⟨.inr ⟨_, h1, rfl⟩, .inr ⟨_, h2, rfl⟩, .inr ⟨_, h3, rfl⟩, .inr ⟨_, h4, rfl⟩, ih⟩

theorem map_standardChar_encodeUrl (bs : Bytes) :
    (encodeUrl bs).map standardChar = (encode bs).filter (· ≠ '=') := by
  have same : ∀ c ∈ (encode bs).filter (· ≠ '='), (standardChar ∘ urlChar) c = id c := by
    intro c hc
    simp only [List.mem_filter, decide_eq_true_eq] at hc
    obtain ⟨n, hn, rfl⟩ := (mem_encode bs c hc.1).resolve_left hc.2
    exact standardChar_urlChar_charOf n hn
  rw [encodeUrl, List.map_map, List.map_congr_left same, List.map_id]

theorem pad_filter_encode (bs : Bytes) : pad ((encode bs).filter (· ≠ '=')) = encode bs := by
  fun_induction encode bs with
  | case1 => rfl
  | case2 a =>
    obtain ⟨h1, h2, -, -⟩ := split_bytes a 0 0
    simp only [UInt8.toNat_zero, Nat.zero_div, Nat.add_zero] at h2
    simp [pad, charOf_ne_pad _ h1, charOf_ne_pad _ h2]
  | case3 a b =>
    obtain ⟨h1, h2, h3, -⟩ := split_bytes a b 0
    simp only [UInt8.toNat_zero, Nat.zero_div, Nat.add_zero] at h3
    simp [pad, charOf_ne_pad _ h1, charOf_ne_pad _ h2, charOf_ne_pad _ h3]
  | case4 a b c rest ih =>
    obtain ⟨h1, h2, h3, h4⟩ := split_bytes a b c
    have quantum (n : Nat) : (4 - (n + 1 + 1 + 1 + 1) % 4) % 4 = (4 - n % 4) % 4 := by omega
    simpa [pad, charOf_ne_pad _ h1, charOf_ne_pad _ h2, charOf_ne_pad _ h3, charOf_ne_pad _ h4,
      quantum] using ih

/-- A reader that pads the text and goes over to the standard alphabet undoes `encodeUrl`. -/
theorem decode_pad_encodeUrl (bs : Bytes) :
    decode (pad ((encodeUrl bs).map standardChar)) = some bs := by
  rw [map_standardChar_encodeUrl, pad_filter_encode, decode_encode]

theorem encodeUrl_inj {x y : Bytes} (h : encodeUrl x = encodeUrl y) : x = y := by
  have hdecode := decode_pad_encodeUrl x
  rw [h, decode_pad_encodeUrl] at hdecode
  exact (Option.some.inj hdecode).symm

/-! ### `atob` -/

def isSpace (c : Char) : Bool :=
  c = ' ' || c = '\t' || c = '\n' || c = '\r' || c = Char.ofNat 0x0C

/-- Whole quanta of four characters and a last one of two or three, whose spare bits are lost. -/
def decodeUnpadded : List Char → Option Bytes
  | [] => some []
  | [_] => none
  | [a, b] => do
    let x ← valueOf a
    let y ← valueOf b
    some [UInt8.ofNat (x * 4 + y / 16)]
  | [a, b, c] => do
    let x ← valueOf a
    let y ← valueOf b
    let z ← valueOf c
    some [UInt8.ofNat (x * 4 + y / 16), UInt8.ofNat (y % 16 * 16 + z / 4)]
  | a :: b :: c :: d :: rest => do
    let x ← valueOf a
    let y ← valueOf b
    let z ← valueOf c
    let w ← valueOf d
    let tail ← decodeUnpadded rest
    some (UInt8.ofNat (x * 4 + y / 16) :: UInt8.ofNat (y % 16 * 16 + z / 4) ::
      UInt8.ofNat (z % 4 * 64 + w) :: tail)

/-- The forgiving decoder behind `atob`, or `none` where it throws.  White space is dropped, and the
padding may be missing as a whole. -/
def atob (text : List Char) : Option Bytes :=
  let data := text.filter fun c => !isSpace c
  if data.length % 4 = 0 then decode data else decodeUnpadded data

theorem decodeUnpadded_eq_none {c : Char} (hv : valueOf c = none) {text : List Char}
    (hc : c ∈ text) : decodeUnpadded text = none := by
  fun_induction decodeUnpadded text with
  | case1 => contradiction
  | case2 => rfl
  | case3 a b =>
    simp only [List.mem_cons, List.not_mem_nil, or_false] at hc
    rcases hc with rfl | rfl <;> simp [hv]
  | case4 a b z =>
    simp only [List.mem_cons, List.not_mem_nil, or_false] at hc
    rcases hc with rfl | rfl | rfl <;> simp [hv]
  | case5 a b z d rest ih =>
    simp only [List.mem_cons] at hc
    rcases hc with rfl | rfl | rfl | rfl | hrest
    · simp [hv]
    · simp [hv]
    · simp [hv]
    · simp [hv]
    · simp [ih hrest]

theorem atob_eq_none {c : Char} (hv : valueOf c = none) (hpad : c ≠ '=') (hspace : isSpace c = false)
    {text : List Char} (hc : c ∈ text) : atob text = none := by
  have hdata : c ∈ text.filter fun c => !isSpace c := List.mem_filter.mpr ⟨hc, by simp [hspace]⟩
  simp only [atob]
  split
  · exact decode_eq_none hv hpad hdata
  · exact decodeUnpadded_eq_none hv hdata

theorem length_encode_mod (bs : Bytes) : (encode bs).length % 4 = 0 := by
  fun_induction encode bs with
  | case1 => rfl
  | case2 | case3 => simp only [List.length_cons, List.length_nil]
  | case4 a b c rest ih =>
    simp only [List.length_cons]
    omega

theorem isSpace_charOf : ∀ n < 64, isSpace (charOf n) = false := by decide

theorem atob_encode (bs : Bytes) : atob (encode bs) = some bs := by
  have same : (encode bs).filter (fun c => !isSpace c) = encode bs := by
    apply List.filter_eq_self.mpr
    intro c hc
    rcases mem_encode bs c hc with rfl | ⟨n, hn, rfl⟩
    · rfl
    · rw [isSpace_charOf n hn]; rfl
  rw [atob, same, if_pos (length_encode_mod bs), decode_encode]

end Base64
