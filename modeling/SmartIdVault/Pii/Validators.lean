import Mathlib.Data.List.Forall2
import Mathlib.Data.Nat.Digits.Defs
import Mathlib.Data.Nat.ModEq
import SmartIdVault.Lib.Json
import SmartIdVault.Lib.Regex

/-! The checks of `lib/piiFilter.ts` on card numbers, IBANs and Estonian id codes.  `none` stands
for `NaN`, which `parseInt` gives for a unit that is no digit and which every sum keeps. -/

namespace SmartIdVault.Pii

open Utf16 (ofString)
open Regex (isSpace)

def isUpper (u : UInt16) : Bool := 65 ≤ u && u ≤ 90

def isLower (u : UInt16) : Bool := 97 ≤ u && u ≤ 122

def isAlphanumeric (u : UInt16) : Bool := Json.isDigit u || isUpper u || isLower u

/-- `parseInt(u, 10)` of one unit. -/
def parseDigit (u : UInt16) : Option Nat := if Json.isDigit u then some (u.toNat - 48) else none

/-! ### Card numbers -/

def luhnDouble (n : Nat) : Nat := if 9 < n * 2 then n * 2 - 9 else n * 2

/-- One turn of the loop, with `sum` and `alt`. -/
def luhnStep (state : Option Nat × Bool) (digit : UInt16) : Option Nat × Bool :=
  let n := parseDigit digit
  let n := if state.2 then n.map luhnDouble else n
  (Option.map₂ (· + ·) state.1 n, !state.2)

/-- The digits are read from the last one. -/
def luhnCheck (digits : Utf16) : Bool :=
  (digits.reverse.foldl luhnStep (some 0, false)).1.any fun sum => sum % 10 = 0

/-- `[\s-]`. -/
def isSeparator (u : UInt16) : Bool := isSpace u || u = 0x2d

def isValidCardNumber (digits : Utf16) : Bool :=
  let cleaned := digits.filter fun u => !isSeparator u
  if cleaned.length < 13 || 19 < cleaned.length then false else luhnCheck cleaned

/-! ### IBANs -/

/-- The units above ASCII that `toUpperCase` makes letters of ASCII, and these letters. -/
def asciiUppers : List (UInt16 × Utf16) :=
  [(0xDF, ofString "SS"), (0x131, ofString "I"), (0x17F, ofString "S"), (0xFB00, ofString "FF"),
    (0xFB01, ofString "FI"), (0xFB02, ofString "FL"), (0xFB03, ofString "FFI"),
    (0xFB04, ofString "FFL"), (0xFB05, ofString "ST"), (0xFB06, ofString "ST")]

/-- `toUpperCase` of one unit.  What has no upper case in ASCII is left as it is: an IBAN with such
a unit is not valid in any case. -/
def upperUnit (u : UInt16) : Utf16 :=
  if isLower u then [u - 32] else (asciiUppers.lookup u).getD [u]

def toUpperCase (s : Utf16) : Utf16 := s.flatMap upperUnit

/-- What the first loop appends to `numeric`. -/
def numericUnit (ch : UInt16) : Utf16 :=
  if isUpper ch then ofString (toString (ch.toNat - 55)) else [ch]

def numericOf (rearranged : Utf16) : Utf16 := rearranged.flatMap numericUnit

/-- The second loop. -/
def remainderOf (numeric : Utf16) : Option Nat :=
  numeric.foldlM (fun remainder u => (parseDigit u).map fun d => (remainder * 10 + d) % 97) 0

def ibanCleaned (value : Utf16) : Utf16 := toUpperCase (value.filter fun u => !isSpace u)

def ibanRemainder (cleaned : Utf16) : Option Nat :=
  remainderOf (numericOf (cleaned.drop 4 ++ cleaned.take 4))

def isValidIban (value : Utf16) : Bool :=
  let cleaned := ibanCleaned value
  if cleaned.length < 15 || 34 < cleaned.length then false else ibanRemainder cleaned = some 1

/-! ### Estonian id codes -/

def multipliers1 : List Nat := [1, 2, 3, 4, 5, 6, 7, 8, 9, 1]

def multipliers2 : List Nat := [3, 4, 5, 6, 7, 8, 9, 1, 2, 3]

/-- The loop over the first ten digits. -/
def weightedSum (digits multipliers : List Nat) : Nat :=
  (List.zipWith (· * ·) digits multipliers).sum

def isValidEstonianIdCode (digits : Utf16) : Bool :=
  let cleaned := (digits.filter Json.isDigit).map fun u => u.toNat - 48
  if cleaned.length ≠ 11 then false
  else
    let check := weightedSum cleaned multipliers1 % 11
    let check :=
      if check = 10 then
        let check := weightedSum cleaned multipliers2 % 11
        if check = 10 then 0 else check
      else check
    cleaned[10]? = some check

/-! ### The integer of an IBAN -/

/-- The decimal digits of the number that stands for a letter or a digit: ten for `A`, thirty-five
for `Z`. -/
def digitsOf (u : UInt16) : List Nat :=
  if Json.isDigit u then [u.toNat - 48]
  else
    let n := if isUpper u then u.toNat - 55 else u.toNat - 87
    [n / 10, n % 10]

/-- The integer that an IBAN without spaces is written as, its first four characters last. -/
def ibanInteger (iban : Utf16) : Nat :=
  Nat.ofDigits 10 ((iban.drop 4 ++ iban.take 4).flatMap digitsOf).reverse

/-- A remainder that is kept digit by digit is that of the number which the digits write. -/
theorem foldl_mod_eq (b m : Nat) (ds : List Nat) (r : Nat) :
    ds.foldl (fun r d => (r * b + d) % m) (r % m) =
      (r * b ^ ds.length + Nat.ofDigits b ds.reverse) % m := by
  induction ds generalizing r with
  | nil => simp
  | cons d ds ih =>
    have hstep : (r % m * b + d) % m = (r * b + d) % m := by
      rw [Nat.add_mod, Nat.mod_mul_mod, ← Nat.add_mod]
    rw [List.foldl_cons, hstep, ih, List.reverse_cons, Nat.ofDigits_append, List.length_reverse,
      Nat.ofDigits_singleton, List.length_cons]
    congr 1
    ring

theorem remainderOf_eq {numeric : Utf16} (h : ∀ u ∈ numeric, Json.isDigit u = true) :
    remainderOf numeric =
      some (Nat.ofDigits 10 (numeric.map fun u => u.toNat - 48).reverse % 97) := by
  have hfold (r : Nat) : numeric.foldlM (fun remainder u => (parseDigit u).map fun d =>
      (remainder * 10 + d) % 97) r =
      some ((numeric.map fun u => u.toNat - 48).foldl (fun r d => (r * 10 + d) % 97) r) := by
    induction numeric generalizing r with
    | nil => rfl
    | cons u numeric ih =>
      rw [List.forall_mem_cons] at h
      rw [List.foldlM_cons, parseDigit, if_pos h.1]
      exact ih h.2 _
  rw [remainderOf, hfold]
  simpa using foldl_mod_eq 10 97 (numeric.map fun u => u.toNat - 48) 0

theorem toString_letter : ∀ n < 36, 10 ≤ n →
    ofString (toString n) = [UInt16.ofNat (n / 10 + 48), UInt16.ofNat (n % 10 + 48)] := by
  decide

/-- The characters of the number that a capital letter stands for. -/
theorem numericUnit_of_isUpper {v : UInt16} (h : isUpper v = true) :
    (numericUnit v).map (fun u => u.toNat - 48) = [(v.toNat - 55) / 10, (v.toNat - 55) % 10] ∧
      ∀ w ∈ numericUnit v, Json.isDigit w = true := by
  have hletter : ∀ n < 36, 10 ≤ n →
      (ofString (toString n)).map (fun u => u.toNat - 48) = [n / 10, n % 10] ∧
        ∀ w ∈ ofString (toString n), Json.isDigit w = true := by
    intro n hn hten
    rw [toString_letter n hn hten]
    revert n
    decide
  have hrange : 65 ≤ v.toNat ∧ v.toNat ≤ 90 := by
    simpa [isUpper, UInt16.le_iff_toNat_le] using h
  rw [numericUnit, if_pos h]
  exact hletter (v.toNat - 55) (by omega) (by omega)

theorem lookup_asciiUppers {u : UInt16} (h : u < 0x80) : asciiUppers.lookup u = none := by
  have habove : ∀ p ∈ asciiUppers, 0x80 ≤ p.1 := by decide
  rw [List.lookup_eq_none_iff]
  intro p hp
  have hle := habove p hp
  grind

/-- In `numeric` the unit `v` is written as the decimal digits of the letter or digit `u`. -/
def WrittenAs (u v : UInt16) : Prop :=
  (numericUnit v).map (fun u => u.toNat - 48) = digitsOf u ∧
    ∀ w ∈ numericUnit v, Json.isDigit w = true

/-- What a letter or a digit becomes in `numeric`: its decimal digits. -/
theorem exists_upperUnit {u : UInt16} (h : isAlphanumeric u = true) :
    ∃ v, upperUnit u = [v] ∧ WrittenAs u v := by
  simp only [isAlphanumeric, Bool.or_eq_true, or_assoc] at h
  rcases h with hdigit | hupper | hlower
  · have hlo : isLower u = false := by grind [isLower, Json.isDigit]
    have hup : isUpper u = false := by grind [isUpper, Json.isDigit]
    have hlookup := lookup_asciiUppers (u := u) (by grind [Json.isDigit])
    refine ⟨u, by simp [upperUnit, hlo, hlookup], ?_, ?_⟩ <;>
      simp [numericUnit, digitsOf, hup, hdigit]
  · have hlo : isLower u = false := by grind [isLower, isUpper]
    have hdigit : Json.isDigit u = false := by grind [isUpper, Json.isDigit]
    have hlookup := lookup_asciiUppers (u := u) (by grind [isUpper])
    obtain ⟨hvalue, hdigits⟩ := numericUnit_of_isUpper hupper
    refine ⟨u, by simp [upperUnit, hlo, hlookup], ?_, hdigits⟩
    rw [hvalue, digitsOf, hdigit, hupper]
    rfl
  · have hup : isUpper u = false := by grind [isLower, isUpper]
    have hdigit : Json.isDigit u = false := by grind [isLower, Json.isDigit]
    have hrange : 97 ≤ u.toNat ∧ u.toNat ≤ 122 := by
      simpa [isLower, UInt16.le_iff_toNat_le] using hlower
    have hsub : (u - 32).toNat = u.toNat - 32 := by
      rw [UInt16.toNat_sub_of_le u 32 (by rw [UInt16.le_iff_toNat_le]; show 32 ≤ _; omega)]
      rfl
    have hupper : isUpper (u - 32) = true := by
      simp only [isUpper, Bool.and_eq_true, decide_eq_true_eq, UInt16.le_iff_toNat_le, hsub]
      show 65 ≤ _ ∧ _ ≤ 90
      omega
    obtain ⟨hvalue, hdigits⟩ := numericUnit_of_isUpper hupper
    refine ⟨u - 32, by simp [upperUnit, hlower], ?_, hdigits⟩
    rw [hvalue, hsub, digitsOf, hdigit, hup, Nat.sub_sub]
    rfl

/-- The upper case of letters and digits, one unit for each. -/
theorem exists_toUpperCase {s : Utf16} (h : ∀ u ∈ s, isAlphanumeric u = true) :
    ∃ t, toUpperCase s = t ∧ t.length = s.length ∧ List.Forall₂ WrittenAs s t := by
  induction s with
  | nil => exact ⟨[], rfl, rfl, .nil⟩
  | cons u s ih =>
    rw [List.forall_mem_cons] at h
    obtain ⟨v, hv, hunit⟩ := exists_upperUnit h.1
    obtain ⟨t, ht, hlen, hrest⟩ := ih h.2
    refine ⟨v :: t, ?_, by simpa using hlen, .cons hunit hrest⟩
    show upperUnit u ++ toUpperCase s = v :: t
    rw [hv, ht]
    rfl

theorem numericOf_eq {s t : Utf16} (h : List.Forall₂ WrittenAs s t) :
    (numericOf t).map (fun u => u.toNat - 48) = s.flatMap digitsOf ∧
      ∀ w ∈ numericOf t, Json.isDigit w = true := by
  induction h with
  | nil => exact ⟨rfl, by simp [numericOf]⟩
  | @cons u v s t hunit hrest ih =>
    constructor
    · show (numericUnit v ++ numericOf t).map _ = digitsOf u ++ s.flatMap digitsOf
      rw [List.map_append, hunit.1, ih.1]
    · intro w hw
      rcases List.mem_append.mp (show w ∈ numericUnit v ++ numericOf t from hw) with hw | hw
      · exact hunit.2 w hw
      · exact ih.2 w hw

/-- The loop over the digits of an IBAN has the remainder of its integer. -/
theorem ibanRemainder_toUpperCase {s : Utf16} (h : ∀ u ∈ s, isAlphanumeric u = true) :
    ibanRemainder (toUpperCase s) = some (ibanInteger s % 97) := by
  obtain ⟨t, ht, -, hunits⟩ := exists_toUpperCase h
  have hrearranged := List.rel_append (List.forall₂_drop 4 hunits) (List.forall₂_take 4 hunits)
  obtain ⟨hvalue, hdigits⟩ := numericOf_eq hrearranged
  rw [ht, ibanRemainder, remainderOf_eq hdigits, hvalue, ibanInteger]

/-- An IBAN of letters and digits is valid iff its integer is congruent to one modulo 97, and the
loop computes the remainder of this integer. -/
theorem isValidIban_iff_modEq (value : Utf16)
    (hchars : ∀ u ∈ value, isSpace u = false → isAlphanumeric u = true)
    (hmin : 15 ≤ (value.filter fun u => !isSpace u).length)
    (hmax : (value.filter fun u => !isSpace u).length ≤ 34) :
    ibanRemainder (ibanCleaned value) = some (ibanInteger (value.filter fun u => !isSpace u) % 97) ∧
    (isValidIban value = true ↔ ibanInteger (value.filter fun u => !isSpace u) ≡ 1 [MOD 97]) := by
  have hall : ∀ u ∈ value.filter fun u => !isSpace u, isAlphanumeric u = true := by
    intro u hu
    obtain ⟨hmem, hspace⟩ := List.mem_filter.mp hu
    exact hchars u hmem (by simpa using hspace)
  have hremainder : ibanRemainder (ibanCleaned value) =
      some (ibanInteger (value.filter fun u => !isSpace u) % 97) :=
    ibanRemainder_toUpperCase hall
  refine ⟨hremainder, ?_⟩
  obtain ⟨t, ht, hlen, -⟩ := exists_toUpperCase hall
  have hlength : (ibanCleaned value).length = (value.filter fun u => !isSpace u).length := by
    rw [ibanCleaned, ht, hlen]
  have hin : ¬((decide ((ibanCleaned value).length < 15) ||
      decide (34 < (ibanCleaned value).length)) = true) := by
    simp only [Bool.or_eq_true, decide_eq_true_eq]
    omega
  rw [isValidIban, if_neg hin, hremainder, decide_eq_true_eq, Option.some_inj, Nat.ModEq]

/-- The IBAN `EE38 2200 2210 2014 5685`. -/
theorem isValidIban_sample :
    ibanInteger (ofString "ee382200221020145685") ≡ 1 [MOD 97] ∧
      isValidIban (ofString "ee38 2200 2210 2014 5685") = true := by
  have h := isValidIban_iff_modEq (ofString "ee38 2200 2210 2014 5685")
    (by decide) (by decide) (by decide)
  exact ⟨by decide, h.2.mpr (by decide)⟩

end SmartIdVault.Pii
