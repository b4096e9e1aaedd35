import SmartIdVault.Lib.Json

/-! The text of a number, read back.  `Number.prototype.toString` writes the digits of the mantissa
with a point or with an exponent, and both lead `JSON.parse` to the same decimal. -/

namespace Decimal

theorem strip_normal {m : Int} (hm : m % 10 ≠ 0) (e : Int) :
    ∀ {j fuel : Nat}, j < fuel → strip fuel (m * 10 ^ j) e = ⟨m, e + j, .inl hm⟩
  | 0, fuel + 1, _ => by
    rw [pow_zero, mul_one, strip, dif_pos hm]
    simp
  | j + 1, fuel + 1, h => by
    have hdiv : m * 10 ^ (j + 1) / 10 = m * 10 ^ j := by
      rw [pow_succ, ← mul_assoc, Int.mul_ediv_cancel _ (by decide)]
    have hmod : ¬m * 10 ^ (j + 1) % 10 ≠ 0 := by
      rw [not_not, pow_succ, ← mul_assoc, Int.mul_emod_left]
    rw [strip, dif_neg hmod, hdiv, strip_normal hm (e + 1) (by omega : j < fuel)]
    simp only [mk.injEq, true_and]
    push_cast
    ring

theorem make_normal {m : Int} (hm : m % 10 ≠ 0) (e : Int) (j : Nat) :
    make (m * 10 ^ j) e = ⟨m, e + j, .inl hm⟩ := by
  refine strip_normal hm e (Nat.lt_succ_of_le ?_)
  have hpos : 0 < m.natAbs := by omega
  have hle : 2 ^ j ≤ (m * 10 ^ j).natAbs := by
    rw [Int.natAbs_mul, Int.natAbs_pow]
    calc 2 ^ j ≤ 10 ^ j := Nat.pow_le_pow_left (by decide) j
      _ ≤ m.natAbs * 10 ^ j := Nat.le_mul_of_pos_left _ hpos
  exact (Nat.le_log2 ((Nat.two_pow_pos j).trans_le hle).ne').mpr hle

theorem value_strip {n : Nat} {m e : Int} (h : m.natAbs < 10 ^ n) :
    (strip n m e).value = m * 10 ^ e := by
  induction n generalizing m e with
  | zero =>
    obtain rfl : m = 0 := by simpa using h
    simp [strip, zero, value]
  | succ n ih =>
    rw [strip]
    split
    · rfl
    · rename_i hm
      rw [not_not] at hm
      obtain ⟨k, rfl⟩ := Int.dvd_of_emod_eq_zero hm
      rw [Int.mul_ediv_cancel_left _ (by decide), ih (by omega)]
      push_cast
      rw [zpow_add₀ (by norm_num), zpow_one]
      ring

theorem value_make (m e : Int) : (make m e).value = m * 10 ^ e := by
  refine value_strip ?_
  calc m.natAbs < 2 ^ (m.natAbs.log2 + 1) := Nat.lt_log2_self
    _ ≤ 10 ^ (m.natAbs.log2 + 1) := Nat.pow_le_pow_left (by decide) _

end Decimal

namespace Json

open Utf16 (ofChars)

/-- Nothing follows, or what follows an element of an array or a member of an object. -/
def Ends (s : Utf16) : Prop := ∀ u ∈ s.head?, u = 0x2c ∨ u = 0x5d ∨ u = 0x7d

theorem ends_nil : Ends [] := nofun

/-! ### Digits -/

def AllDigits (cs : List Char) : Prop := ∀ c ∈ cs, c.isDigit = true

theorem toNat_digit {c : Char} (hc : c.isDigit = true) : 48 ≤ c.toNat ∧ c.toNat ≤ 57 := by
  rw [Char.isDigit_iff_toNat] at hc
  exact hc

theorem units_digit {c : Char} (hc : c.isDigit = true) :
    Utf16.units c = [UInt16.ofNat c.toNat] ∧ isDigit (UInt16.ofNat c.toNat) = true ∧
      (UInt16.ofNat c.toNat).toNat = c.toNat := by
  have hrange := toNat_digit hc
  have htoNat : (UInt16.ofNat c.toNat).toNat = c.toNat :=
    UInt16.toNat_ofNat_of_lt' (show c.toNat < 65536 by omega)
  refine ⟨?_, ?_, htoNat⟩
  · rw [Utf16.units, if_pos (by omega)]
  · rw [isDigit, Bool.and_eq_true, decide_eq_true_eq, decide_eq_true_eq, UInt16.le_iff_toNat_le,
      UInt16.le_iff_toNat_le, htoNat]
    exact hrange

theorem ofChars_digit_cons {c : Char} (hc : c.isDigit = true) (cs : List Char) :
    ofChars (c :: cs) = UInt16.ofNat c.toNat :: ofChars cs := by
  rw [ofChars, List.flatMap_cons, (units_digit hc).1]
  rfl

theorem AllDigits.isDigit {cs : List Char} (hcs : AllDigits cs) {u : UInt16}
    (hu : u ∈ ofChars cs) : isDigit u = true := by
  obtain ⟨c, hc, hu⟩ := List.mem_flatMap.mp hu
  obtain ⟨hunits, hdigit, -⟩ := units_digit (hcs c hc)
  rw [hunits, List.mem_singleton] at hu
  exact hu ▸ hdigit

/-- The digits at the beginning are read up to where they end. -/
theorem digits_ofChars {cs : List Char} {rest : Utf16} (hcs : AllDigits cs)
    (hrest : ∀ u ∈ rest.head?, isDigit u = false) :
    digits (ofChars cs ++ rest) = (cs.map fun c => c.toNat - 48, rest) := by
  induction cs with
  | nil =>
    cases rest with
    | nil => rfl
    | cons u rest =>
      have hu : isDigit u = false := hrest u rfl
      simp [digits, ofChars, hu]
  | cons c cs ih =>
    obtain ⟨-, hdigit, htoNat⟩ := units_digit (hcs c (List.mem_cons_self ..))
    have hrec := ih fun c' hc' => hcs c' (List.mem_cons_of_mem _ hc')
    rw [ofChars_digit_cons (hcs c (List.mem_cons_self ..)), List.cons_append]
    simp only [digits, List.takeWhile_cons, List.dropWhile_cons, hdigit, if_true, List.map_cons,
      htoNat, Prod.mk.injEq] at hrec ⊢
    exact ⟨by rw [hrec.1], hrec.2⟩

theorem ofDigits_map (cs : List Char) (init : Nat) :
    (cs.map fun c => c.toNat - 48).foldl (fun n d => n * 10 + d) init =
      Nat.ofDigitChars 10 cs init := by
  induction cs generalizing init with
  | nil => rfl
  | cons c cs ih =>
    rw [List.map_cons, List.foldl_cons, ih, Nat.ofDigitChars_cons, Nat.mul_comm]
    rfl

theorem ofDigits_eq (cs : List Char) :
    ofDigits (cs.map fun c => c.toNat - 48) = Nat.ofDigitChars 10 cs 0 := ofDigits_map cs 0

theorem allDigits_toDigits (n : Nat) : AllDigits (Nat.toDigits 10 n) :=
  fun _ hc => Nat.isDigit_of_mem_toDigits (by decide) (by decide) hc

theorem isDigit_of_mem_decimal {n : Nat} {u : UInt16} (hu : u ∈ Utf16.ofString (toString n)) :
    isDigit u = true := (allDigits_toDigits n).isDigit (by simpa [Utf16.ofString] using hu)

theorem allDigits_replicate (n : Nat) : AllDigits (List.replicate n '0') := by
  intro c hc
  rw [List.eq_of_mem_replicate hc]
  rfl

theorem AllDigits.append {cs cs' : List Char} (h : AllDigits cs) (h' : AllDigits cs') :
    AllDigits (cs ++ cs') := fun c hc => (List.mem_append.mp hc).elim (h c) (h' c)

/-- A number that is not zero has no leading zero. -/
theorem head_toDigits {n : Nat} (hn : 0 < n) : (Nat.toDigits 10 n).head? ≠ some '0' := by
  induction n using Nat.strongRecOn with
  | _ n ih =>
    by_cases hlt : n < 10
    · have hsmall : ∀ m : Nat, m < 10 → 0 < m → [m.digitChar].head? ≠ some '0' := by decide
      rw [Nat.toDigits_of_lt_base hlt]
      exact hsmall n hlt hn
    · rw [Nat.toDigits_of_base_le (by decide) (Nat.le_of_not_lt hlt),
        List.head?_append_of_ne_nil _ Nat.toDigits_ne_nil]
      exact ih (n / 10) (by omega) (by omega)

/-! ### Numbers -/

theorem Ends.not_digit {rest : Utf16} (h : Ends rest) : ∀ u ∈ rest.head?, isDigit u = false := by
  intro u hu
  obtain rfl | rfl | rfl := h u hu
  all_goals rfl

theorem Ends.fraction {rest : Utf16} (h : Ends rest) : fraction rest = some ([], rest) := by
  cases rest with
  | nil => rfl
  | cons u rest =>
    obtain rfl | rfl | rfl := h u rfl
    all_goals rfl

theorem Ends.exponent {rest : Utf16} (h : Ends rest) : exponent rest = some (0, rest) := by
  cases rest with
  | nil => rfl
  | cons u rest =>
    obtain rfl | rfl | rfl := h u rfl
    all_goals rfl

/-- The exponent in the text of a number. -/
def exponentText (x : Int) : List Char :=
  'e' :: (if 0 ≤ x then '+' else '-') :: Nat.toDigits 10 x.natAbs

theorem exponent_text (x : Int) {rest : Utf16} (h : Ends rest) :
    exponent (ofChars (exponentText x) ++ rest) = some (x, rest) := by
  have hdigits : exponentDigits (ofChars (Nat.toDigits 10 x.natAbs) ++ rest) =
      some (x.natAbs, rest) := by
    have hne : (Nat.toDigits 10 x.natAbs).map (fun c => c.toNat - 48) ≠ [] := by
      rw [ne_eq, List.map_eq_nil_iff]
      exact Nat.toDigits_ne_nil
    rw [exponentDigits, digits_ofChars (allDigits_toDigits _) h.not_digit, if_neg hne, ofDigits_eq,
      Nat.ofDigitChars_ten_toDigits]
  by_cases hx : 0 ≤ x
  · have htext : ofChars (exponentText x) ++ rest =
        0x65 :: 0x2b :: (ofChars (Nat.toDigits 10 x.natAbs) ++ rest) := by
      rw [exponentText, if_pos hx]
      rfl
    rw [htext]
    simp only [exponent, true_or, if_true, hdigits, Option.map_some]
    rw [Int.natAbs_of_nonneg hx]
  · have htext : ofChars (exponentText x) ++ rest =
        0x65 :: 0x2d :: (ofChars (Nat.toDigits 10 x.natAbs) ++ rest) := by
      rw [exponentText, if_neg hx]
      rfl
    rw [htext]
    simp only [exponent, true_or, if_true, hdigits, Option.map_some]
    rw [show -(x.natAbs : Int) = x by omega]

/-- The digits before the point, which begin with a zero only if that is all of them. -/
def Whole (cs : List Char) : Prop := AllDigits cs ∧ cs ≠ [] ∧ (cs.head? = some '0' → cs.length = 1)

/-- A number in three parts. -/
theorem unsigned_of (frac : List Char) {int : List Char} {s s' s'' : Utf16} {e : Int}
    (hint : Whole int) (hs : ∀ u ∈ s.head?, isDigit u = false)
    (hfrac : fraction s = some (frac.map fun c => c.toNat - 48, s'))
    (hexp : exponent s' = some (e, s'')) :
    unsigned (ofChars int ++ s) =
      some ((Nat.ofDigitChars 10 (int ++ frac) 0, e - frac.length), s'') := by
  obtain ⟨hdigits, hne, hzero⟩ := hint
  have hok : ¬((int.map fun c => c.toNat - 48) = [] ∨
      (int.map fun c => c.toNat - 48).head? = some 0 ∧
        1 < (int.map fun c => c.toNat - 48).length) := by
    rw [List.map_eq_nil_iff, List.length_map]
    rintro (hnil | ⟨hhead, hlong⟩)
    · exact hne hnil
    · cases int with
      | nil => exact hne rfl
      | cons c cs =>
        have hc := toNat_digit (hdigits c (List.mem_cons_self ..))
        have hsub : c.toNat - 48 = 0 := Option.some.inj hhead
        have hc0 : c = '0' := Char.toNat_inj.mp (show c.toNat = 48 by omega)
        have := hzero (by rw [hc0]; rfl)
        omega
  simp only [unsigned, digits_ofChars hdigits hs, if_neg hok, hfrac, hexp, Option.bind_eq_bind,
    Option.bind_some, Option.pure_def, ← List.map_append, ofDigits_eq]
  rw [List.length_map]

theorem fraction_point {frac : List Char} (hdigits : AllDigits frac) (hne : frac ≠ []) {s : Utf16}
    (hs : ∀ u ∈ s.head?, isDigit u = false) :
    fraction (0x2e :: (ofChars frac ++ s)) = some (frac.map fun c => c.toNat - 48, s) := by
  have hsome : (frac.map fun c => c.toNat - 48) ≠ [] := by rwa [ne_eq, List.map_eq_nil_iff]
  rw [fraction, digits_ofChars hdigits hs, if_neg hsome]

/-- Digits, a point and digits, with what `layout` puts behind them. -/
theorem unsigned_point {int frac : List Char} (hint : Whole int) (hfrac : AllDigits frac)
    (hne : frac ≠ []) {s s' : Utf16} {e : Int} (hs : ∀ u ∈ s.head?, isDigit u = false)
    (hexp : exponent s = some (e, s')) :
    unsigned (ofChars int ++ 0x2e :: (ofChars frac ++ s)) =
      some ((Nat.ofDigitChars 10 (int ++ frac) 0, e - frac.length), s') :=
  unsigned_of frac hint (fun _ hu => Option.some.inj hu ▸ rfl) (fraction_point hfrac hne hs) hexp

section Layout

variable {cs : List Char} {rest : Utf16}

theorem ofChars_append (xs ys : List Char) : ofChars (xs ++ ys) = ofChars xs ++ ofChars ys :=
  List.flatMap_append

theorem whole_append {ds : List Char} (hcs : AllDigits cs) (hne : cs ≠ [])
    (hhead : cs.head? ≠ some '0') (hds : AllDigits ds) : Whole (cs ++ ds) := by
  refine ⟨hcs.append hds, by simp [hne], ?_⟩
  rw [List.head?_append_of_ne_nil _ hne]
  exact fun hzero => absurd hzero hhead

/-- Zeros up to the point. -/
theorem unsigned_zeros (hcs : AllDigits cs) (hne : cs ≠ []) (hhead : cs.head? ≠ some '0')
    (h : Ends rest) (k : Nat) : unsigned (ofChars (cs ++ List.replicate k '0') ++ rest) =
      some ((Nat.ofDigitChars 10 cs 0 * 10 ^ k, 0), rest) := by
  rw [unsigned_of [] (whole_append hcs hne hhead (allDigits_replicate k)) h.not_digit h.fraction
    h.exponent, List.append_nil, Nat.ofDigitChars_append, Nat.ofDigitChars_replicate_zero,
    Nat.mul_comm]
  rfl

/-- A point among the digits. -/
theorem unsigned_inside {m : Nat} (hcs : AllDigits cs) (hhead : cs.head? ≠ some '0')
    (h : Ends rest) (hpos : 0 < m) (hm : m < cs.length) :
    unsigned (ofChars (cs.take m ++ '.' :: cs.drop m) ++ rest) =
      some ((Nat.ofDigitChars 10 cs 0, (m : Int) - cs.length), rest) := by
  have hint : Whole (cs.take m) := by
    refine ⟨fun c hc => hcs c (List.mem_of_mem_take hc), ?_, ?_⟩
    · exact List.ne_nil_of_length_pos (by rw [List.length_take]; omega)
    · rw [List.head?_take, if_neg (by omega)]
      exact fun hzero => absurd hzero hhead
  have hfrac : AllDigits (cs.drop m) := fun c hc => hcs c (List.mem_of_mem_drop hc)
  have hfrac' : cs.drop m ≠ [] := by
    rw [ne_eq, List.drop_eq_nil_iff]
    omega
  have hpoint (ys : List Char) : ofChars ('.' :: ys) = 0x2e :: ofChars ys := rfl
  rw [ofChars_append, hpoint, List.append_assoc, List.cons_append,
    unsigned_point hint hfrac hfrac' h.not_digit h.exponent, List.take_append_drop]
  simp only [List.length_drop, Option.some.injEq, Prod.mk.injEq, true_and, and_true]
  omega

/-- Zeros after the point. -/
theorem unsigned_small (hcs : AllDigits cs) (hne : cs ≠ []) (h : Ends rest) (k : Nat) :
    unsigned (ofChars ('0' :: '.' :: List.replicate k '0' ++ cs) ++ rest) =
      some ((Nat.ofDigitChars 10 cs 0, -(k : Int) - cs.length), rest) := by
  have hint : Whole ['0'] := ⟨by simp [AllDigits, Char.isDigit], by simp, fun _ => rfl⟩
  have hfrac : AllDigits (List.replicate k '0' ++ cs) := (allDigits_replicate _).append hcs
  have htext : ofChars ('0' :: '.' :: List.replicate k '0' ++ cs) ++ rest =
      ofChars ['0'] ++ 0x2e :: (ofChars (List.replicate k '0' ++ cs) ++ rest) := rfl
  rw [htext, unsigned_point hint hfrac (by simp [hne]) h.not_digit h.exponent,
    Nat.ofDigitChars_append, Nat.ofDigitChars_append, Nat.ofDigitChars_replicate_zero]
  simp only [List.length_append, List.length_replicate, Option.some.injEq, Prod.mk.injEq,
    and_true]
  refine ⟨by simp [Nat.ofDigitChars_cons], ?_⟩
  omega

/-- A digit, others after the point, and an exponent. -/
theorem unsigned_exponent {d : Char} {ds : List Char} (hds : AllDigits (d :: ds)) (h : Ends rest)
    (x : Int) :
    unsigned (ofChars (d :: (if ds = [] then [] else '.' :: ds) ++ exponentText x) ++ rest) =
      some ((Nat.ofDigitChars 10 (d :: ds) 0, x - ds.length), rest) := by
  have hint : Whole [d] := ⟨by simpa [AllDigits] using hds d (List.mem_cons_self ..), by simp,
    fun _ => rfl⟩
  have hexp : ∀ u ∈ (ofChars (exponentText x) ++ rest).head?, isDigit u = false :=
    fun _ hu => Option.some.inj hu ▸ rfl
  split
  · rename_i hnil
    subst hnil
    have htext : ofChars (d :: [] ++ exponentText x) ++ rest =
        ofChars [d] ++ (ofChars (exponentText x) ++ rest) := by
      rw [ofChars_append, List.append_assoc]
    have hnone : fraction (ofChars (exponentText x) ++ rest) =
        some (([] : List Char).map fun c => c.toNat - 48, ofChars (exponentText x) ++ rest) := rfl
    rw [htext, unsigned_of [] hint hexp hnone (exponent_text _ h)]
    rfl
  · rename_i hne
    have hfrac : AllDigits ds := fun c hc => hds c (List.mem_cons_of_mem _ hc)
    have htext : ofChars (d :: '.' :: ds ++ exponentText x) ++ rest =
        ofChars [d] ++ 0x2e :: (ofChars ds ++ (ofChars (exponentText x) ++ rest)) := by
      have hpoint : ofChars (d :: '.' :: ds) = ofChars [d] ++ 0x2e :: ofChars ds :=
        ofChars_append [d] ('.' :: ds)
      rw [ofChars_append, hpoint, List.append_assoc, List.append_assoc, List.cons_append]
    rw [htext, unsigned_point hint hfrac hne hexp (exponent_text _ h)]
    rfl

/-- Digits and a point in the place that `layout` gives it are read back. -/
theorem unsigned_layout (hcs : AllDigits cs) (hne : cs ≠ []) (hhead : cs.head? ≠ some '0') (n : Int)
    (h : Ends rest) :
    ∃ j : Nat, unsigned (ofChars (Decimal.layout cs n) ++ rest) =
      some ((Nat.ofDigitChars 10 cs 0 * 10 ^ j, n - cs.length - j), rest) := by
  unfold Decimal.layout
  dsimp only
  split
  · rename_i hn
    refine ⟨(n - cs.length).toNat, ?_⟩
    rw [unsigned_zeros hcs hne hhead h]
    simp only [Option.some.injEq, Prod.mk.injEq, true_and, and_true]
    omega
  rename_i hlarge
  refine ⟨0, ?_⟩
  rw [pow_zero, Nat.mul_one, Int.natCast_zero, Int.sub_zero]
  split
  · rename_i hn
    rw [unsigned_inside hcs hhead h (by omega) (by omega), Int.toNat_of_nonneg (by omega)]
  split
  · rename_i hn
    rw [unsigned_small hcs hne h, Int.toNat_of_nonneg (by omega), Int.neg_neg]
  · obtain ⟨d, ds, rfl⟩ := List.exists_cons_of_ne_nil hne
    have hexponent := unsigned_exponent hcs h (n - 1)
    have hlength : n - 1 - (ds.length : Int) = n - ((d :: ds).length : Int) := by
      rw [List.length_cons]
      omega
    rw [hlength] at hexponent
    cases ds with
    | nil => exact hexponent
    | cons d' ds => exact hexponent

end Layout

theorem head_layout {cs : List Char} (hcs : AllDigits cs) (hne : cs ≠ []) (n : Int) :
    ∃ c rest, Decimal.layout cs n = c :: rest ∧ c.isDigit = true := by
  obtain ⟨d, ds, rfl⟩ := List.exists_cons_of_ne_nil hne
  have hd : d.isDigit = true := hcs d (List.mem_cons_self ..)
  unfold Decimal.layout
  dsimp only
  split
  · exact ⟨d, _, rfl, hd⟩
  split
  · rename_i hn
    obtain ⟨m, hm⟩ : ∃ m, n.toNat = m + 1 := ⟨n.toNat - 1, by omega⟩
    rw [hm]
    exact ⟨d, _, rfl, hd⟩
  split
  · exact ⟨'0', _, rfl, rfl⟩
  · cases ds with
    | nil => exact ⟨d, _, rfl, hd⟩
    | cons d' ds => exact ⟨d, _, rfl, hd⟩

/-- The digits of the mantissa, and a number by them. -/
theorem text_of_ne_zero {d : Decimal} (hd : d.mantissa ≠ 0) :
    ∃ cs : List Char, AllDigits cs ∧ cs ≠ [] ∧ cs.head? ≠ some '0' ∧
      Nat.ofDigitChars 10 cs 0 = d.mantissa.natAbs ∧
      d.text = if d.mantissa < 0 then '-' :: Decimal.layout cs (cs.length + d.exponent)
        else Decimal.layout cs (cs.length + d.exponent) := by
  refine ⟨Nat.toDigits 10 d.mantissa.natAbs, allDigits_toDigits _, Nat.toDigits_ne_nil,
    head_toDigits (Int.natAbs_pos.mpr hd), Nat.ofDigitChars_ten_toDigits, ?_⟩
  rw [Decimal.text, if_neg hd]

/-- The text of a number begins with a digit or a sign. -/
theorem head_text (d : Decimal) :
    ∃ u s, ofChars d.text = u :: s ∧ (isDigit u = true ∨ u = 0x2d) := by
  by_cases hd : d.mantissa = 0
  · rw [Decimal.text, if_pos hd]
    exact ⟨0x30, [], rfl, .inl rfl⟩
  · obtain ⟨cs, hcs, hne, -, -, htext⟩ := text_of_ne_zero hd
    obtain ⟨c, tail, hlayout, hc⟩ := head_layout hcs hne (cs.length + d.exponent)
    rw [htext, hlayout]
    split
    · exact ⟨0x2d, _, rfl, .inr rfl⟩
    · exact ⟨_, _, ofChars_digit_cons hc tail, .inl (units_digit hc).2.1⟩

theorem number_of_digit {s : Utf16} (hs : ∃ u ∈ s.head?, isDigit u = true) :
    number s = (unsigned s).map fun ((m, e), s) => (.make m e, s) := by
  unfold number
  split
  · obtain ⟨u, hu, hdigit⟩ := hs
    obtain rfl := Option.some.inj hu
    cases hdigit
  · rfl

theorem number_text (d : Decimal) {rest : Utf16} (h : Ends rest) :
    number (ofChars d.text ++ rest) = some (d, rest) := by
  by_cases hd : d.mantissa = 0
  · have hzero : d = .zero := by
      obtain hnormal | ⟨-, hexponent⟩ := d.normal
      · rw [hd] at hnormal
        exact absurd rfl hnormal
      · cases d
        simp only at hd hexponent
        simp only [Decimal.zero, hd, hexponent]
    have hint : Whole ['0'] := ⟨by simp [AllDigits, Char.isDigit], by simp, fun _ => rfl⟩
    have hunsigned := unsigned_of [] hint h.not_digit h.fraction h.exponent
    rw [Decimal.text, if_pos hd, number_of_digit ⟨0x30, rfl, rfl⟩, hunsigned, hzero]
    rfl
  · have hm : d.mantissa % 10 ≠ 0 := d.normal.resolve_right fun h => hd h.1
    obtain ⟨cs, hcs, hne, hhead, hvalue, htext⟩ := text_of_ne_zero hd
    obtain ⟨j, hunsigned⟩ := unsigned_layout hcs hne hhead (cs.length + d.exponent) h
    have hexponent : (cs.length : Int) + d.exponent - cs.length - j = d.exponent - j := by omega
    rw [hvalue, hexponent] at hunsigned
    have hmake : Decimal.make (d.mantissa * 10 ^ j) (d.exponent - j) = d := by
      rw [Decimal.make_normal hm]
      cases d
      simp
    rw [htext]
    split
    · rename_i hneg
      have hsigned : -((d.mantissa.natAbs * 10 ^ j : Nat) : Int) = d.mantissa * 10 ^ j := by
        push_cast
        rw [abs_of_neg hneg, neg_mul, neg_neg]
      have htail : ofChars ('-' :: Decimal.layout cs (cs.length + d.exponent)) ++ rest =
          0x2d :: (ofChars (Decimal.layout cs (cs.length + d.exponent)) ++ rest) := rfl
      rw [htail, number, hunsigned, Option.map_some]
      dsimp only
      rw [hsigned, hmake]
    · rename_i hpos
      have hsigned : ((d.mantissa.natAbs * 10 ^ j : Nat) : Int) = d.mantissa * 10 ^ j := by
        push_cast
        rw [abs_of_nonneg (not_lt.mp hpos)]
      have hstart : ∃ u ∈ (ofChars (Decimal.layout cs (cs.length + d.exponent)) ++ rest).head?,
          isDigit u = true := by
        obtain ⟨c, tail, hlayout, hc⟩ := head_layout hcs hne (cs.length + d.exponent)
        rw [hlayout, ofChars_digit_cons hc]
        exact ⟨_, rfl, (units_digit hc).2.1⟩
      rw [number_of_digit hstart, hunsigned, Option.map_some]
      dsimp only
      rw [hsigned, hmake]

end Json
