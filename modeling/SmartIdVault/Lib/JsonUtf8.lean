import SmartIdVault.Lib.JsonRoundTrip

/-! The text that `JSON.stringify` writes has no lone surrogate, as those of strings are escaped.  So
an object comes back from its text in UTF-8. -/

namespace Json

open Utf16 (WellFormed)

theorem wellFormed_nil : WellFormed [] := ⟨[], rfl⟩

theorem wellFormed_cons {u : UInt16} {s : Utf16} (hu : u < 0x80) (h : WellFormed s) :
    WellFormed (u :: s) := by
  rw [UInt16.lt_iff_toNat_lt] at hu
  have hu : u.toNat < 128 := hu
  refine h.cons ?_ ?_
  · rw [← Bool.not_eq_true, Utf16.isHigh_iff]
    omega
  · rw [← Bool.not_eq_true, Utf16.isLow_iff]
    omega

theorem hexUnit_lt {n : UInt16} (h : n < 16) : hexUnit n < 0x80 := by
  have hsmall : ∀ m < 16, hexUnit (UInt16.ofNat m) < 0x80 := by decide
  have hn := hsmall n.toNat h
  rwa [UInt16.ofNat_toNat] at hn

theorem wellFormed_quoteUnit (u : UInt16) : (quoteUnit u).WellFormed := by
  have hpair {v : UInt16} (hv : v < 0x80) : WellFormed [0x5c, v] :=
    wellFormed_cons (by decide) (wellFormed_cons hv wellFormed_nil)
  unfold quoteUnit
  split
  · rename_i hu
    obtain rfl | rfl := hu
    all_goals exact hpair (by decide)
  iterate 5
    split
    · exact hpair (by decide)
  split
  · obtain ⟨h1, h2, h3, h4, -⟩ := hex_digits u
    exact wellFormed_cons (by decide) <| wellFormed_cons (by decide) <|
      wellFormed_cons (hexUnit_lt h1) <| wellFormed_cons (hexUnit_lt h2) <|
      wellFormed_cons (hexUnit_lt h3) <| wellFormed_cons (hexUnit_lt h4) wellFormed_nil
  · rename_i hplain
    rw [not_or, not_or, Bool.not_eq_true, Bool.not_eq_true] at hplain
    exact wellFormed_nil.cons hplain.2.1 hplain.2.2

theorem wellFormed_quoteBody (s : Utf16) : (quoteBody s).WellFormed := by
  fun_induction quoteBody s with
  | case1 => exact wellFormed_nil
  | case2 u => exact wellFormed_quoteUnit u
  | case3 u v rest hpair ih =>
    rw [Bool.and_eq_true] at hpair
    exact ih.cons_pair hpair.1 hpair.2
  | case4 u v rest hpair ih => exact (wellFormed_quoteUnit u).append ih

theorem wellFormed_quote (s : Utf16) : (quote s).WellFormed :=
  wellFormed_cons (by decide)
    ((wellFormed_quoteBody s).append (wellFormed_cons (by decide) wellFormed_nil))

mutual

theorem wellFormed_stringify : ∀ v : Json, (stringify v).WellFormed
  | .null => ⟨_, rfl⟩
  | .bool true => ⟨_, rfl⟩
  | .bool false => ⟨_, rfl⟩
  | .num _ => ⟨_, rfl⟩
  | .str s => wellFormed_quote s
  | .arr items => wellFormed_cons (by decide)
      ((wellFormed_stringifyItems items).append (wellFormed_cons (by decide) wellFormed_nil))
  | .obj fields => wellFormed_cons (by decide)
      ((wellFormed_stringifyFields fields).append (wellFormed_cons (by decide) wellFormed_nil))

theorem wellFormed_stringifyItems : ∀ items : List Json, (stringifyItems items).WellFormed
  | [] => wellFormed_nil
  | [v] => wellFormed_stringify v
  | v :: w :: rest => (wellFormed_stringify v).append
      (wellFormed_cons (by decide) (wellFormed_stringifyItems (w :: rest)))

theorem wellFormed_stringifyFields : ∀ fields : List (Utf16 × Json),
    (stringifyFields fields).WellFormed
  | [] => wellFormed_nil
  | [(key, v)] => (wellFormed_quote key).append
      (wellFormed_cons (by decide) (wellFormed_stringify v))
  | (key, v) :: f :: rest => by
    rw [stringifyFields]
    refine ((wellFormed_quote key).append ?_).append ?_
    · exact wellFormed_cons (by decide) (wellFormed_stringify v)
    · exact wellFormed_cons (by decide) (wellFormed_stringifyFields (f :: rest))

end

/-- An object is read back from the bytes of its text. -/
theorem parse_textDecode_obj {fields : List (Utf16 × Json)} (h : Proper (.obj fields)) :
    parse (Utf8.textDecode (Utf8.textEncode (stringify (.obj fields)))) = some (.obj fields) := by
  have htext : Utf8.textDecode (Utf8.textEncode (stringify (.obj fields))) =
      stringify (.obj fields) := by
    refine (Utf8.textDecode_textEncode_iff _).mpr ⟨wellFormed_stringify _, ?_⟩
    rw [stringify, List.cons_append, List.head?_cons]
    decide
  rw [htext, parse_stringify h]

end Json
