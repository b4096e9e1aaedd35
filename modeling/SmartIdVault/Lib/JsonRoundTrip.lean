import SmartIdVault.Lib.JsonNumber
import SmartIdVault.Lib.Properties

/-! `JSON.parse` of what `JSON.stringify` has written is the value that was written, whose objects
have distinct keys in the order in which they are listed; and the values that `JSON.parse` makes are
of this kind. -/

namespace Json

open Utf16 (ofString ofChars)
open Properties (InOrder)

mutual

/-- Each object in the value has its properties in order. -/
def Proper : Json → Prop
  | .arr items => ProperItems items
  | .obj fields => InOrder fields ∧ ProperFields fields
  | .null | .bool _ | .num _ | .str _ => True

def ProperItems : List Json → Prop
  | [] => True
  | v :: rest => Proper v ∧ ProperItems rest

def ProperFields : List (Utf16 × Json) → Prop
  | [] => True
  | (_, v) :: rest => Proper v ∧ ProperFields rest

end

/-! ### Strings -/

theorem hexDigit_hexUnit {n : UInt16} (h : n < 16) : hexDigit (hexUnit n) = some n := by
  have hsmall : ∀ m < 16, hexDigit (hexUnit (UInt16.ofNat m)) = some (UInt16.ofNat m) := by decide
  have hn := hsmall n.toNat h
  rwa [UInt16.ofNat_toNat] at hn

/-- The four digits of a unit. -/
theorem hex_digits (u : UInt16) :
    u / 0x1000 < 16 ∧ u / 0x100 % 16 < 16 ∧ u / 0x10 % 16 < 16 ∧ u % 16 < 16 ∧
      u / 0x1000 * 0x1000 + u / 0x100 % 16 * 0x100 + u / 0x10 % 16 * 0x10 + u % 16 = u := by
  have hu := u.toNat_lt
  simp only [UInt16.lt_iff_toNat_lt, ← UInt16.toNat_inj, UInt16.toNat_add, UInt16.toNat_mul,
    UInt16.toNat_div, UInt16.toNat_mod, UInt16.toNat_ofNat, Nat.reducePow, Nat.reduceMod]
  omega

/-- A unit that needs no escape is read as it stands. -/
theorem stringBody_plain {u : UInt16} {s t rest : Utf16} (hquote : u ≠ 0x22) (hslash : u ≠ 0x5c)
    (hlow : ¬u < 0x20) (h : stringBody s = some (t, rest)) :
    stringBody (u :: s) = some (u :: t, rest) := by
  rw [stringBody.eq_def]
  split
  · rename_i heq
    cases heq
  · rename_i heq
    cases heq
    exact absurd rfl hquote
  · rename_i heq
    cases heq
    exact absurd rfl hslash
  · rename_i heq
    cases heq
    exact absurd rfl hslash
  · rename_i heq
    obtain ⟨rfl, rfl⟩ := List.cons.inj heq
    rw [if_neg (not_or.mpr ⟨hlow, hslash⟩), h]
    rfl

/-- What `quote` writes for a unit is read as that unit. -/
theorem stringBody_quoteUnit (u : UInt16) {s t rest : Utf16} (h : stringBody s = some (t, rest)) :
    stringBody (quoteUnit u ++ s) = some (u :: t, rest) := by
  have hescape {u v : UInt16} (hu : u ≠ 0x75) (hv : escaped u = some v) :
      stringBody (0x5c :: u :: s) = some (v :: t, rest) := by
    rw [stringBody.eq_def]
    split
    · rename_i heq
      cases heq
    · rename_i heq
      cases heq
    · rename_i heq
      cases heq
      exact absurd rfl hu
    · rename_i heq
      cases heq
      rw [hv, h]
      rfl
    · rename_i hnot heq
      cases heq
      exact (hnot _ _ rfl rfl).elim
  unfold quoteUnit
  split
  · rename_i hu
    obtain rfl | rfl := hu
    all_goals exact hescape (by decide) rfl
  split
  · rename_i hu
    exact hu ▸ hescape (by decide) rfl
  split
  · rename_i hu
    exact hu ▸ hescape (by decide) rfl
  split
  · rename_i hu
    exact hu ▸ hescape (by decide) rfl
  split
  · rename_i hu
    exact hu ▸ hescape (by decide) rfl
  split
  · rename_i hu
    exact hu ▸ hescape (by decide) rfl
  rename_i hquote _ _ _ _ _
  split
  · obtain ⟨h1, h2, h3, h4, hsum⟩ := hex_digits u
    simp only [escapeUnit, List.cons_append, List.nil_append, stringBody, hexDigit_hexUnit h1,
      hexDigit_hexUnit h2, hexDigit_hexUnit h3, hexDigit_hexUnit h4, hsum, h,
      Option.bind_eq_bind, Option.bind_some, Option.pure_def]
  · rename_i hplain
    exact stringBody_plain (fun hu => hquote (.inl hu)) (fun hu => hquote (.inr hu))
      (fun hu => hplain (.inl hu)) h

/-- What `quote` writes between its quotes is read as the string that was written. -/
theorem stringBody_quoteBody (s rest : Utf16) :
    stringBody (quoteBody s ++ 0x22 :: rest) = some (s, rest) := by
  induction s using quoteBody.induct with
  | case1 => rfl
  | case2 u =>
    rw [quoteBody]
    exact stringBody_quoteUnit u rfl
  | case3 u v tail hpair ih =>
    rw [Bool.and_eq_true, Utf16.isHigh_iff, Utf16.isLow_iff] at hpair
    have hplain {w : UInt16} (hw : 0xD800 ≤ w.toNat) : w ≠ 0x22 ∧ w ≠ 0x5c ∧ ¬w < 0x20 := by
      refine ⟨?_, ?_, ?_⟩
      · rintro rfl
        exact absurd hw (by decide)
      · rintro rfl
        exact absurd hw (by decide)
      · intro hlow
        have : w.toNat < 32 := hlow
        omega
    obtain ⟨hu, hu', hu''⟩ := hplain hpair.1.1
    obtain ⟨hv, hv', hv''⟩ := hplain (by omega : 0xD800 ≤ v.toNat)
    rw [quoteBody, if_pos (by rwa [Bool.and_eq_true, Utf16.isHigh_iff, Utf16.isLow_iff])]
    exact stringBody_plain hu hu' hu'' (stringBody_plain hv hv' hv'' ih)
  | case4 u v tail hpair ih =>
    rw [quoteBody, if_neg hpair, List.append_assoc]
    exact stringBody_quoteUnit u ih

/-! ### Values -/

mutual

/-- The fuel that a value takes. -/
def cost : Json → Nat
  | .arr items => 1 + costItems items
  | .obj fields => 1 + costFields fields
  | .null | .bool _ | .num _ | .str _ => 1

def costItems : List Json → Nat
  | [] => 0
  | v :: rest => 1 + cost v + costItems rest

def costFields : List (Utf16 × Json) → Nat
  | [] => 0
  | (_, v) :: rest => 1 + cost v + costFields rest

end

theorem isSpace_of_isDigit {u : UInt16} (hu : isDigit u = true) : isSpace u = false := by
  rw [isDigit, Bool.and_eq_true, decide_eq_true_eq, UInt16.le_iff_toNat_le] at hu
  rw [← Bool.not_eq_true, isSpace]
  simp only [Bool.or_eq_true, decide_eq_true_eq]
  rintro (((rfl | rfl) | rfl) | rfl)
  all_goals exact absurd hu.1 (by decide)

/-- The first unit of what is written for a value. -/
theorem head_stringify (v : Json) :
    ∃ u s, stringify v = u :: s ∧ isSpace u = false ∧ u ≠ 0x5d := by
  cases v with
  | num d =>
    obtain ⟨u, s, htext, hu⟩ := head_text d
    refine ⟨u, s, by rw [stringify, htext], ?_, ?_⟩
    · obtain hu | rfl := hu
      · exact isSpace_of_isDigit hu
      · rfl
    · rintro rfl
      obtain hu | hu := hu <;> cases hu
  | bool b => cases b <;> exact ⟨_, _, rfl, rfl, by decide⟩
  | null => exact ⟨_, _, rfl, rfl, by decide⟩
  | str s => exact ⟨_, _, rfl, rfl, by decide⟩
  | arr items => exact ⟨_, _, rfl, rfl, by decide⟩
  | obj fields => exact ⟨_, _, rfl, rfl, by decide⟩

theorem skip_cons {u : UInt16} (hu : isSpace u = false) (s : Utf16) : skip (u :: s) = u :: s := by
  rw [skip, List.dropWhile_cons, hu]
  rfl

theorem stringifyItems_cons (v : Json) (rest : List Json) (tail : Utf16) :
    stringifyItems (v :: rest) ++ 0x5d :: tail = stringify v ++
      (match rest with
        | [] => 0x5d :: tail
        | _ :: _ => 0x2c :: (stringifyItems rest ++ 0x5d :: tail)) := by
  cases rest with
  | nil => rfl
  | cons w rest => simp [stringifyItems]

theorem stringifyFields_cons (key : Utf16) (v : Json) (rest : List (Utf16 × Json)) (tail : Utf16) :
    stringifyFields ((key, v) :: rest) ++ 0x7d :: tail =
      0x22 :: (quoteBody key ++ 0x22 :: 0x3a :: (stringify v ++
        (match rest with
          | [] => 0x7d :: tail
          | _ :: _ => 0x2c :: (stringifyFields rest ++ 0x7d :: tail)))) := by
  cases rest with
  | nil => simp [stringifyFields, quote]
  | cons f rest => simp [stringifyFields, quote]

theorem ends_cons {u : UInt16} (h : u = 0x2c ∨ u = 0x5d ∨ u = 0x7d) (s : Utf16) : Ends (u :: s) :=
  fun _ hu => Option.some.inj hu ▸ h

/-- A number is no string, array, object or literal. -/
theorem value_num (d : Decimal) (n : Nat) {rest : Utf16} (h : Ends rest) :
    value (n + 1) (ofChars d.text ++ rest) = some (.num d, rest) := by
  obtain ⟨u, s, htext, hu⟩ := head_text d
  have hspace : isSpace u = false := by
    obtain hu | rfl := hu
    · exact isSpace_of_isDigit hu
    · rfl
  have hother {w : UInt16} (hw : isDigit w = false) (hw' : w ≠ 0x2d) : u ≠ w := by
    rintro rfl
    obtain hu | hu := hu
    · rw [hw] at hu
      cases hu
    · exact hw' hu
  have hliteral : literal (u :: (s ++ rest)) = none := by
    have hn : u ≠ 110 := hother rfl (by decide)
    have ht : u ≠ 116 := hother rfl (by decide)
    have hf : u ≠ 102 := hother rfl (by decide)
    rw [literal, Option.map_eq_none_iff, List.find?_eq_none]
    intro l hl
    simp only [literals, List.mem_cons, List.not_mem_nil, or_false] at hl
    obtain rfl | rfl | rfl := hl
    all_goals
      intro hprefix
      obtain ⟨hhead, -⟩ := List.cons_prefix_cons.mp (List.isPrefixOf_iff_prefix.mp hprefix)
      first
        | exact hn hhead.symm
        | exact ht hhead.symm
        | exact hf hhead.symm
  have hnumber := number_text d h
  rw [htext, List.cons_append] at hnumber ⊢
  rw [value, skip_cons hspace]
  split
  · rename_i heq
    exact absurd (List.cons.inj heq).1 (hother rfl (by decide))
  · rename_i heq
    exact absurd (List.cons.inj heq).1 (hother rfl (by decide))
  · rename_i heq
    exact absurd (List.cons.inj heq).1 (hother rfl (by decide))
  · rw [hliteral, hnumber]
    rfl

mutual

/-- What has been written for a value is read as that value. -/
theorem value_stringify : ∀ (v : Json) {n : Nat} (rest : Utf16), Proper v → cost v ≤ n →
    Ends rest → value n (stringify v ++ rest) = some (v, rest)
  | .null, 0, _, _, hn, _ => absurd hn (by simp [cost])
  | .null, n + 1, rest, _, _, _ => rfl
  | .bool b, 0, _, _, hn, _ => absurd hn (by simp [cost])
  | .bool b, n + 1, rest, _, _, _ => by cases b <;> rfl
  | .num d, 0, _, _, hn, _ => absurd hn (by simp [cost])
  | .num d, n + 1, rest, _, _, h => value_num d n h
  | .str s, 0, _, _, hn, _ => absurd hn (by simp [cost])
  | .str s, n + 1, rest, _, _, _ => by
    have htext : stringify (.str s) ++ rest = 0x22 :: (quoteBody s ++ 0x22 :: rest) := by
      simp [stringify, quote]
    rw [htext, value, skip_cons rfl]
    simp only [stringBody_quoteBody, Option.map_some]
  | .arr items, 0, _, _, hn, _ => absurd hn (by simp [cost])
  | .arr [], n + 1, rest, _, _, _ => rfl
  | .arr (v :: items), n + 1, rest, hv, hn, _ => by
    have hitems := elements_stringify (v :: items) (n := n) rest (by simp) hv
      (by rw [cost] at hn; omega)
    have htext : stringify (.arr (v :: items)) ++ rest =
        0x5b :: (stringifyItems (v :: items) ++ 0x5d :: rest) := by
      simp [stringify]
    obtain ⟨u, s, hs, hspace, hu⟩ := head_stringify v
    rw [htext, value, skip_cons rfl]
    rw [stringifyItems_cons, hs, List.cons_append] at hitems ⊢
    simp only [skip_cons hspace]
    split
    · rename_i heq
      exact absurd (List.cons.inj heq).1 hu
    · rw [hitems]
      rfl
  | .obj fields, 0, _, _, hn, _ => absurd hn (by simp [cost])
  | .obj [], n + 1, rest, _, _, _ => rfl
  | .obj ((key, v) :: fields), n + 1, rest, hv, hn, _ => by
    have hfields := members_stringify ((key, v) :: fields) [] (n := n) rest (by simp) hv.2 hv.1
      (by rw [cost] at hn; omega)
    have htext : stringify (.obj ((key, v) :: fields)) ++ rest =
        0x7b :: (stringifyFields ((key, v) :: fields) ++ 0x7d :: rest) := by
      simp [stringify]
    rw [htext, value, skip_cons rfl]
    rw [stringifyFields_cons] at hfields ⊢
    simp only [skip_cons (show isSpace 0x22 = false from rfl)]
    split
    · rename_i heq
      exact absurd (List.cons.inj heq).1 (by decide)
    · rw [hfields]
      rfl

theorem elements_stringify : ∀ (items : List Json) {n : Nat} (rest : Utf16), items ≠ [] →
    ProperItems items → costItems items ≤ n →
      elements n (stringifyItems items ++ 0x5d :: rest) = some (items, rest)
  | [], _, _, hne, _, _ => absurd rfl hne
  | v :: items, 0, _, _, _, hn => absurd hn (by rw [costItems]; omega)
  | [v], n + 1, rest, _, hv, hn => by
    have hvalue := value_stringify v (n := n) (0x5d :: rest) hv.1
      (by rw [costItems] at hn; omega) (ends_cons (by simp) _)
    rw [stringifyItems_cons, elements]
    simp only [hvalue, Option.bind_eq_bind, Option.bind_some, skip_cons (show isSpace 0x5d = false
      from rfl)]
  | v :: w :: items, n + 1, rest, _, hv, hn => by
    have hvalue := value_stringify v (n := n)
      (0x2c :: (stringifyItems (w :: items) ++ 0x5d :: rest)) hv.1
      (by rw [costItems] at hn; omega) (ends_cons (by simp) _)
    have hitems := elements_stringify (w :: items) (n := n) rest (by simp) hv.2
      (by rw [costItems] at hn; omega)
    rw [stringifyItems_cons, elements]
    simp only [hvalue, Option.bind_eq_bind, Option.bind_some, skip_cons (show isSpace 0x2c = false
      from rfl), hitems, Option.map_some]

theorem members_stringify : ∀ (fields acc : List (Utf16 × Json)) {n : Nat} (rest : Utf16),
    fields ≠ [] → ProperFields fields → InOrder (acc ++ fields) →
      costFields fields ≤ n →
        members n acc (stringifyFields fields ++ 0x7d :: rest) = some (acc ++ fields, rest)
  | [], _, _, _, hne, _, _, _ => absurd rfl hne
  | (key, v) :: fields, _, 0, _, _, _, _, hn => absurd hn (by rw [costFields]; omega)
  | [(key, v)], acc, n + 1, rest, _, hv, hacc, hn => by
    have hvalue := value_stringify v (n := n) (0x7d :: rest) hv.1
      (by rw [costFields] at hn; omega) (ends_cons (by simp) _)
    rw [stringifyFields_cons, members]
    simp only [skip_cons (show isSpace 0x22 = false from rfl), stringBody_quoteBody,
      Option.bind_eq_bind, Option.bind_some, skip_cons (show isSpace 0x3a = false from rfl), hvalue,
      skip_cons (show isSpace 0x7d = false from rfl), setField_eq_set,
      Properties.set_of_inOrder hacc]
  | (key, v) :: f :: fields, acc, n + 1, rest, _, hv, hacc, hn => by
    have hvalue := value_stringify v (n := n)
      (0x2c :: (stringifyFields (f :: fields) ++ 0x7d :: rest)) hv.1
      (by rw [costFields] at hn; omega) (ends_cons (by simp) _)
    have hfields := members_stringify (f :: fields) (acc ++ [(key, v)]) (n := n) rest (by simp) hv.2
      (by rwa [List.append_assoc]) (by rw [costFields] at hn; omega)
    rw [List.append_assoc] at hfields
    rw [stringifyFields_cons, members]
    simp only [skip_cons (show isSpace 0x22 = false from rfl), stringBody_quoteBody,
      Option.bind_eq_bind, Option.bind_some, skip_cons (show isSpace 0x3a = false from rfl), hvalue,
      skip_cons (show isSpace 0x2c = false from rfl), setField_eq_set,
      Properties.set_of_inOrder hacc, hfields]
    rfl

end

mutual

/-- The text has room for the fuel. -/
theorem cost_le : ∀ v : Json, cost v ≤ 2 * (stringify v).length
  | .null => by decide
  | .bool true => by decide
  | .bool false => by decide
  | .num d => by
    obtain ⟨u, s, htext, -⟩ := head_text d
    rw [cost, stringify, htext, List.length_cons]
    omega
  | .str s => by
    rw [cost, stringify, quote, List.length_append, List.length_cons]
    omega
  | .arr items => by
    have := costItems_le items
    rw [cost, stringify, List.length_append, List.length_cons]
    omega
  | .obj fields => by
    have := costFields_le fields
    rw [cost, stringify, List.length_append, List.length_cons]
    omega

theorem costItems_le : ∀ items : List Json, costItems items ≤ 2 * (stringifyItems items).length + 1
  | [] => Nat.zero_le _
  | [v] => by
    have := cost_le v
    rw [costItems, costItems, stringifyItems]
    omega
  | v :: w :: items => by
    have := cost_le v
    have := costItems_le (w :: items)
    rw [costItems, stringifyItems, List.length_append, List.length_cons]
    omega

theorem costFields_le : ∀ fields : List (Utf16 × Json),
    costFields fields ≤ 2 * (stringifyFields fields).length + 1
  | [] => Nat.zero_le _
  | [(key, v)] => by
    have := cost_le v
    rw [costFields, costFields, stringifyFields, List.length_append, List.length_cons]
    omega
  | (key, v) :: f :: fields => by
    have := cost_le v
    have := costFields_le (f :: fields)
    rw [costFields, stringifyFields]
    simp only [List.length_append, List.length_cons]
    omega

end

theorem parse_stringify {v : Json} (h : Proper v) : parse (stringify v) = some v := by
  have hvalue := value_stringify v (n := 2 * (stringify v).length + 2) [] h
    (by have := cost_le v; omega) ends_nil
  rw [List.append_nil] at hvalue
  rw [parse, hvalue]
  rfl

/-- Different values have different texts. -/
theorem stringify_inj {v w : Json} (hv : Proper v) (hw : Proper w)
    (h : stringify v = stringify w) : v = w := by
  have hparse := parse_stringify hv
  rw [h, parse_stringify hw] at hparse
  exact (Option.some.inj hparse).symm

/-! ### What `JSON.parse` makes -/

theorem properFields_iff {fields : List (Utf16 × Json)} :
    ProperFields fields ↔ ∀ f ∈ fields, Proper f.2 := by
  induction fields with
  | nil => simp [ProperFields]
  | cons f fields ih => simp [ProperFields, ih]

theorem properItems_iff {items : List Json} : ProperItems items ↔ ∀ v ∈ items, Proper v := by
  induction items with
  | nil => simp [ProperItems]
  | cons v items ih => simp [ProperItems, ih]

theorem proper_literal {s rest : Utf16} {v : Json} (h : literal s = some (v, rest)) : Proper v := by
  obtain ⟨l, hl, hlit⟩ := Option.map_eq_some_iff.mp h
  have hmem := List.mem_of_find?_eq_some hl
  obtain ⟨rfl, -⟩ := Prod.mk.inj hlit
  simp only [literals, List.mem_cons, List.not_mem_nil, or_false] at hmem
  obtain rfl | rfl | rfl := hmem
  all_goals trivial

theorem properFields_set {fields : List (Utf16 × Json)} {v : Json} (h : ProperFields fields)
    (key : Utf16) (hv : Proper v) : ProperFields (Properties.set fields key v) := by
  rw [properFields_iff] at h ⊢
  unfold Properties.set
  split
  · intro f hf
    obtain ⟨g, hg, rfl⟩ := List.mem_map.mp hf
    split
    · exact hv
    · exact h g hg
  · intro f hf
    obtain rfl | hf := Properties.mem_insert.mp hf
    · exact hv
    · exact h f hf

mutual

theorem proper_value : ∀ {n : Nat} {s rest : Utf16} {v : Json}, value n s = some (v, rest) → Proper v
  | 0, _, _, _, h => by cases h
  | n + 1, s, rest, v, h => by
    rw [value] at h
    split at h
    · obtain ⟨r, -, hr⟩ := Option.map_eq_some_iff.mp h
      obtain ⟨rfl, -⟩ := Prod.mk.inj hr
      trivial
    · split at h
      · obtain ⟨rfl, -⟩ := Prod.mk.inj (Option.some.inj h)
        trivial
      · obtain ⟨r, hr, hv⟩ := Option.map_eq_some_iff.mp h
        obtain ⟨rfl, -⟩ := Prod.mk.inj hv
        exact proper_elements hr
    · split at h
      · obtain ⟨rfl, -⟩ := Prod.mk.inj (Option.some.inj h)
        exact ⟨List.Pairwise.nil, trivial⟩
      · obtain ⟨r, hr, hv⟩ := Option.map_eq_some_iff.mp h
        obtain ⟨rfl, -⟩ := Prod.mk.inj hv
        exact proper_members List.Pairwise.nil trivial hr
    · obtain hlit | ⟨-, hnum⟩ := Option.or_eq_some_iff.mp h
      · exact proper_literal hlit
      · obtain ⟨r, -, hr⟩ := Option.map_eq_some_iff.mp hnum
        obtain ⟨rfl, -⟩ := Prod.mk.inj hr
        trivial

theorem proper_elements : ∀ {n : Nat} {s rest : Utf16} {items : List Json},
    elements n s = some (items, rest) → ProperItems items
  | 0, _, _, _, h => by cases h
  | n + 1, s, rest, items, h => by
    rw [elements] at h
    obtain ⟨⟨v, s'⟩, hv, h⟩ := Option.bind_eq_some_iff.mp h
    have hproper := proper_value hv
    dsimp only at h
    split at h
    · obtain ⟨r, hr, hitems⟩ := Option.map_eq_some_iff.mp h
      obtain ⟨rfl, -⟩ := Prod.mk.inj hitems
      exact ⟨hproper, proper_elements hr⟩
    · obtain ⟨rfl, -⟩ := Prod.mk.inj (Option.some.inj h)
      exact ⟨hproper, trivial⟩
    · cases h

theorem proper_members : ∀ {n : Nat} {s rest : Utf16} {acc fields : List (Utf16 × Json)},
    InOrder acc → ProperFields acc → members n acc s = some (fields, rest) →
      InOrder fields ∧ ProperFields fields
  | 0, _, _, _, _, _, _, h => by cases h
  | n + 1, s, rest, acc, fields, horder, hacc, h => by
    rw [members] at h
    split at h
    · obtain ⟨⟨key, s'⟩, -, h⟩ := Option.bind_eq_some_iff.mp h
      dsimp only at h
      split at h
      · obtain ⟨⟨v, s''⟩, hv, h⟩ := Option.bind_eq_some_iff.mp h
        have horder' := Properties.inOrder_set horder key v
        have hacc' := properFields_set hacc key (proper_value hv)
        dsimp only at h
        rw [setField_eq_set] at h
        split at h
        · exact proper_members horder' hacc' h
        · obtain ⟨rfl, -⟩ := Prod.mk.inj (Option.some.inj h)
          exact ⟨horder', hacc'⟩
        · cases h
      · cases h
    · cases h

end

theorem proper_of_parse {s : Utf16} {v : Json} (h : parse s = some v) : Proper v := by
  obtain ⟨⟨w, rest⟩, hw, h⟩ := Option.bind_eq_some_iff.mp h
  dsimp only at h
  split at h
  · obtain rfl := Option.some.inj h
    exact proper_value hw
  · cases h

end Json
