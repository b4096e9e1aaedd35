import SmartIdVault.Lib.Regex

/-! `isSafeUrlPattern` of `lib/transaction/remoteRegistry.ts`, the guard on the patterns that the
remote registry sends.  It looks for nested quantifiers in the text of the pattern, in which escapes
are blanked out; the expression that the text stands for is the platform's. -/

namespace SmartIdVault.Transaction

open Utf16 (ofString)
open Regex (isSpace)

/-! ### Expressions -/

inductive Bound where
  | star
  | plus
  | optional
  | exactly (digits : Utf16)
  | atLeast (digits : Utf16)
  | between (min max : Utf16)
  deriving DecidableEq, Repr

namespace Bound

def text : Bound → Utf16
  | star => [0x2A]
  | plus => [0x2B]
  | optional => [0x3F]
  | exactly digits => 0x7B :: digits ++ [0x7D]
  | atLeast digits => 0x7B :: digits ++ [0x2C, 0x7D]
  | between min max => 0x7B :: min ++ 0x2C :: max ++ [0x7D]

/-- `*`, `+` and `{n,}`. -/
def unbounded : Bound → Bool
  | star | plus | atLeast _ => true
  | _ => false

def digits : Bound → Utf16
  | exactly digits | atLeast digits => digits
  | between min max => min ++ max
  | _ => []

end Bound

/-- A quantifier, which a question mark makes lazy. -/
structure Quantifier where
  bound : Bound
  lazy : Bool := false
  deriving DecidableEq, Repr

def Quantifier.text (q : Quantifier) : Utf16 := q.bound.text ++ if q.lazy then [0x3F] else []

/-- What `new RegExp` makes of a pattern. -/
inductive Expr where
  | empty
  /-- A character, a dot, `^` or `$`. -/
  | unit (u : UInt16)
  /-- A backslash, the unit after it and the rest of the escape. -/
  | escape (u : UInt16) (rest : Utf16)
  /-- A class in brackets. -/
  | charClass (text : Utf16)
  /-- A group, which opens with a parenthesis and what says its kind. -/
  | group (kind : Utf16) (body : Expr)
  | quantified (e : Expr) (q : Quantifier)
  | cat (e f : Expr)
  | alt (e f : Expr)
  deriving DecidableEq, Repr

/-- A text in which every backslash escapes a unit. -/
def paired : Utf16 → Bool
  | [] => true
  | [u] => u != 0x5C
  | u :: v :: rest => if u = 0x5C then paired rest else paired (v :: rest)

namespace Expr

def source : Expr → Utf16
  | empty => []
  | unit u => [u]
  | escape u rest => 0x5C :: u :: rest
  | charClass text => 0x5B :: text ++ [0x5D]
  | group kind body => 0x28 :: kind ++ body.source ++ [0x29]
  | quantified e q => e.source ++ q.text
  | cat e f => e.source ++ f.source
  | alt e f => e.source ++ 0x7C :: f.source

/-- Backslashes are in escapes and in classes, where they escape a unit, and what opens a group does
not close one. -/
def WellFormed : Expr → Prop
  | empty => True
  | unit u => u ∉ ofString "\\()[*+?|"
  | escape _ rest => paired rest = true
  | charClass text => paired text = true
  | group kind body => paired kind = true ∧ 0x29 ∉ kind ∧ body.WellFormed
  | quantified e q => e.WellFormed ∧ 0x5C ∉ q.bound.digits
  | cat e f | alt e f => e.WellFormed ∧ f.WellFormed

def hasUnbounded : Expr → Bool
  | quantified e q => q.bound.unbounded || e.hasUnbounded
  | group _ body => body.hasUnbounded
  | cat e f | alt e f => e.hasUnbounded || f.hasUnbounded
  | _ => false

/-- The groups under an unbounded quantifier that have one in their bodies: the bodies, and the
quantifiers of the groups. -/
def nestedGroups : Expr → List (Expr × Bound)
  | quantified (group _ body) q =>
    (if q.bound.unbounded && body.hasUnbounded then [(body, q.bound)] else []) ++ body.nestedGroups
  | quantified e _ => e.nestedGroups
  | group _ body => body.nestedGroups
  | cat e f | alt e f => e.nestedGroups ++ f.nestedGroups
  | _ => []

/-- All groups under a quantifier: the bodies, and the quantifiers. -/
def quantifiedGroups : Expr → List (Expr × Bound)
  | quantified (group _ body) q => (body, q.bound) :: body.quantifiedGroups
  | quantified e _ => e.quantifiedGroups
  | group _ body => body.quantifiedGroups
  | cat e f | alt e f => e.quantifiedGroups ++ f.quantifiedGroups
  | _ => []

end Expr

/-- `new RegExp`, which throws where this is `none`. -/
structure RegExpParser where
  parse : Utf16 → Option Expr
  source_eq : ∀ pattern e, parse pattern = some e → e.source = pattern
  wellFormed : ∀ pattern e, parse pattern = some e → e.WellFormed

/-! ### The guard -/

def maxPatternLength : Nat := 500

def maxAlternations : Nat := 5

/-- `.`, which matches no line terminator. -/
def isDot (u : UInt16) : Bool := !([0x0A, 0x0D, 0x2028, 0x2029] : Utf16).contains u

/-- `/\\(.)/`. -/
def escapeRe : Regex UInt16 := .cat (.set (· == 0x5C)) (.set isDot)

/-- `[+*]`. -/
def isPlusOrStar (u : UInt16) : Bool := u = 0x2B || u = 0x2A

/-- `[^)]`. -/
def isNotClosing (u : UInt16) : Bool := u != 0x29

/-- `/\([^)]*[+*][^)]*\)\s*[+*]/`. -/
def nestedQuantifierRe : Regex UInt16 :=
  .cat (.set (· == 0x28)) <| .cat (.rep (.set isNotClosing) 0 none) <| .cat (.set isPlusOrStar) <|
    .cat (.rep (.set isNotClosing) 0 none) <| .cat (.set (· == 0x29)) <|
      .cat (.rep (.set isSpace) 0 none) (.set isPlusOrStar)

/-- `/\(([^)]+)\)[+*]/`. -/
def groupWithQuantifierRe : Regex UInt16 :=
  .cat (.set (· == 0x28)) <| .cat (.rep (.set isNotClosing) 1 none) <|
    .cat (.set (· == 0x29)) (.set isPlusOrStar)

/-- What a match of `groupWithQuantifierRe` captures: all but the parenthesis before and the two
units after. -/
def captured (m : Utf16) : Utf16 := (m.drop 1).take (m.length - 3)

def stripEscapes (pattern : Utf16) : Utf16 := escapeRe.replaceAll (fun _ => [0x20]) pattern

/-- The loop over the groups. -/
def hasManyAlternatives (stripped : Utf16) : Bool :=
  (groupWithQuantifierRe.allMatches stripped).any fun m =>
    maxAlternations < ((captured m).splitOn 0x7C).length

def isSafeUrlPattern (regExp : RegExpParser) (pattern : Utf16) : Bool :=
  if maxPatternLength < pattern.length then false
  else
    let stripped := stripEscapes pattern
    if nestedQuantifierRe.test stripped then false
    else if hasManyAlternatives stripped then false
    else (regExp.parse pattern).isSome

/-- The expression that `compileDetectors` gives a detector. -/
def compiledPattern (regExp : RegExpParser) (urlPattern : Utf16) : Option Expr :=
  if !isSafeUrlPattern regExp urlPattern then none else regExp.parse urlPattern

/-! ### Blanked escapes -/

/-- The text with a blank for each escape. -/
def blanked : Utf16 → Utf16
  | [] => []
  | [u] => [u]
  | u :: v :: rest =>
    if u = 0x5C ∧ isDot v = true then 0x20 :: blanked rest else u :: blanked (v :: rest)

theorem matches_escapeRe_iff {before after : Option UInt16} {m : Utf16} :
    escapeRe.Matches before m after ↔ ∃ v, m = [0x5C, v] ∧ isDot v = true := by
  constructor
  · rintro ⟨_, _, rfl, ⟨u, rfl, hu⟩, v, rfl, hv⟩
    obtain rfl := beq_iff_eq.mp hu
    exact ⟨v, rfl, hv⟩
  · rintro ⟨v, rfl, hv⟩
    exact ⟨[0x5C], [v], rfl, ⟨0x5C, rfl, rfl⟩, v, rfl, hv⟩

theorem blanked_cons {u : UInt16} {rest : Utf16}
    (h : u = 0x5C → ∀ v ∈ rest.head?, isDot v = false) :
    blanked (u :: rest) = u :: blanked rest := by
  cases rest with
  | nil => rfl
  | cons v rest =>
    rw [blanked, if_neg]
    rintro ⟨hu, hv⟩
    rw [h hu v rfl] at hv
    simp at hv

theorem stripEscapes_eq (pattern : Utf16) : stripEscapes pattern = blanked pattern := by
  have hscan {before : Option UInt16} {s : Utf16} {ps : List (Regex.Piece UInt16)}
      (h : escapeRe.Scanned before s ps) :
      ps.flatMap (Regex.Piece.replaced fun _ => [0x20]) = blanked s := by
    induction h with
    | nil => rfl
    | last h =>
      obtain ⟨v, hm, -⟩ := matches_escapeRe_iff.mp h
      simp at hm
    | @unit before u rest ps h _ ih =>
      rw [blanked_cons, ← ih]
      · rfl
      · rintro rfl v hv
        obtain ⟨tail, rfl⟩ : ∃ tail, rest = v :: tail := List.head?_eq_some_iff.mp hv
        by_contra hdot
        exact h [0x5C, v] tail rfl (matches_escapeRe_iff.mpr ⟨v, rfl, by simpa using hdot⟩)
    | void h =>
      obtain ⟨v, hm, -⟩ := matches_escapeRe_iff.mp h
      simp at hm
    | @found before m rest ps _ h _ ih =>
      obtain ⟨v, rfl, hv⟩ := matches_escapeRe_iff.mp h
      show 0x20 :: ps.flatMap _ = blanked (0x5C :: v :: rest)
      rw [blanked, if_pos ⟨rfl, hv⟩, ih]
  exact hscan (escapeRe.scanned_scan none pattern)

theorem paired_cons {u : UInt16} (h : u ≠ 0x5C) (s : Utf16) : paired (u :: s) = paired s := by
  cases s with
  | nil => simpa [paired] using h
  | cons v s => rw [paired, if_neg h]

/-- Escapes that are whole are blanked on their own. -/
theorem blanked_append {s : Utf16} (h : paired s = true) (t : Utf16) :
    blanked (s ++ t) = blanked s ++ blanked t := by
  fun_induction blanked s with
  | case1 => rfl
  | case2 u =>
    have hu : u ≠ 0x5C := by simpa [paired] using h
    exact blanked_cons fun heq => absurd heq hu
  | case3 u v rest hescape ih =>
    obtain ⟨rfl, hv⟩ := hescape
    rw [paired, if_pos rfl] at h
    show blanked (0x5C :: v :: (rest ++ t)) = _
    rw [blanked, if_pos ⟨rfl, hv⟩, ih h]
    rfl
  | case4 u v rest hescape ih =>
    show blanked (u :: v :: (rest ++ t)) = _
    rw [blanked, if_neg hescape]
    by_cases hu : u = 0x5C
    · -- a backslash before a line terminator, which is no backslash
      rw [paired, if_pos hu] at h
      have hv : v ≠ 0x5C := by
        rintro rfl
        exact hescape ⟨hu, by decide⟩
      rw [← List.cons_append, ih (by rwa [paired_cons hv])]
      rfl
    · rw [paired, if_neg hu] at h
      rw [← List.cons_append, ih h]
      rfl

theorem paired_append {s t : Utf16} (hs : paired s = true) (ht : paired t = true) :
    paired (s ++ t) = true := by
  fun_induction paired s with
  | case1 => exact ht
  | case2 u =>
    have hu : u ≠ 0x5C := by simpa using hs
    rwa [List.singleton_append, paired_cons hu]
  | case3 v rest ih =>
    show paired (0x5C :: v :: (rest ++ t)) = true
    rw [paired, if_pos rfl]
    exact ih hs
  | case4 u v rest hu ih =>
    show paired (u :: v :: (rest ++ t)) = true
    rw [paired, if_neg hu]
    exact ih hs

theorem paired_of_notMem {s : Utf16} (h : 0x5C ∉ s) : paired s = true := by
  induction s with
  | nil => rfl
  | cons u s ih =>
    rw [List.mem_cons, not_or] at h
    rw [paired_cons (Ne.symm h.1)]
    exact ih h.2

/-- Blanks are all that is new. -/
theorem mem_of_mem_blanked {s : Utf16} {u : UInt16} (h : u ∈ blanked s) : u ∈ s ∨ u = 0x20 := by
  fun_induction blanked s with
  | case1 => exact .inl h
  | case2 v => exact .inl h
  | case3 v w rest _ ih =>
    rcases List.mem_cons.mp h with hblank | hrest
    · exact .inr hblank
    · exact (ih hrest).imp_left fun hmem => by simp [hmem]
  | case4 v w rest _ ih =>
    rcases List.mem_cons.mp h with hu | hrest
    · exact .inl (by simp [hu])
    · exact (ih hrest).imp_left fun hmem => by simp [hmem]

/-! ### Groups in the text -/

theorem Quantifier.paired_text {q : Quantifier} (h : 0x5C ∉ q.bound.digits) :
    paired q.text = true := by
  obtain ⟨bound, lazy⟩ := q
  have hlazy : 0x5C ∉ (if lazy then [0x3F] else [] : Utf16) := by
    split <;> decide
  apply paired_of_notMem
  rw [Quantifier.text, List.mem_append, not_or]
  refine ⟨?_, hlazy⟩
  cases bound <;> simp_all [Bound.text, Bound.digits]

namespace Expr

theorem paired_source {e : Expr} (h : e.WellFormed) : paired e.source = true := by
  induction e with
  | empty => rfl
  | unit u =>
    have hu : u ≠ 0x5C := by
      rintro rfl
      have hplain : (0x5C : UInt16) ∉ ofString "\\()[*+?|" := h
      exact absurd hplain (by decide)
    simpa [source, paired] using hu
  | escape u rest =>
    rw [source, paired, if_pos rfl]
    exact h
  | charClass text =>
    rw [source, List.cons_append, paired_cons (by decide)]
    exact paired_append h (by decide)
  | group kind body ih =>
    obtain ⟨hkind, -, hbody⟩ := h
    rw [source, List.cons_append, List.cons_append, paired_cons (by decide)]
    exact paired_append (paired_append hkind (ih hbody)) (by decide)
  | quantified e q ih => exact paired_append (ih h.1) (q.paired_text h.2)
  | cat e f ihe ihf => exact paired_append (ihe h.1) (ihf h.2)
  | alt e f ihe ihf =>
    refine paired_append (ihe h.1) ?_
    rw [paired_cons (by decide)]
    exact ihf h.2

/-- Where a quantified group stands in the text of an expression. -/
def StandsIn (body : Expr) (bound : Bound) (text : Utf16) : Prop :=
  ∃ before kind after, text = before ++ 0x28 :: kind ++ body.source ++ 0x29 :: bound.text ++ after ∧
    paired before = true ∧ paired kind = true ∧ 0x29 ∉ kind ∧ body.WellFormed

theorem StandsIn.append {body : Expr} {bound : Bound} {text : Utf16} (h : StandsIn body bound text)
    {s : Utf16} (hs : paired s = true) (t : Utf16) : StandsIn body bound (s ++ text ++ t) := by
  obtain ⟨before, kind, after, rfl, hbefore, hrest⟩ := h
  exact ⟨s ++ before, kind, after ++ t, by simp, paired_append hs hbefore, hrest⟩

theorem standsIn_source {e : Expr} (h : e.WellFormed) {g : Expr × Bound}
    (hg : g ∈ e.quantifiedGroups) : StandsIn g.1 g.2 e.source := by
  fun_induction quantifiedGroups e with
  | case1 kind body q ih =>
    obtain ⟨⟨hkind, hclosing, hbody⟩, hq⟩ := h
    rcases List.mem_cons.mp hg with rfl | hinner
    · exact ⟨[], kind, if q.lazy then [0x3F] else [], by simp [source, Quantifier.text], rfl,
        hkind, hclosing, hbody⟩
    · have hopen : paired (0x28 :: kind) = true := by rwa [paired_cons (by decide)]
      have hin := (ih hbody hinner).append hopen ([0x29] ++ q.text)
      simpa [source] using hin
  | case2 e q _ ih =>
    have hin := (ih h.1 hg).append (s := []) rfl q.text
    simpa [source] using hin
  | case3 kind body ih =>
    obtain ⟨hkind, -, hbody⟩ := h
    have hopen : paired (0x28 :: kind) = true := by rwa [paired_cons (by decide)]
    have hin := (ih hbody hg).append hopen [0x29]
    simpa [source] using hin
  | case4 e f ihe ihf =>
    rcases List.mem_append.mp hg with hleft | hright
    · have hin := (ihe h.1 hleft).append (s := []) rfl f.source
      simpa [source] using hin
    · have hin := (ihf h.2 hright).append (paired_source h.1) []
      simpa [source] using hin
  | case5 e f ihe ihf =>
    rcases List.mem_append.mp hg with hleft | hright
    · have hin := (ihe h.1 hleft).append (s := []) rfl (0x7C :: f.source)
      simpa [source] using hin
    · have hbar : paired (e.source ++ [0x7C]) = true :=
        paired_append (paired_source h.1) (by decide)
      have hin := (ihf h.2 hright).append hbar []
      simpa [source] using hin
  | case6 => simp at hg

end Expr

/-! ### What the guard sees -/

/-- The group is under `*` or `+`, and its body, with escapes blanked out, has one of these and no
closing parenthesis. -/
def Visible (g : Expr × Bound) : Prop :=
  (g.2 = .star ∨ g.2 = .plus) ∧ 0x29 ∉ stripEscapes g.1.source ∧
    ∃ u ∈ stripEscapes g.1.source, isPlusOrStar u = true

/-- From a parenthesis to a quantifier, with a plus or a star and no other closing parenthesis. -/
theorem always_nestedQuantifierRe {x y : Utf16} {u q : UInt16} (hx : 0x29 ∉ x) (hy : 0x29 ∉ y)
    (hu : isPlusOrStar u = true) (hq : isPlusOrStar q = true) :
    Regex.Always nestedQuantifierRe (0x28 :: x ++ (u :: (y ++ [0x29, q]))) := by
  have hnotClosing {s : Utf16} (hs : 0x29 ∉ s) : ∀ v ∈ s, isNotClosing v = true := by
    intro v hv
    simp only [isNotClosing, bne_iff_ne, ne_eq]
    rintro rfl
    exact hs hv
  have hopening : Regex.Always (.set (· == 0x28)) ([0x28] : Utf16) := Regex.Always.set rfl
  have hclose : Regex.Always (.set (· == 0x29)) ([0x29] : Utf16) := Regex.Always.set rfl
  have hblanks : Regex.Always (.rep (.set isSpace) 0 none) [] := Regex.Always.star (by simp)
  have hmatch := Regex.Always.cat hopening <|
    Regex.Always.cat (Regex.Always.star (hnotClosing hx)) <|
    Regex.Always.cat (Regex.Always.set hu) <|
    Regex.Always.cat (Regex.Always.star (hnotClosing hy)) <|
    Regex.Always.cat hclose <| Regex.Always.cat hblanks (Regex.Always.set hq)
  exact hmatch

/-- A quantified group with blanks for its escapes. -/
theorem blanked_group {before kind body : Utf16} {q : UInt16} (hbefore : paired before = true)
    (hkind : paired kind = true) (hbody : paired body = true) (hq : q ≠ 0x5C) (tail : Utf16) :
    blanked (before ++ 0x28 :: kind ++ body ++ 0x29 :: q :: tail) =
      blanked before ++ 0x28 :: blanked kind ++ blanked body ++ 0x29 :: q :: blanked tail := by
  have hopen : paired (0x28 :: kind) = true := by rwa [paired_cons (by decide)]
  have hgroup : blanked (0x28 :: kind) = 0x28 :: blanked kind :=
    blanked_cons fun h => absurd h (by decide)
  have hclose : blanked (0x29 :: q :: tail) = 0x29 :: q :: blanked tail := by
    rw [blanked_cons fun h => absurd h (by decide), blanked_cons fun h => absurd h hq]
  rw [List.append_assoc, List.append_assoc, blanked_append hbefore, blanked_append hopen,
    blanked_append hbody, hgroup, hclose]
  simp

/-- A visible group is matched from its opening parenthesis to its quantifier. -/
theorem test_of_visible {g : Expr × Bound} {text : Utf16} (hin : Expr.StandsIn g.1 g.2 text)
    (hg : Visible g) : nestedQuantifierRe.test (stripEscapes text) = true := by
  obtain ⟨hbound, hnoClose, u, hu, hplus⟩ := hg
  obtain ⟨before, kind, after, rfl, hbefore, hkind, hclosing, hbody⟩ := hin
  rw [stripEscapes_eq] at hnoClose hu
  obtain ⟨x, y, hsplit⟩ := List.append_of_mem hu
  rw [hsplit] at hnoClose
  simp only [List.mem_append, List.mem_cons, not_or] at hnoClose
  obtain ⟨q, hq, hqtext⟩ : ∃ q, isPlusOrStar q = true ∧ g.2.text = [q] := by
    rcases hbound with hstar | hplus
    · exact ⟨0x2A, rfl, by rw [hstar]; rfl⟩
    · exact ⟨0x2B, rfl, by rw [hplus]; rfl⟩
  have hqescape : q ≠ 0x5C := by
    rintro rfl
    revert hq
    decide
  have htext : stripEscapes (before ++ 0x28 :: kind ++ g.1.source ++ 0x29 :: g.2.text ++ after) =
      blanked before ++ (0x28 :: (blanked kind ++ x) ++ (u :: (y ++ [0x29, q]))) ++
        blanked after := by
    have hgroup := blanked_group hbefore hkind (Expr.paired_source hbody) hqescape after
    rw [hsplit] at hgroup
    rw [stripEscapes_eq, hqtext]
    simpa using hgroup
  have hleft : 0x29 ∉ blanked kind ++ x := by
    rw [List.mem_append, not_or]
    refine ⟨fun hmem => ?_, hnoClose.1⟩
    rcases mem_of_mem_blanked hmem with hmem | hblank
    · exact hclosing hmem
    · revert hblank
      decide
  rw [htext, Regex.test, Regex.testFrom_iff]
  exact ⟨_, _, _, rfl, always_nestedQuantifierRe hleft hnoClose.2.2 hplus hq _ _⟩

theorem isSafeUrlPattern_iff {regExp : RegExpParser} {pattern : Utf16} {e : Expr}
    (hlength : pattern.length ≤ maxPatternLength) (hparse : regExp.parse pattern = some e) :
    isSafeUrlPattern regExp pattern = true ↔
      nestedQuantifierRe.test (stripEscapes pattern) = false ∧
        hasManyAlternatives (stripEscapes pattern) = false := by
  rw [isSafeUrlPattern, if_neg (by omega)]
  cases htest : nestedQuantifierRe.test (stripEscapes pattern) with
  | true => simp [htest]
  | false =>
    cases hmany : hasManyAlternatives (stripEscapes pattern) <;> simp [htest, hmany, hparse]

/-- The guard keeps out a pattern with nested quantifiers if it sees one of its groups. -/
theorem guarded_of_visible (regExp : RegExpParser) {pattern : Utf16} {e : Expr}
    (hlength : pattern.length ≤ maxPatternLength) (hparse : regExp.parse pattern = some e)
    (h : e.nestedGroups = [] ∨ ∃ g ∈ e.quantifiedGroups, Visible g) :
    isSafeUrlPattern regExp pattern = true → e.nestedGroups = [] := by
  rw [isSafeUrlPattern_iff hlength hparse]
  rintro ⟨htest, -⟩
  refine h.resolve_right ?_
  rintro ⟨g, hg, hvisible⟩
  have hin := Expr.standsIn_source (regExp.wellFormed _ _ hparse) hg
  rw [regExp.source_eq _ _ hparse] at hin
  rw [test_of_visible hin hvisible] at htest
  cases htest

/-- A parser of one pattern. -/
def regExpOf (e : Expr) (h : e.WellFormed) : RegExpParser where
  parse pattern := if pattern = e.source then some e else none
  source_eq pattern e' hparse := by
    obtain ⟨rfl, heq⟩ := Option.ite_none_right_eq_some.mp hparse
    rw [Option.some.inj heq]
  wellFormed pattern e' hparse := by
    obtain ⟨rfl, heq⟩ := Option.ite_none_right_eq_some.mp hparse
    obtain rfl := Option.some.inj heq
    exact h

theorem parse_regExpOf (e : Expr) (h : e.WellFormed) : (regExpOf e h).parse e.source = some e :=
  if_pos rfl

/-- `a+`. -/
def repeatedLetter : Expr := .quantified (.unit 0x61) { bound := .plus }

/-- `(a+)+`. -/
def nestedGroup : Expr := .quantified (.group [] repeatedLetter) { bound := .plus }

/-- `((a+))+`. -/
def wrappedGroup : Expr := .quantified (.group [] (.group [] repeatedLetter)) { bound := .plus }

theorem wellFormed_repeatedLetter : repeatedLetter.WellFormed := by
  have hletter : (0x61 : UInt16) ∉ ofString "\\()[*+?|" := by decide
  exact ⟨hletter, by decide⟩

theorem wellFormed_nestedGroup : nestedGroup.WellFormed :=
  ⟨⟨rfl, by decide, wellFormed_repeatedLetter⟩, by decide⟩

theorem wellFormed_wrappedGroup : wrappedGroup.WellFormed :=
  ⟨⟨rfl, by decide, rfl, by decide, wellFormed_repeatedLetter⟩, by decide⟩

/-- `(a+)+`, whose group is visible. -/
theorem guarded_nestedGroup :
    nestedGroup.source = ofString "(a+)+" ∧
      (isSafeUrlPattern (regExpOf nestedGroup wellFormed_nestedGroup) nestedGroup.source = true →
        nestedGroup.nestedGroups = []) := by
  have hvisible : Visible (repeatedLetter, .plus) := ⟨.inr rfl, by decide, 0x2B, by decide, rfl⟩
  have hmem : (repeatedLetter, .plus) ∈ nestedGroup.quantifiedGroups := by decide
  exact ⟨by decide, guarded_of_visible _ (by decide) (parse_regExpOf _ _)
    (.inr ⟨_, hmem, hvisible⟩)⟩

/-- `((a+))+` is accepted. -/
theorem not_guarded : ¬ ∀ (regExp : RegExpParser) (pattern : Utf16) (e : Expr),
    pattern.length ≤ maxPatternLength → regExp.parse pattern = some e →
    isSafeUrlPattern regExp pattern = true → e.nestedGroups = [] := by
  intro h
  have hsafe : isSafeUrlPattern (regExpOf wrappedGroup wellFormed_wrappedGroup)
      wrappedGroup.source = true := by
    decide
  have hnil := h _ _ _ (by decide) (parse_regExpOf wrappedGroup wellFormed_wrappedGroup) hsafe
  revert hnil
  decide

end SmartIdVault.Transaction
