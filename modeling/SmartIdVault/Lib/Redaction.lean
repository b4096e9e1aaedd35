import SmartIdVault.Lib.Regex

/-! Matches of a regular expression that are replaced by a mark, and the tokens between separators
that are left.  A token without the first element of the mark was there before; and where the
expression matches the token and does not match up to its middle, the token stands in a match that
was not replaced. -/

namespace Redaction

open Regex (Piece Scanned Matches scan)

variable {α : Type}

/-- The element, if there is one, is a separator. -/
def Ends (sep : α → Bool) (o : Option α) : Prop := ∀ u ∈ o, sep u = true

/-- `t` between the texts `before` and `after` is a token. -/
structure TokenAt (sep : α → Bool) (before t after : List α) : Prop where
  ne_nil : t ≠ []
  noSep : ∀ u ∈ t, sep u = false
  before_ends : Ends sep before.getLast?
  after_ends : Ends sep after.head?

/-- `t` is a token of `s`. -/
def IsToken (sep : α → Bool) (t s : List α) : Prop :=
  ∃ before after, s = before ++ t ++ after ∧ TokenAt sep before t after

/-- What matches are replaced by. -/
structure Mark (sep : α → Bool) where
  first : α
  rest : List α
  noSep : ∀ u ∈ first :: rest, sep u = false

def Mark.text {sep : α → Bool} (mark : Mark sep) : List α := mark.first :: mark.rest

/-- The text with the matches that `valid` accepts replaced. -/
def redact {sep : α → Bool} (mark : Mark sep) (r : Regex α) (valid : List α → Bool) (s : List α) :
    List α :=
  r.replaceAll (fun m => if valid m then mark.text else m) s

def textOf (ps : List (Piece α)) : List α := ps.flatMap Piece.text

/-- A global search in `s` finds `m` between the texts `before` and `after`. -/
def Finds (r : Regex α) (s before m after : List α) : Prop :=
  ∃ ps qs, scan r none 0 s = ps ++ .found m :: qs ∧ textOf ps = before ∧ textOf qs = after

/-! ### Tokens of the parts -/

section Parts

variable {sep : α → Bool} {mark : Mark sep} {f : List α → List α} {t : List α}

/-- Where a token that is left stands in the parts of the text: in a match that is kept, across the
end of one, from an element between the matches on, or later. -/
inductive Located (sep : α → Bool) (f : List α → List α) (t : List α) :
    Option α → List (Piece α) → Prop where
  | inside {before a b ps} (hf : f (a ++ t ++ b) = a ++ t ++ b)
      (ha : Ends sep (a.getLast?.or before)) (hb : Ends sep (b.head?.or (textOf ps).head?)) :
      Located sep f t before (.found (a ++ t ++ b) :: ps)
  | crossing {before a t₁ t₂ after ps} (ht : t = t₁ ++ t₂) (h₁ : t₁ ≠ []) (h₂ : t₂ ≠ [])
      (ha : Ends sep (a.getLast?.or before)) (hps : textOf ps = t₂ ++ after)
      (hafter : Ends sep after.head?) : Located sep f t before (.found (a ++ t₁) :: ps)
  | starting {before u ps after} (hbefore : Ends sep before) (htext : u :: textOf ps = t ++ after)
      (hafter : Ends sep after.head?) : Located sep f t before (.unit u :: ps)
  | later {before p ps} (h : Located sep f t (p.text.getLast?.or before) ps) :
      Located sep f t before (p :: ps)

/-- No token ends in the mark. -/
theorem Mark.not_ends {l : List α} (hl : l ≠ []) (hmem : ∀ u ∈ l, u ∈ mark.text) {o : Option α} :
    ¬Ends sep (l.getLast?.or o) := by
  intro hends
  rw [List.getLast?_eq_some_getLast hl, Option.some_or] at hends
  have hsep := hends _ rfl
  rw [mark.noSep _ (hmem _ (List.getLast_mem hl))] at hsep
  simp at hsep

/-- A token after the mark is whole behind it. -/
theorem Mark.exists_append {rest x after : List α} (hne : t ≠ []) (hmark : mark.first ∉ t)
    (hout : mark.text ++ rest = x ++ (t ++ after)) {o : Option α}
    (hx : Ends sep (x.getLast?.or o)) :
    ∃ x', x = mark.text ++ x' ∧ ∀ o, Ends sep (x'.getLast?.or o) := by
  rcases List.append_eq_append_iff.mp hout with ⟨x', rfl, -⟩ | ⟨b, hb, hrest⟩
  · refine ⟨x', rfl, fun o => ?_⟩
    rcases eq_or_ne x' [] with rfl | hx'
    · rw [List.append_nil] at hx
      exact absurd hx (Mark.not_ends (by simp [Mark.text]) fun _ h => h)
    · rw [List.getLast?_append, Option.or_assoc, Regex.getLast?_or_of_ne_nil hx'] at hx
      rwa [Regex.getLast?_or_of_ne_nil hx']
  · rcases eq_or_ne x [] with rfl | hxne
    · obtain ⟨v, t, rfl⟩ := List.exists_cons_of_ne_nil hne
      obtain rfl : mark.text = b := hb
      exact absurd (List.mem_cons.mpr (.inl (List.cons.inj hrest).1.symm)) hmark
    · exact absurd hx
        (Mark.not_ends hxne fun u hu => by rw [hb]; exact List.mem_append_left _ hu)

/-- What is left of a token at the start of the parts was there before. -/
theorem starts_textOf (hf : ∀ m, f m = m ∨ f m = mark.text) (ps : List (Piece α))
    {s after : List α} (hmark : mark.first ∉ s) (hout : ps.flatMap (Piece.replaced f) = s ++ after)
    (hafter : Ends sep after.head?) :
    ∃ after', textOf ps = s ++ after' ∧ Ends sep after'.head? := by
  induction ps generalizing s with
  | nil =>
    obtain ⟨rfl, rfl⟩ := List.append_eq_nil_iff.mp hout.symm
    exact ⟨[], rfl, hafter⟩
  | cons p ps ih =>
    cases p with
    | unit u =>
      have hout' : u :: ps.flatMap (Piece.replaced f) = s ++ after := hout
      cases s with
      | nil =>
        refine ⟨u :: textOf ps, rfl, ?_⟩
        obtain rfl : u :: ps.flatMap (Piece.replaced f) = after := hout'
        exact hafter
      | cons v s =>
        obtain ⟨rfl, hrest⟩ := List.cons.inj hout'
        obtain ⟨after', htext, hends⟩ := ih (fun h => hmark (List.mem_cons_of_mem _ h)) hrest
        exact ⟨after', congrArg (u :: ·) htext, hends⟩
    | found m =>
      have hout' : f m ++ ps.flatMap (Piece.replaced f) = s ++ after := hout
      rcases hf m with hkept | hreplaced
      · rw [hkept] at hout'
        rcases List.append_eq_append_iff.mp hout' with ⟨s', rfl, hrest⟩ | ⟨b, rfl, rfl⟩
        · obtain ⟨after', htext, hends⟩ :=
            ih (fun h => hmark (List.mem_append_right _ h)) hrest
          refine ⟨after', ?_, hends⟩
          show m ++ textOf ps = m ++ s' ++ after'
          rw [htext, List.append_assoc]
        · refine ⟨b ++ textOf ps, by show s ++ b ++ textOf ps = _; simp, ?_⟩
          cases b with
          | nil =>
            obtain ⟨after', htext, hends⟩ := ih (s := []) (by simp) rfl
            rw [List.nil_append, htext]
            exact hends
          | cons u b => exact hafter
      · rw [hreplaced] at hout'
        cases s with
        | nil =>
          obtain rfl : mark.text ++ ps.flatMap (Piece.replaced f) = after := hout'
          have hsep := hafter mark.first rfl
          rw [mark.noSep mark.first (by simp)] at hsep
          simp at hsep
        | cons v s =>
          have hheads : mark.first :: (mark.rest ++ _) = v :: (s ++ after) := hout'
          exact absurd (List.mem_cons.mpr (.inl (List.cons.inj hheads).1)) hmark

/-- A token that begins in a match that is kept, or behind it. -/
theorem located_kept (hf : ∀ m, f m = m ∨ f m = mark.text) {ps : List (Piece α)}
    {before : Option α} {m x after : List α} (hmark : mark.first ∉ t) (hkept : f m = m)
    (hout : m ++ ps.flatMap (Piece.replaced f) = x ++ (t ++ after))
    (hx : Ends sep (x.getLast?.or before)) (hafter : Ends sep after.head?)
    (hpassed : ∀ x', x = m ++ x' → Located sep f t before (.found m :: ps)) :
    Located sep f t before (.found m :: ps) := by
  rcases List.append_eq_append_iff.mp hout with ⟨x', hx', -⟩ | ⟨a, rfl, hrest⟩
  · exact hpassed x' hx'
  · rcases List.append_eq_append_iff.mp hrest with ⟨b, rfl, hb⟩ | ⟨t₂, rfl, hps⟩
    · rw [← List.append_assoc] at hkept ⊢
      refine .inside hkept hx ?_
      cases b with
      | nil =>
        obtain ⟨after', htext, hends⟩ :=
          starts_textOf hf ps (s := []) (by simp) (by rw [hb]; rfl) hafter
        rwa [List.head?_nil, Option.none_or, htext]
      | cons u b =>
        rw [hb] at hafter
        exact hafter
    · rcases eq_or_ne a [] with rfl | ha
      · exact hpassed [] (by simp)
      · obtain ⟨after', htext, hends⟩ :=
          starts_textOf hf ps (fun h => hmark (List.mem_append_right _ h)) hps hafter
        rcases eq_or_ne t₂ [] with rfl | ht₂
        · have hinside : Located sep f a before (.found (x ++ a ++ []) :: ps) :=
            .inside (by simpa using hkept) hx (by rwa [htext])
          simpa using hinside
        · exact .crossing rfl ha ht₂ hx htext hends

/-- A token of the text with replaced matches is located in the parts. -/
theorem located (hf : ∀ m, f m = m ∨ f m = mark.text) {ps : List (Piece α)} {before : Option α}
    {x after : List α} (hne : t ≠ []) (hmark : mark.first ∉ t)
    (hout : ps.flatMap (Piece.replaced f) = x ++ t ++ after)
    (hx : Ends sep (x.getLast?.or before)) (hafter : Ends sep after.head?) :
    Located sep f t before ps := by
  induction ps generalizing x before with
  | nil =>
    have hnil := List.append_eq_nil_iff.mp hout.symm
    exact absurd (List.append_eq_nil_iff.mp hnil.1).2 hne
  | cons p ps ih =>
    cases p with
    | unit u =>
      have hout' : u :: ps.flatMap (Piece.replaced f) = x ++ t ++ after := hout
      cases x with
      | nil =>
        obtain ⟨after', htext, hends⟩ := starts_textOf hf (.unit u :: ps) hmark hout hafter
        exact .starting hx htext hends
      | cons v x =>
        obtain ⟨rfl, hrest⟩ := List.cons.inj hout'
        rw [Regex.getLast?_cons_or] at hx
        exact .later (ih hrest hx)
    | found m =>
      have hout' : f m ++ ps.flatMap (Piece.replaced f) = x ++ (t ++ after) := by
        rw [← List.append_assoc]
        exact hout
      have hlater {x' : List α} (hx' : x = f m ++ x')
          (hends : Ends sep (x'.getLast?.or (m.getLast?.or before))) :
          Located sep f t before (.found m :: ps) := by
        refine .later (ih (x := x') ?_ hends)
        rw [hx', List.append_assoc, List.append_cancel_left_eq, ← List.append_assoc] at hout'
        exact hout'
      rcases hf m with hkept | hreplaced
      · rw [hkept] at hout' hlater
        apply located_kept hf hmark hkept hout' hx hafter
        intro x' hx'
        refine hlater hx' ?_
        rwa [hx', List.getLast?_append, Option.or_assoc] at hx
      · rw [hreplaced] at hout' hlater
        obtain ⟨x', hx', hends⟩ := Mark.exists_append hne hmark hout' hx
        exact hlater hx' (hends _)

/-- A token that is located in the parts is one of the text. -/
theorem Located.tokenAt {before : Option α} {ps : List (Piece α)} (h : Located sep f t before ps) :
    ∃ x after, textOf ps = x ++ t ++ after ∧ Ends sep (x.getLast?.or before) ∧
      Ends sep after.head? := by
  induction h with
  | @inside before a b ps _ ha hb =>
    refine ⟨a, b ++ textOf ps, ?_, ha, by rwa [List.head?_append]⟩
    show a ++ t ++ b ++ textOf ps = _
    rw [List.append_assoc]
  | @crossing before a t₁ t₂ after ps ht _ _ ha hps hafter =>
    refine ⟨a, after, ?_, ha, hafter⟩
    show a ++ t₁ ++ textOf ps = _
    rw [hps, ht]
    simp
  | @starting before u ps after hbefore htext hafter => exact ⟨[], after, htext, hbefore, hafter⟩
  | @later before p ps _ ih =>
    obtain ⟨x, after, htext, hx, hafter⟩ := ih
    refine ⟨p.text ++ x, after, ?_, ?_, hafter⟩
    · show p.text ++ textOf ps = _
      rw [htext]
      simp
    · rwa [List.getLast?_append, Option.or_assoc]

section Matching

variable {r : Regex α} {before : Option α} {s : List α} {ps : List (Piece α)}

theorem scanned_found {m : List α} (hnonempty : ∀ before after, ¬Matches r before [] after)
    (h : Scanned r before s (.found m :: ps)) : ∃ rest, s = m ++ rest ∧ m ≠ [] ∧
      Matches r before m rest.head? ∧ Scanned r m.getLast? rest ps := by
  cases h with
  | last h => exact absurd h (hnonempty _ _)
  | void h => exact absurd h (hnonempty _ _)
  | found hne h hrest => exact ⟨_, rfl, hne, h, hrest⟩

theorem scanned_unit {u : α} (h : Scanned r before s (.unit u :: ps)) (m after : List α)
    (hs : s = m ++ after) : ¬Matches r before m after.head? := by
  cases h with
  | unit hno _ => exact hno m after hs

theorem scanned_tail {p : Piece α} (hnonempty : ∀ before after, ¬Matches r before [] after)
    (h : Scanned r before s (p :: ps)) : Scanned r (p.text.getLast?.or before) (textOf ps) ps := by
  cases p with
  | unit u =>
    cases h with
    | unit _ hrest =>
      obtain rfl : textOf ps = _ := hrest.flatMap_text
      exact hrest
  | found m =>
    obtain ⟨rest, -, hne, -, hrest⟩ := scanned_found hnonempty h
    obtain rfl : textOf ps = rest := hrest.flatMap_text
    show Scanned r (m.getLast?.or before) _ ps
    rwa [Regex.getLast?_or_of_ne_nil hne]

/-- The search goes on from any place between two parts. -/
theorem scanned_drop (hnonempty : ∀ before after, ¬Matches r before [] after)
    {qs : List (Piece α)} (h : Scanned r before s (qs ++ ps)) :
    Scanned r ((textOf qs).getLast?.or before) (textOf ps) ps := by
  induction qs generalizing before s with
  | nil =>
    obtain rfl : textOf ps = s := h.flatMap_text
    exact h
  | cons q qs ih =>
    have hrest := ih (scanned_tail hnonempty h)
    rwa [← Option.or_assoc, ← List.getLast?_append] at hrest

/-- Where the expression matches the token, and ends nowhere inside it, a token that is left is in a
match that was kept. -/
theorem Located.inside_match (hnonempty : ∀ before after, ¬Matches r before [] after)
    (hmatch : ∀ before after, Ends sep before → Ends sep after → Matches r before t after)
    (hends : ∀ before m u v, Matches r before m (some v) → m.getLast? = some u → u ∈ t → v ∉ t)
    (hscan : Scanned r before s ps) (h : Located sep f t before ps) :
    ∃ qs a b qs', ps = qs ++ .found (a ++ t ++ b) :: qs' ∧ f (a ++ t ++ b) = a ++ t ++ b ∧
      Ends sep ((textOf qs ++ a).getLast?.or before) ∧ Ends sep (b ++ textOf qs').head? := by
  induction h generalizing s with
  | @inside before a b ps hf ha hb =>
    exact ⟨[], a, b, ps, rfl, hf, ha, by rwa [List.head?_append]⟩
  | @crossing before a t₁ t₂ after ps ht h₁ h₂ ha hps hafter =>
    obtain ⟨rest, -, -, hm, hrest⟩ := scanned_found hnonempty hscan
    obtain rfl : textOf ps = rest := hrest.flatMap_text
    obtain ⟨v, t₂, rfl⟩ := List.exists_cons_of_ne_nil h₂
    have hlast : (a ++ t₁).getLast? = some (t₁.getLast h₁) := by
      rw [List.getLast?_append, List.getLast?_eq_some_getLast h₁, Option.some_or]
    rw [hps] at hm
    have hnot := hends before (a ++ t₁) _ v hm hlast
      (by rw [ht]; exact List.mem_append_left _ (List.getLast_mem h₁))
    exact absurd (by rw [ht]; simp) hnot
  | @starting before u ps after hbefore htext hafter =>
    cases hscan with
    | unit hno hrest =>
      obtain rfl := hrest.flatMap_text
      exact absurd (hmatch before after.head? hbefore hafter) (hno t after htext)
  | @later before p ps _ ih =>
    obtain ⟨qs, a, b, qs', rfl, hf, ha, hb⟩ := ih (scanned_tail hnonempty hscan)
    refine ⟨p :: qs, a, b, qs', rfl, hf, ?_, hb⟩
    show Ends sep ((p.text ++ textOf qs ++ a).getLast?.or before)
    rwa [List.append_assoc, List.getLast?_append, Option.or_assoc]

end Matching

end Parts

/-! ### Tokens of a redacted text -/

section Redact

variable {sep : α → Bool} {mark : Mark sep} {r : Regex α} {valid : List α → Bool} {t s : List α}

theorem replaced_cases (m : List α) :
    (if valid m then mark.text else m) = m ∨ (if valid m then mark.text else m) = mark.text := by
  split
  · exact .inr rfl
  · exact .inl rfl

theorem located_of_isToken (hmark : mark.first ∉ t) (h : IsToken sep t (redact mark r valid s)) :
    Located sep (fun m => if valid m then mark.text else m) t none (scan r none 0 s) := by
  obtain ⟨x, after, hout, htoken⟩ := h
  refine located replaced_cases htoken.ne_nil hmark hout ?_ htoken.after_ends
  rw [Option.or_none]
  exact htoken.before_ends

/-- Redaction makes no new tokens but those with the mark. -/
theorem IsToken.of_redact (hmark : mark.first ∉ t) (h : IsToken sep t (redact mark r valid s)) :
    IsToken sep t s := by
  have hlocated := located_of_isToken hmark h
  obtain ⟨_, _, -, htoken⟩ := h
  obtain ⟨x, after, htext, hx, hafter⟩ := hlocated.tokenAt
  rw [Option.or_none] at hx
  refine ⟨x, after, ?_, htoken.ne_nil, htoken.noSep, hx, hafter⟩
  rw [← htext]
  exact (r.scanned_scan none s).flatMap_text.symm

/-- A token that is left, where the expression matches it and does not end inside it, is part of a
match that was not valid. -/
theorem IsToken.not_valid (hnonempty : ∀ before after, ¬Matches r before [] after)
    (hmatch : ∀ before after, Ends sep before → Ends sep after → Matches r before t after)
    (hends : ∀ before m u v, Matches r before m (some v) → m.getLast? = some u → u ∈ t → v ∉ t)
    (hmark : mark.first ∉ t) (h : IsToken sep t (redact mark r valid s)) :
    ∃ before a b after, Finds r s before (a ++ t ++ b) after ∧
      TokenAt sep (before ++ a) t (b ++ after) ∧ valid (a ++ t ++ b) = false := by
  have hlocated := located_of_isToken hmark h
  obtain ⟨_, _, -, htoken⟩ := h
  obtain ⟨qs, a, b, qs', hscan, hf, ha, hb⟩ :=
    hlocated.inside_match hnonempty hmatch hends (r.scanned_scan none s)
  rw [Option.or_none] at ha
  refine ⟨textOf qs, a, b, textOf qs', ⟨qs, qs', hscan, rfl, rfl⟩,
    ⟨htoken.ne_nil, htoken.noSep, ha, hb⟩, ?_⟩
  cases hvalid : valid (a ++ t ++ b) with
  | false => rfl
  | true =>
    -- a match that is the mark itself would have the token at its start
    rw [if_pos hvalid] at hf
    rcases eq_or_ne a [] with rfl | hne
    · obtain ⟨v, t, rfl⟩ := List.exists_cons_of_ne_nil htoken.ne_nil
      exact absurd (by rw [(List.cons.inj hf).1]; exact List.mem_cons_self) hmark
    · rw [List.getLast?_append, List.getLast?_eq_some_getLast hne, Option.some_or] at ha
      have hmem : a.getLast hne ∈ mark.text := by
        rw [hf]
        exact List.mem_append_left _ (List.mem_append_left _ (List.getLast_mem hne))
      have hsep := ha _ rfl
      rw [mark.noSep _ hmem] at hsep
      simp at hsep

theorem Finds.text_eq {before m after : List α} (h : Finds r s before m after) :
    s = before ++ m ++ after := by
  obtain ⟨ps, qs, hscan, rfl, rfl⟩ := h
  have htext : textOf (scan r none 0 s) = s := (r.scanned_scan none s).flatMap_text
  rw [← htext, hscan]
  simp [textOf, Piece.text]

/-- What a search finds is matched where it stands. -/
theorem Finds.matches (hnonempty : ∀ before after, ¬Matches r before [] after)
    {before m after : List α} (h : Finds r s before m after) :
    Matches r before.getLast? m after.head? := by
  obtain ⟨ps, qs, hscan, rfl, rfl⟩ := h
  have hscanned := r.scanned_scan none s
  rw [hscan] at hscanned
  have hrest := scanned_drop hnonempty hscanned
  rw [Option.or_none] at hrest
  obtain ⟨rest, htext, -, hm, hqs⟩ := scanned_found hnonempty hrest
  obtain rfl : textOf qs = rest := hqs.flatMap_text
  exact hm

theorem textOf_append (ps qs : List (Piece α)) : textOf (ps ++ qs) = textOf ps ++ textOf qs :=
  List.flatMap_append

theorem textOf_units (w : List α) : textOf (w.map .unit) = w := by
  induction w with
  | nil => rfl
  | cons u w ih => exact congrArg (u :: ·) ih

/-- Where every match is replaced, what is left at the start of the parts is searched element by
element. -/
theorem units_starts {ps : List (Piece α)} {w y : List α} (hmark : mark.first ∉ w)
    (hout : ps.flatMap (Piece.replaced fun _ => mark.text) = w ++ y) (hy : Ends sep y.head?) :
    ∃ ps₂, ps = w.map .unit ++ ps₂ ∧ Ends sep (textOf ps₂).head? := by
  induction w generalizing ps with
  | nil =>
    refine ⟨ps, rfl, ?_⟩
    obtain rfl : _ = y := hout
    cases ps with
    | nil => exact hy
    | cons p ps =>
      cases p with
      | unit u => exact hy
      | found m =>
        have hsep := hy mark.first rfl
        rw [mark.noSep mark.first (by simp)] at hsep
        simp at hsep
  | cons v w ih =>
    cases ps with
    | nil => simp at hout
    | cons p ps =>
      cases p with
      | unit u =>
        obtain ⟨rfl, hrest⟩ :=
          List.cons.inj (show u :: ps.flatMap _ = v :: (w ++ y) from hout)
        obtain ⟨ps₂, rfl, hends⟩ := ih (fun h => hmark (List.mem_cons_of_mem _ h)) hrest
        exact ⟨ps₂, rfl, hends⟩
      | found m =>
        have hheads : mark.first :: (mark.rest ++ _) = v :: (w ++ y) := hout
        exact absurd (List.mem_cons.mpr (.inl (List.cons.inj hheads).1)) hmark

/-- A token that is left where every match is replaced is searched element by element. -/
theorem units_of_token {ps : List (Piece α)} {before : Option α} {x y : List α} (hne : t ≠ [])
    (hmark : mark.first ∉ t)
    (hout : ps.flatMap (Piece.replaced fun _ => mark.text) = x ++ (t ++ y))
    (hx : Ends sep (x.getLast?.or before)) (hy : Ends sep y.head?) :
    ∃ ps₁ ps₂, ps = ps₁ ++ (t.map .unit ++ ps₂) ∧ Ends sep ((textOf ps₁).getLast?.or before) ∧
      Ends sep (textOf ps₂).head? := by
  induction ps generalizing x before with
  | nil =>
    have hnil := List.append_eq_nil_iff.mp hout.symm
    exact absurd (List.append_eq_nil_iff.mp hnil.2).1 hne
  | cons p ps ih =>
    rcases eq_or_ne x [] with rfl | hxne
    · obtain ⟨ps₂, hps, hends⟩ := units_starts hmark hout hy
      exact ⟨[], ps₂, hps, hx, hends⟩
    have hpassed {x' : List α} (hrest : ps.flatMap (Piece.replaced fun _ => mark.text) =
        x' ++ (t ++ y)) (hx' : Ends sep (x'.getLast?.or (p.text.getLast?.or before))) :
        ∃ ps₁ ps₂, p :: ps = ps₁ ++ (t.map .unit ++ ps₂) ∧
          Ends sep ((textOf ps₁).getLast?.or before) ∧ Ends sep (textOf ps₂).head? := by
      obtain ⟨ps₁, ps₂, rfl, hbefore, hafter⟩ := ih hrest hx'
      refine ⟨p :: ps₁, ps₂, rfl, ?_, hafter⟩
      show Ends sep ((p.text ++ textOf ps₁).getLast?.or before)
      rwa [List.getLast?_append, Option.or_assoc]
    cases p with
    | unit u =>
      obtain ⟨v, x, rfl⟩ := List.exists_cons_of_ne_nil hxne
      obtain ⟨rfl, hrest⟩ :=
        List.cons.inj (show u :: ps.flatMap _ = v :: (x ++ (t ++ y)) from hout)
      rw [Regex.getLast?_cons_or] at hx
      exact hpassed hrest hx
    | found m =>
      have hout' : mark.text ++ ps.flatMap (Piece.replaced fun _ => mark.text) = x ++ (t ++ y) :=
        hout
      obtain ⟨x', rfl, hends⟩ := Mark.exists_append hne hmark hout' hx
      rw [List.append_assoc, List.append_cancel_left_eq] at hout'
      exact hpassed hout' (hends _)

/-- Where every match is replaced, no part of a token that is left is a match. -/
theorem IsToken.not_matches (hnonempty : ∀ before after, ¬Matches r before [] after)
    (hmark : mark.first ∉ t) (h : IsToken sep t (redact mark r (fun _ => true) s)) :
    ∃ before after, Ends sep before ∧ Ends sep after ∧ ∀ a m b, t = a ++ m ++ b → m ≠ [] →
      ¬Matches r (a.getLast?.or before) m (b.head?.or after) := by
  obtain ⟨x, y, hout, htoken⟩ := h
  rw [List.append_assoc] at hout
  have hx : Ends sep (x.getLast?.or none) := by
    rw [Option.or_none]
    exact htoken.before_ends
  obtain ⟨ps₁, ps₂, hscan, hbefore, hafter⟩ :=
    units_of_token htoken.ne_nil hmark hout hx htoken.after_ends
  refine ⟨_, _, hbefore, hafter, ?_⟩
  rintro a m b rfl hm hmatch
  obtain ⟨v, m, rfl⟩ := List.exists_cons_of_ne_nil hm
  have hsplit : scan r none 0 s =
      ps₁ ++ a.map .unit ++ (.unit v :: ((m ++ b).map .unit ++ ps₂)) := by
    rw [hscan]
    simp
  have hscanned := r.scanned_scan none s
  rw [hsplit] at hscanned
  have hrest := scanned_drop hnonempty hscanned
  rw [textOf_append, textOf_units, List.getLast?_append, Option.or_assoc] at hrest
  refine scanned_unit hrest (v :: m) (b ++ textOf ps₂) ?_ (by rwa [List.head?_append])
  show v :: textOf _ = _
  rw [textOf_append, textOf_units]
  simp

end Redact

/-! ### Stretches of a redacted text -/

/-- What the expression matches does not stand next to an element of the class. -/
def Apart (word : α → Bool) (r : Regex α) : Prop :=
  ∀ before m after, Matches r before m after → before.any word = false ∧ after.any word = false

section Stretches

variable {sep : α → Bool} {mark : Mark sep} {f : List α → List α} {r : Regex α} {word : α → Bool}
  {b m u w x y s rest out text : List α} {before : Option α} {ps : List (Piece α)} {p : Piece α}
  {n k : Nat}

/-- No match that is replaced by `text` begins among the first `k` elements. -/
def Clear (f : List α → List α) (text : List α) (ps : List (Piece α)) (k : Nat) : Prop :=
  ∀ ps₁ m ps₂, ps = ps₁ ++ .found m :: ps₂ → f m = text → k ≤ (textOf ps₁).length

/-- No match that is replaced by `text` has a part among the `k` elements from place `n` on. -/
def Spared (f : List α → List α) (text : List α) (ps : List (Piece α)) (n k : Nat) : Prop :=
  ∀ ps₁ m ps₂, ps = ps₁ ++ .found m :: ps₂ → f m = text →
    (textOf ps₁).length + m.length ≤ n ∨ n + k ≤ (textOf ps₁).length

theorem length_textOf_cons (p : Piece α) (ps : List (Piece α)) :
    (textOf (p :: ps)).length = p.text.length + (textOf ps).length :=
  List.length_append

theorem Clear.cons (h : Clear f text ps k) (hp : ∀ m, p = .found m → f m ≠ text) :
    Clear f text (p :: ps) (p.text.length + k) := by
  intro ps₁ m ps₂ hsplit hm
  cases ps₁ with
  | nil => exact absurd hm (hp m (List.cons.inj hsplit).1)
  | cons p' ps₁ =>
    obtain ⟨rfl, hrest⟩ := List.cons.inj hsplit
    rw [length_textOf_cons]
    exact Nat.add_le_add_left (h ps₁ m ps₂ hrest hm) _

theorem Clear.zero : Clear f text ps 0 := fun _ _ _ _ _ => Nat.zero_le _

theorem Clear.mono (h : Clear f text ps k) (hle : n ≤ k) : Clear f text ps n :=
  fun ps₁ m ps₂ hsplit hm => Nat.le_trans hle (h ps₁ m ps₂ hsplit hm)

theorem Clear.kept (h : Clear f text ps k) (hm : f m ≠ text) :
    Clear f text (.found m :: ps) (m.length + k) := by
  refine h.cons fun m' hm' => ?_
  injection hm' with hm'
  rwa [← hm']

theorem Clear.spared (h : Clear f text ps (n + k)) : Spared f text ps n k :=
  fun ps₁ m ps₂ hsplit hm => .inr (h ps₁ m ps₂ hsplit hm)

theorem Spared.cons (h : Spared f text ps n k) (p : Piece α) :
    Spared f text (p :: ps) (p.text.length + n) k := by
  intro ps₁ m ps₂ hsplit hm
  cases ps₁ with
  | nil =>
    obtain rfl : p = .found m := (List.cons.inj hsplit).1
    exact .inl (Nat.add_le_add_left (Nat.zero_le n) m.length |>.trans' (by simp [textOf]))
  | cons p' ps₁ =>
    obtain ⟨rfl, hrest⟩ := List.cons.inj hsplit
    rw [length_textOf_cons]
    rcases h ps₁ m ps₂ hrest hm with hle | hle
    · left
      omega
    · right
      omega

/-- A match that is kept ends in the stretch or goes past it. `hps` says what is known of the parts
behind the match. -/
theorem Clear.crosses (hne : x ++ b ≠ []) (hkept : f (x ++ b) ≠ text)
    (hend : ((x ++ w).getLast?.or before).any word = true ∨ Ends sep y.head?)
    (hps : ∀ w', (∀ v ∈ w', v ∈ w) →
      (w'.getLast?.or (x ++ b).getLast?).any word = true ∨ Ends sep y.head? → out = w' ++ y →
      ∃ y', rest = w' ++ y' ∧ y'.head? = y.head? ∧ Clear f text ps w'.length)
    (hout : b ++ out = w ++ y) :
    ∃ y', b ++ rest = w ++ y' ∧ y'.head? = y.head? ∧
      Clear f text (.found (x ++ b) :: ps) (x ++ w).length := by
  have hpast {v : List α} (hw : w = b ++ v) (hv : out = v ++ y) :
      ∃ y', b ++ rest = w ++ y' ∧ y'.head? = y.head? ∧
        Clear f text (.found (x ++ b) :: ps) (x ++ w).length := by
    subst hw
    rw [← List.append_assoc, List.getLast?_append, Option.or_assoc,
      Regex.getLast?_or_of_ne_nil hne] at hend
    obtain ⟨y', rfl, hy, hclear⟩ := hps v (fun u hu => List.mem_append_right _ hu) hend hv
    refine ⟨y', (List.append_assoc ..).symm, hy, ?_⟩
    rw [← List.append_assoc, List.length_append]
    exact hclear.kept hkept
  rcases List.append_eq_append_iff.mp hout with ⟨v, hw, hv⟩ | ⟨c, rfl, rfl⟩
  · exact hpast hw hv
  · rcases eq_or_ne c [] with rfl | hc
    · exact hpast (v := []) (by simp) rfl
    · refine ⟨c ++ rest, List.append_assoc .., ?_, (Clear.zero.kept hkept).mono ?_⟩
      · rw [List.head?_append, List.head?_append, Regex.head?_or_of_ne_nil hc,
          Regex.head?_or_of_ne_nil hc]
      · simp

/-- What is left of a stretch at the start of the parts was there before, and what stands next to
its last element did: no match stands next to an element of the class, and no mark begins with a
separator. -/
theorem stretch_starts (hf : ∀ m, f m = m ∨ f m = mark.text) (hapart : Apart word r)
    (hnonempty : ∀ before after, ¬Matches r before [] after) (hmark : mark.first ∉ w)
    (hscan : Scanned r before s ps)
    (hend : (w.getLast?.or before).any word = true ∨ Ends sep y.head?)
    (hout : ps.flatMap (Piece.replaced f) = w ++ y) :
    ∃ y', s = w ++ y' ∧ y'.head? = y.head? ∧ Clear f mark.text ps w.length := by
  induction ps generalizing w y before s with
  | nil =>
    obtain ⟨rfl, rfl⟩ := List.append_eq_nil_iff.mp hout.symm
    obtain rfl : [] = s := hscan.flatMap_text
    exact ⟨[], rfl, rfl, fun ps₁ m ps₂ h => by simp at h⟩
  | cons p ps ih =>
    cases p with
    | unit v =>
      have hout' : v :: ps.flatMap (Piece.replaced f) = w ++ y := hout
      cases hscan with
      | @unit _ _ rest _ _ hrest =>
        cases w with
        | nil =>
          obtain rfl : v :: ps.flatMap (Piece.replaced f) = y := hout'
          exact ⟨v :: rest, rfl, rfl, .zero⟩
        | cons v' w =>
          rw [List.cons_append] at hout'
          obtain ⟨rfl, htail⟩ := List.cons.inj hout'
          rw [Regex.getLast?_cons_or] at hend
          obtain ⟨y', rfl, hy, hclear⟩ :=
            ih (fun h => hmark (List.mem_cons_of_mem _ h)) hrest hend htail
          refine ⟨y', rfl, hy, ?_⟩
          rw [List.length_cons, Nat.add_comm]
          exact hclear.cons fun m h => by cases h
    | found m =>
      obtain ⟨rest, rfl, hne, hm, hrest⟩ := scanned_found hnonempty hscan
      have hout' : f m ++ ps.flatMap (Piece.replaced f) = w ++ y := hout
      have hkept : f m ≠ mark.text := by
        intro hreplaced
        rw [hreplaced] at hout'
        cases w with
        | nil =>
          obtain rfl : mark.text ++ ps.flatMap (Piece.replaced f) = y := hout'
          rcases hend with hword | hends
          · rw [List.getLast?_nil, Option.none_or, (hapart _ _ _ hm).1] at hword
            contradiction
          · have hsep := hends mark.first rfl
            rw [mark.noSep mark.first (by simp)] at hsep
            contradiction
        | cons v w =>
          have hheads : mark.first :: (mark.rest ++ _) = v :: (w ++ y) := hout'
          exact hmark (List.mem_cons.mpr (.inl (List.cons.inj hheads).1))
      rw [(hf m).resolve_right hkept] at hout'
      exact Clear.crosses (x := []) hne hkept hend
        (fun w' hw' hend' => ih (fun h => hmark (hw' _ h)) hrest hend') hout'

/-- A stretch after the mark is whole behind it, and next to the mark only where it begins with an
element of the class. -/
theorem Mark.before_stretch (hne : u ≠ []) (hmark : mark.first ∉ u)
    (hout : mark.text ++ rest = x ++ (u ++ y))
    (hstart : Ends sep (x.getLast?.or before) ∨
      u.head?.any word = true ∧ ∀ v ∈ u.head?, v ∉ mark.text) (o : Option α) :
    ∃ x', x = mark.text ++ x' ∧ (x' ≠ [] ∧ Ends sep (x'.getLast?.or o) ∨
      u.head?.any word = true ∧ ∀ v ∈ u.head?, v ∉ mark.text) := by
  rcases hstart with hends | hfirst
  · obtain ⟨x', rfl, hends'⟩ := Mark.exists_append hne hmark hout hends
    refine ⟨x', rfl, .inl ⟨?_, hends' _⟩⟩
    rintro rfl
    have hsep := hends' (some mark.first) mark.first rfl
    rw [mark.noSep mark.first (by simp)] at hsep
    contradiction
  · rcases List.append_eq_append_iff.mp hout with ⟨x', rfl, -⟩ | ⟨c, hc, hrest⟩
    · exact ⟨x', rfl, .inr hfirst⟩
    · cases c with
      | nil => exact ⟨[], by rw [hc, List.append_nil, List.append_nil], .inr hfirst⟩
      | cons v c =>
        obtain ⟨v', u, rfl⟩ := List.exists_cons_of_ne_nil hne
        refine absurd ?_ (hfirst.2 v' rfl)
        rw [hc, ← (List.cons.inj hrest).1]
        exact List.mem_append_right _ (List.mem_cons_self ..)

/-- A stretch that is left, and that no mark reaches into, was there before with the same elements
next to it, and no match that is replaced had a part of it. -/
theorem stretch_located (hf : ∀ m, f m = m ∨ f m = mark.text) (hapart : Apart word r)
    (hnonempty : ∀ before after, ¬Matches r before [] after) (hne : u ≠ [])
    (hmark : mark.first ∉ u) (hscan : Scanned r before s ps)
    (hstart : Ends sep (x.getLast?.or before) ∨
      u.head?.any word = true ∧ ∀ v ∈ u.head?, v ∉ mark.text)
    (hend : u.getLast?.any word = true ∨ Ends sep y.head?)
    (hout : ps.flatMap (Piece.replaced f) = x ++ (u ++ y)) :
    ∃ x' y', s = x' ++ (u ++ y') ∧ x'.getLast? = x.getLast? ∧ y'.head? = y.head? ∧
      Spared f mark.text ps x'.length u.length := by
  have hendOr (o : Option α) : (u.getLast?.or o).any word = true ∨ Ends sep y.head? := by
    rwa [Regex.getLast?_or_of_ne_nil hne]
  induction ps generalizing x before s with
  | nil =>
    have hnil := List.append_eq_nil_iff.mp hout.symm
    exact absurd (List.append_eq_nil_iff.mp hnil.2).1 hne
  | cons p ps ih =>
    rcases eq_or_ne x [] with rfl | hx
    · obtain ⟨y', hs, hy, hclear⟩ :=
        stretch_starts hf hapart hnonempty hmark hscan (hendOr before) hout
      refine ⟨[], y', hs, rfl, hy, Clear.spared ?_⟩
      simpa using hclear
    cases p with
    | unit v =>
      have hout' : v :: ps.flatMap (Piece.replaced f) = x ++ (u ++ y) := hout
      cases hscan with
      | unit _ hrest =>
        obtain ⟨v', x, rfl⟩ := List.exists_cons_of_ne_nil hx
        rw [List.cons_append] at hout'
        obtain ⟨rfl, htail⟩ := List.cons.inj hout'
        rw [Regex.getLast?_cons_or] at hstart
        obtain ⟨x', y', rfl, hx', hy, hspared⟩ := ih hrest hstart htail
        refine ⟨v :: x', y', rfl, ?_, hy, ?_⟩
        · rw [List.getLast?_cons, List.getLast?_cons, hx']
        · rw [List.length_cons, Nat.add_comm]
          exact hspared.cons (.unit v)
    | found m =>
      obtain ⟨rest, rfl, hmne, hm, hrest⟩ := scanned_found hnonempty hscan
      have hout' : f m ++ ps.flatMap (Piece.replaced f) = x ++ (u ++ y) := hout
      by_cases hreplaced : f m = mark.text
      · -- the mark stands before the stretch, and so did the match
        rw [hreplaced] at hout'
        obtain ⟨x₂, rfl, hstart₂⟩ := Mark.before_stretch hne hmark hout' hstart m.getLast?
        rw [List.append_assoc, List.append_cancel_left_eq] at hout'
        obtain ⟨x', y', rfl, hx', hy, hspared⟩ := ih hrest (hstart₂.imp_left And.right) hout'
        refine ⟨m ++ x', y', (List.append_assoc ..).symm, ?_, hy, ?_⟩
        · rcases eq_or_ne x₂ [] with rfl | hx₂
          · obtain rfl : x' = [] := List.getLast?_eq_none_iff.mp hx'
            have hfirst := hstart₂.resolve_left fun h => h.1 rfl
            have hword := (hapart _ _ _ hm).2
            rw [List.nil_append, List.head?_append, Regex.head?_or_of_ne_nil hne,
              hfirst.1] at hword
            contradiction
          · rw [List.getLast?_append, List.getLast?_append, hx',
              Regex.getLast?_or_of_ne_nil hx₂, Regex.getLast?_or_of_ne_nil hx₂]
        · rw [List.length_append]
          exact hspared.cons (.found m)
      · rw [(hf m).resolve_right hreplaced] at hout'
        rcases List.append_eq_append_iff.mp hout' with ⟨x₂, rfl, hout₂⟩ | ⟨b, rfl, hrest'⟩
        · have hstart₂ : Ends sep (x₂.getLast?.or m.getLast?) ∨
              u.head?.any word = true ∧ ∀ v ∈ u.head?, v ∉ mark.text := by
            refine hstart.imp_left fun hends => ?_
            rwa [List.getLast?_append, Option.or_assoc, Regex.getLast?_or_of_ne_nil hmne] at hends
          obtain ⟨x', y', rfl, hx', hy, hspared⟩ := ih hrest hstart₂ hout₂
          refine ⟨m ++ x', y', (List.append_assoc ..).symm, ?_, hy, ?_⟩
          · rw [List.getLast?_append, List.getLast?_append, hx']
          · rw [List.length_append]
            exact hspared.cons (.found m)
        · have hend' : ((x ++ u).getLast?.or none).any word = true ∨ Ends sep y.head? := by
            rw [List.getLast?_append, Option.or_none]
            exact hendOr _
          obtain ⟨y', hsplit, hy, hclear⟩ := Clear.crosses hmne hreplaced hend'
            (fun w hw hend => stretch_starts hf hapart hnonempty (fun h => hmark (hw _ h)) hrest
              hend) hrest'.symm
          refine ⟨x, y', by rw [List.append_assoc, hsplit], rfl, hy, Clear.spared ?_⟩
          rwa [← List.length_append]

end Stretches

/-- No match that is replaced has a part of `u`, where that stands in `s` behind `x`. -/
def SparedAt (r : Regex α) (valid : List α → Bool) (s x u : List α) : Prop :=
  ∀ before m after, Finds r s before m after → valid m = true →
    before.length + m.length ≤ x.length ∨ x.length + u.length ≤ before.length

/-- A stretch that redaction has left, and that no mark reaches into, was there before with the same
elements next to it, and no match that is replaced had a part of it. -/
theorem spared_of_redact {sep : α → Bool} {mark : Mark sep} {r : Regex α}
    {valid : List α → Bool} {word : α → Bool} {s x u y : List α} (hapart : Apart word r)
    (hnonempty : ∀ before after, ¬Matches r before [] after) (hne : u ≠ [])
    (hmark : mark.first ∉ u)
    (hstart : Ends sep x.getLast? ∨ u.head?.any word = true ∧ ∀ v ∈ u.head?, v ∉ mark.text)
    (hend : u.getLast?.any word = true ∨ Ends sep y.head?)
    (hout : redact mark r valid s = x ++ u ++ y) :
    ∃ x' y', s = x' ++ u ++ y' ∧ x'.getLast? = x.getLast? ∧ y'.head? = y.head? ∧
      SparedAt r valid s x' u := by
  rw [List.append_assoc] at hout
  obtain ⟨x', y', rfl, hx, hy, hspared⟩ := stretch_located replaced_cases hapart hnonempty hne
    hmark (r.scanned_scan none s) (by rwa [Option.or_none]) hend hout
  refine ⟨x', y', (List.append_assoc ..).symm, hx, hy, ?_⟩
  rintro before m after ⟨ps₁, ps₂, hsplit, rfl, -⟩ hvalid
  exact hspared ps₁ m ps₂ hsplit (if_pos hvalid)

end Redaction
