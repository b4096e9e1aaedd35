import SmartIdVault.Lib.Utf

/-! Regular expressions as ECMAScript matches them: by backtracking, with greedy quantifiers and
without captures.  `run` lists the matches at a place of a text in the order in which they are
tried, and `Matches` says which there are.  `scan` cuts a text into the matches that a search with
the global flag finds one after the other and the elements between them. -/

inductive Regex (α : Type) where
  /-- A condition on the element before the place and the one after it. -/
  | assert (test : Option α → Option α → Bool)
  | set (test : α → Bool)
  | cat (r s : Regex α)
  | alt (r s : Regex α)
  | rep (r : Regex α) (min : Nat) (max : Option Nat)

namespace Regex

variable {α : Type}

/-! ### Matching -/

/-- The matches of a repetition: those with one more turn are tried first, and a turn after the
first `min` ones has to consume something.  The fuel counts turns. -/
def runRep (run : Option α → List α → List (List α)) :
    Nat → Nat → Option Nat → Option α → List α → List (List α)
  | 0, _, _, _, _ => []
  | fuel + 1, min, max, before, rest =>
    let more :=
      if max = some 0 then []
      else (run before rest).flatMap fun a =>
        if min = 0 && a.isEmpty then []
        else (runRep run fuel (min - 1) (max.map (· - 1)) (a.getLast?.or before)
          (rest.drop a.length)).map (a ++ ·)
    if min = 0 then more ++ [[]] else more

/-- What can be matched at the start of `rest`, after the element `before`. -/
def run : Regex α → Option α → List α → List (List α)
  | assert test, before, rest => if test before rest.head? then [[]] else []
  | set _, _, [] => []
  | set test, _, u :: _ => if test u then [[u]] else []
  | cat r s, before, rest => (run r before rest).flatMap fun a =>
      (run s (a.getLast?.or before) (rest.drop a.length)).map (a ++ ·)
  | alt r s, before, rest => run r before rest ++ run s before rest
  | rep r min max, before, rest => runRep (run r) (min + rest.length + 1) min max before rest

/-- The turns of a repetition. -/
inductive Turns (M : Option α → List α → Option α → Prop) :
    Nat → Option Nat → Option α → List α → Option α → Prop where
  | stop {max before after} : Turns M 0 max before [] after
  | turn {min max before a b after} (hmax : max ≠ some 0) (ha : M before a (b.head?.or after))
      (hmin : min = 0 → a ≠ [])
      (hb : Turns M (min - 1) (max.map (· - 1)) (a.getLast?.or before) b after) :
      Turns M min max before (a ++ b) after

/-- `m` matches between the elements `before` and `after`. -/
def Matches : Regex α → Option α → List α → Option α → Prop
  | assert test, before, m, after => m = [] ∧ test before after = true
  | set test, _, m, _ => ∃ u, m = [u] ∧ test u = true
  | cat r s, before, m, after => ∃ a b, m = a ++ b ∧ Matches r before a (b.head?.or after) ∧
      Matches s (a.getLast?.or before) b after
  | alt r s, before, m, after => Matches r before m after ∨ Matches s before m after
  | rep r min max, before, m, after => Turns (Matches r) min max before m after

theorem turns_iff {M : Option α → List α → Option α → Prop} {min : Nat} {max : Option Nat}
    {before after : Option α} {m : List α} :
    Turns M min max before m after ↔ (min = 0 ∧ m = []) ∨
      ∃ a b, m = a ++ b ∧ max ≠ some 0 ∧ M before a (b.head?.or after) ∧ (min = 0 → a ≠ []) ∧
        Turns M (min - 1) (max.map (· - 1)) (a.getLast?.or before) b after := by
  constructor
  · intro h
    cases h with
    | stop => exact .inl ⟨rfl, rfl⟩
    | @turn _ _ _ a b _ hmax ha hmin hb => exact .inr ⟨a, b, rfl, hmax, ha, hmin, hb⟩
  · rintro (⟨rfl, rfl⟩ | ⟨a, b, rfl, hmax, ha, hmin, hb⟩)
    · exact .stop
    · exact .turn hmax ha hmin hb

/-- One turn and the matches `g` of what follows, where only a turn below the least count may match
nothing. -/
theorem mem_turn_iff {f : Option α → List α → List (List α)} {g : List α → List α → List (List α)}
    {M : Option α → List α → Option α → Prop} {N : List α → List α → Option α → Prop}
    (hf : ∀ before rest m, m ∈ f before rest ↔ ∃ after, rest = m ++ after ∧ M before m after.head?)
    {min : Nat} {before : Option α} {rest m : List α}
    (hg : ∀ a b tail, rest = a ++ tail → (min = 0 → a ≠ []) →
      (b ∈ g a tail ↔ ∃ after, tail = b ++ after ∧ N a b after.head?)) :
    (m ∈ (f before rest).flatMap fun a =>
      if min = 0 && a.isEmpty then [] else (g a (rest.drop a.length)).map (a ++ ·)) ↔
      ∃ a b after, rest = a ++ b ++ after ∧ m = a ++ b ∧ M before a (b.head?.or after.head?) ∧
        (min = 0 → a ≠ []) ∧ N a b after.head? := by
  rw [List.mem_flatMap]
  constructor
  · rintro ⟨a, ha, hm⟩
    obtain ⟨tail, hrest, hM⟩ := (hf before rest a).mp ha
    split at hm
    next => simp at hm
    next hempty =>
      have hmin : min = 0 → a ≠ [] := by
        rintro hzero rfl
        simp [hzero] at hempty
      obtain ⟨b, hb, rfl⟩ := List.mem_map.mp hm
      rw [hrest, List.drop_left] at hb
      obtain ⟨after, rfl, hN⟩ := (hg a b tail hrest hmin).mp hb
      rw [List.head?_append] at hM
      exact ⟨a, b, after, by rw [hrest, List.append_assoc], rfl, hM, hmin, hN⟩
  · rintro ⟨a, b, after, hrest, rfl, hM, hmin, hN⟩
    rw [List.append_assoc] at hrest
    refine ⟨a, (hf before rest a).mpr ⟨b ++ after, hrest, by rwa [List.head?_append]⟩, ?_⟩
    have hempty : ¬((min = 0 && a.isEmpty) = true) := by
      simp only [Bool.and_eq_true, decide_eq_true_eq, List.isEmpty_iff, not_and]
      exact hmin
    rw [if_neg hempty, hrest, List.drop_left]
    exact List.mem_map.mpr ⟨b, (hg a b _ hrest hmin).mpr ⟨after, rfl, hN⟩, rfl⟩

theorem mem_runRep_iff {f : Option α → List α → List (List α)}
    {M : Option α → List α → Option α → Prop}
    (hf : ∀ before rest m, m ∈ f before rest ↔ ∃ after, rest = m ++ after ∧ M before m after.head?)
    (fuel min : Nat) (max : Option Nat) (before : Option α) (rest m : List α)
    (hfuel : min + rest.length < fuel) :
    m ∈ runRep f fuel min max before rest ↔
      ∃ after, rest = m ++ after ∧ Turns M min max before m after.head? := by
  induction fuel generalizing min max before rest m with
  | zero => omega
  | succ fuel ih =>
    have hturn (a b tail : List α) (hrest : rest = a ++ tail) (hmin : min = 0 → a ≠ []) :
        b ∈ runRep f fuel (min - 1) (max.map (· - 1)) (a.getLast?.or before) tail ↔
          ∃ after, tail = b ++ after ∧
            Turns M (min - 1) (max.map (· - 1)) (a.getLast?.or before) b after.head? := by
      apply ih
      have hlength := congrArg List.length hrest
      rw [List.length_append] at hlength
      rcases Nat.eq_zero_or_pos min with hzero | hpos
      · have hlt := List.length_pos_of_ne_nil (hmin hzero)
        omega
      · omega
    have hmore : (m ∈ if max = some 0 then [] else (f before rest).flatMap fun a =>
        if min = 0 && a.isEmpty then []
        else (runRep f fuel (min - 1) (max.map (· - 1)) (a.getLast?.or before)
          (rest.drop a.length)).map (a ++ ·)) ↔
        max ≠ some 0 ∧ ∃ a b after, rest = a ++ b ++ after ∧ m = a ++ b ∧
          M before a (b.head?.or after.head?) ∧ (min = 0 → a ≠ []) ∧
          Turns M (min - 1) (max.map (· - 1)) (a.getLast?.or before) b after.head? := by
      split
      next hmax => simp [hmax]
      next hmax => rw [mem_turn_iff hf hturn, and_iff_right hmax]
    have hcases : (∃ after, rest = m ++ after ∧ Turns M min max before m after.head?) ↔
        (min = 0 ∧ m = []) ∨ max ≠ some 0 ∧ ∃ a b after, rest = a ++ b ++ after ∧ m = a ++ b ∧
          M before a (b.head?.or after.head?) ∧ (min = 0 → a ≠ []) ∧
          Turns M (min - 1) (max.map (· - 1)) (a.getLast?.or before) b after.head? := by
      constructor
      · rintro ⟨after, hrest, hturns⟩
        rcases turns_iff.mp hturns with hstop | ⟨a, b, hm, hmax, hturns⟩
        · exact .inl hstop
        · exact .inr ⟨hmax, a, b, after, hm ▸ hrest, hm, hturns⟩
      · rintro (⟨rfl, rfl⟩ | ⟨hmax, a, b, after, hrest, hm, hturns⟩)
        · exact ⟨rest, rfl, .stop⟩
        · exact ⟨after, hm ▸ hrest, turns_iff.mpr (.inr ⟨a, b, hm, hmax, hturns⟩)⟩
    rw [hcases, ← hmore]
    simp only [runRep]
    split
    next hzero => simp [hzero, or_comm]
    next hzero => simp [hzero]

/-- The backtracking matcher finds every match. -/
theorem mem_run_iff (r : Regex α) (before : Option α) (rest m : List α) :
    m ∈ run r before rest ↔ ∃ after, rest = m ++ after ∧ Matches r before m after.head? := by
  induction r generalizing before rest m with
  | assert test =>
    simp only [run, Matches]
    split
    next h =>
      rw [List.mem_singleton]
      constructor
      · rintro rfl
        exact ⟨rest, rfl, rfl, h⟩
      · rintro ⟨after, -, hm, -⟩
        exact hm
    next h =>
      simp only [List.not_mem_nil, false_iff]
      rintro ⟨after, rfl, rfl, htest⟩
      exact h htest
  | set test =>
    cases rest with
    | nil =>
      simp only [run, Matches, List.not_mem_nil, false_iff]
      rintro ⟨after, hrest, u, rfl, -⟩
      simp at hrest
    | cons u rest =>
      simp only [run, Matches]
      split
      next h =>
        rw [List.mem_singleton]
        constructor
        · rintro rfl
          exact ⟨rest, rfl, u, rfl, h⟩
        · rintro ⟨after, hrest, v, rfl, -⟩
          rw [(List.cons.inj hrest).1]
      next h =>
        simp only [List.not_mem_nil, false_iff]
        rintro ⟨after, hrest, v, rfl, htest⟩
        exact h ((List.cons.inj hrest).1 ▸ htest)
  | cat r s ihr ihs =>
    simp only [run, Matches, List.mem_flatMap, List.mem_map]
    constructor
    · rintro ⟨a, ha, b, hb, rfl⟩
      obtain ⟨tail, rfl, hr⟩ := (ihr before rest a).mp ha
      rw [List.drop_left] at hb
      obtain ⟨after, rfl, hs⟩ := (ihs _ _ b).mp hb
      rw [List.head?_append] at hr
      exact ⟨after, (List.append_assoc ..).symm, a, b, rfl, hr, hs⟩
    · rintro ⟨after, rfl, a, b, rfl, hr, hs⟩
      rw [List.append_assoc]
      refine ⟨a, (ihr _ _ a).mpr ⟨b ++ after, rfl, by rwa [List.head?_append]⟩, b, ?_, rfl⟩
      rw [List.drop_left]
      exact (ihs _ _ b).mpr ⟨after, rfl, hs⟩
  | alt r s ihr ihs =>
    simp only [run, Matches, List.mem_append, ihr, ihs]
    constructor
    · rintro (⟨after, hrest, h⟩ | ⟨after, hrest, h⟩)
      · exact ⟨after, hrest, .inl h⟩
      · exact ⟨after, hrest, .inr h⟩
    · rintro ⟨after, hrest, h | h⟩
      · exact .inl ⟨after, hrest, h⟩
      · exact .inr ⟨after, hrest, h⟩
  | rep r min max ih =>
    exact mem_runRep_iff ih _ _ _ _ _ _ (by omega)

/-- The least length of a match. -/
def minLength : Regex α → Nat
  | assert _ => 0
  | set _ => 1
  | cat r s => r.minLength + s.minLength
  | alt r s => Nat.min r.minLength s.minLength
  | rep r min _ => min * r.minLength

theorem Matches.minLength_le {r : Regex α} {before after : Option α} {m : List α}
    (h : Matches r before m after) : r.minLength ≤ m.length := by
  induction r generalizing before m after with
  | assert test => exact Nat.zero_le _
  | set test =>
    obtain ⟨u, rfl, -⟩ := h
    exact Nat.le_refl _
  | cat r s ihr ihs =>
    obtain ⟨a, b, rfl, ha, hb⟩ := h
    rw [List.length_append]
    exact Nat.add_le_add (ihr ha) (ihs hb)
  | alt r s ihr ihs =>
    rcases h with h | h
    · exact Nat.le_trans (Nat.min_le_left _ _) (ihr h)
    · exact Nat.le_trans (Nat.min_le_right _ _) (ihs h)
  | rep r min max ih =>
    have hturns : Turns (Matches r) min max before m after := h
    show min * r.minLength ≤ m.length
    induction hturns with
    | stop => simp
    | @turn min max before a b after _ ha _ hb ihb =>
      have hle := ih ha
      have hrest := ihb hb
      have hstep : min * r.minLength ≤ (min - 1) * r.minLength + r.minLength := by
        rw [← Nat.succ_mul]
        exact Nat.mul_le_mul_right _ (by omega)
      rw [List.length_append]
      omega

theorem not_matches_nil {r : Regex α} (h : 0 < r.minLength) (before after : Option α) :
    ¬Matches r before [] after := by
  intro hm
  have hle := hm.minLength_le
  rw [List.length_nil] at hle
  omega

/-! ### Sequences and choices -/

def seq : List (Regex α) → Regex α
  | [] => assert fun _ _ => true
  | r :: rs => cat r (seq rs)

def anyOf : List (Regex α) → Regex α
  | [] => set fun _ => false
  | r :: rs => alt r (anyOf rs)

/-! ### Searching -/

/-- A part of a text that is searched. -/
inductive Piece (α : Type) where
  | unit (u : α)
  | found (m : List α)

def Piece.text : Piece α → List α
  | unit u => [u]
  | found m => m

def Piece.replaced (f : List α → List α) : Piece α → List α
  | unit u => [u]
  | found m => f m

def Piece.match? : Piece α → Option (List α)
  | unit _ => none
  | found m => some m

/-- The search with the global flag.  `skip` counts what is left to pass of the last match; an empty
match moves the search on by one element. -/
def scan (r : Regex α) : Option α → Nat → List α → List (Piece α)
  | before, _, [] => ((run r before []).head?.map Piece.found).toList
  | _, skip + 1, u :: rest => scan r (some u) skip rest
  | before, 0, u :: rest =>
    match (run r before (u :: rest)).head? with
    | none => .unit u :: scan r (some u) 0 rest
    | some [] => .found [] :: .unit u :: scan r (some u) 0 rest
    | some (v :: m) => .found (v :: m) :: scan r (some u) m.length rest

/-- `s.match(r)` with the global flag. -/
def allMatches (r : Regex α) (s : List α) : List (List α) :=
  (scan r none 0 s).filterMap Piece.match?

/-- `s.replace(r, f)` with the global flag. -/
def replaceAll (r : Regex α) (f : List α → List α) (s : List α) : List α :=
  (scan r none 0 s).flatMap (Piece.replaced f)

/-- `r.test` without the global flag, from a place of a text on. -/
def testFrom (r : Regex α) : Option α → List α → Bool
  | before, [] => !(run r before []).isEmpty
  | before, u :: rest => !(run r before (u :: rest)).isEmpty || testFrom r (some u) rest

def test (r : Regex α) (s : List α) : Bool := testFrom r none s

/-- The parts that a search finds in a text. -/
inductive Scanned (r : Regex α) : Option α → List α → List (Piece α) → Prop where
  | nil {before} (h : ¬Matches r before [] none) : Scanned r before [] []
  | last {before} (h : Matches r before [] none) : Scanned r before [] [.found []]
  | unit {before u rest ps}
      (h : ∀ m after, u :: rest = m ++ after → ¬Matches r before m after.head?)
      (hrest : Scanned r (some u) rest ps) : Scanned r before (u :: rest) (.unit u :: ps)
  | void {before u rest ps} (h : Matches r before [] (some u))
      (hrest : Scanned r (some u) rest ps) :
      Scanned r before (u :: rest) (.found [] :: .unit u :: ps)
  | found {before m rest ps} (hne : m ≠ []) (h : Matches r before m rest.head?)
      (hrest : Scanned r m.getLast? rest ps) : Scanned r before (m ++ rest) (.found m :: ps)

/-- The element before a place, when one more is passed. -/
theorem getLast?_cons_or (u : α) (m : List α) (before : Option α) :
    (u :: m).getLast?.or before = m.getLast?.or (some u) := by
  rw [List.getLast?_cons]
  cases m.getLast? <;> rfl

theorem getLast?_or_of_ne_nil {m : List α} (h : m ≠ []) (before : Option α) :
    m.getLast?.or before = m.getLast? := by
  rw [List.getLast?_eq_some_getLast h, Option.some_or]

theorem head?_or_of_ne_nil {m : List α} (h : m ≠ []) (after : Option α) :
    m.head?.or after = m.head? := by
  rw [List.head?_eq_some_head h, Option.some_or]

theorem scan_append (r : Regex α) (m rest : List α) (before : Option α) :
    scan r before m.length (m ++ rest) = scan r (m.getLast?.or before) 0 rest := by
  induction m generalizing before with
  | nil => rfl
  | cons u m ih =>
    rw [List.length_cons, List.cons_append, scan, ih, getLast?_cons_or]

theorem run_head?_eq_none {r : Regex α} {before : Option α} {rest : List α}
    (h : (run r before rest).head? = none) (m after : List α) (hrest : rest = m ++ after) :
    ¬Matches r before m after.head? := by
  intro hm
  have hmem := (mem_run_iff r before rest m).mpr ⟨after, hrest, hm⟩
  rw [List.head?_eq_none_iff.mp h] at hmem
  simp at hmem

theorem matches_of_head? {r : Regex α} {before : Option α} {rest m : List α}
    (h : (run r before rest).head? = some m) : ∃ after, rest = m ++ after ∧
    Matches r before m after.head? :=
  (mem_run_iff r before rest m).mp (List.mem_of_head? h)

theorem scanned_scan (r : Regex α) (before : Option α) (s : List α) :
    Scanned r before s (scan r before 0 s) := by
  induction hlength : s.length using Nat.strong_induction_on generalizing before s with
  | _ n ih =>
    cases s with
    | nil =>
      cases h : (run r before []).head? with
      | none =>
        rw [scan, h]
        exact .nil (run_head?_eq_none h [] [] rfl)
      | some m =>
        obtain ⟨after, hnil, hm⟩ := matches_of_head? h
        obtain ⟨rfl, rfl⟩ := List.append_eq_nil_iff.mp hnil.symm
        rw [scan, h]
        exact .last hm
    | cons u rest =>
      have hrest := ih rest.length (by rw [← hlength]; simp) (some u) rest rfl
      cases h : (run r before (u :: rest)).head? with
      | none =>
        rw [scan, h]
        exact .unit (fun m after => run_head?_eq_none h m after) hrest
      | some m =>
        obtain ⟨after, htext, hm⟩ := matches_of_head? h
        cases m with
        | nil =>
          rw [scan, h]
          obtain rfl : u :: rest = after := htext
          exact .void hm hrest
        | cons v m =>
          obtain ⟨rfl, rfl⟩ := List.cons.inj htext
          have hscan : scan r (some u) m.length (m ++ after) =
              scan r (u :: m).getLast? 0 after := by
            rw [scan_append, ← getLast?_cons_or u m none, Option.or_none]
          rw [scan, h]
          show Scanned r before ((u :: m) ++ after)
            (.found (u :: m) :: scan r (some u) m.length (m ++ after))
          rw [hscan]
          refine .found (by simp) hm (ih after.length ?_ _ after rfl)
          rw [← hlength]
          show after.length < (u :: (m ++ after)).length
          rw [List.length_cons, List.length_append]
          omega

theorem Scanned.flatMap_text {r : Regex α} {before : Option α} {s : List α} {ps : List (Piece α)}
    (h : Scanned r before s ps) : ps.flatMap Piece.text = s := by
  induction h with
  | nil => rfl
  | last => rfl
  | unit _ _ ih => exact congrArg (_ :: ·) ih
  | void _ _ ih => exact congrArg (_ :: ·) ih
  | found _ _ _ ih => exact congrArg (_ ++ ·) ih

/-- A text without matches is left as it is. -/
theorem replaceAll_of_allMatches_eq_nil {r : Regex α} {s : List α} (h : allMatches r s = [])
    (f : List α → List α) : replaceAll r f s = s := by
  have hparts : ∀ p ∈ scan r none 0 s, p.replaced f = p.text := by
    intro p hp
    cases p with
    | unit u => rfl
    | found m =>
      have hmem : m ∈ allMatches r s := List.mem_filterMap.mpr ⟨_, hp, rfl⟩
      rw [h] at hmem
      simp at hmem
  rw [replaceAll, List.flatMap_congr hparts]
  exact (scanned_scan r none s).flatMap_text

/-- A test looks for a match at every place. -/
theorem testFrom_iff (r : Regex α) (before : Option α) (s : List α) : testFrom r before s = true ↔
    ∃ a m b, s = a ++ m ++ b ∧ Matches r (a.getLast?.or before) m b.head? := by
  have hhere (before : Option α) (s : List α) : (!(run r before s).isEmpty) = true ↔
      ∃ m b, s = m ++ b ∧ Matches r before m b.head? := by
    rw [Bool.not_eq_true', List.isEmpty_eq_false_iff_exists_mem]
    simp only [mem_run_iff]
  induction s generalizing before with
  | nil =>
    rw [testFrom, hhere]
    constructor
    · rintro ⟨m, b, hnil, hm⟩
      exact ⟨[], m, b, hnil, hm⟩
    · rintro ⟨a, m, b, hnil, hm⟩
      obtain ⟨hnil', rfl⟩ := List.append_eq_nil_iff.mp hnil.symm
      obtain ⟨rfl, rfl⟩ := List.append_eq_nil_iff.mp hnil'
      exact ⟨[], [], rfl, hm⟩
  | cons u rest ih =>
    rw [testFrom, Bool.or_eq_true]
    refine (or_congr (hhere before (u :: rest)) (ih (some u))).trans ?_
    constructor
    · rintro (⟨m, b, htext, hm⟩ | ⟨a, m, b, rfl, hm⟩)
      · exact ⟨[], m, b, htext, hm⟩
      · exact ⟨u :: a, m, b, rfl, by rwa [getLast?_cons_or]⟩
    · rintro ⟨a, m, b, htext, hm⟩
      cases a with
      | nil => exact .inl ⟨m, b, htext, hm⟩
      | cons v a =>
        obtain ⟨rfl, rfl⟩ := List.cons.inj htext
        exact .inr ⟨a, m, b, rfl, by rwa [getLast?_cons_or] at hm⟩

/-! ### Matches wherever they stand -/

section Always

variable {r s : Regex α} {test : α → Bool} {min : Nat} {max : Option Nat} {a b : List α}

/-- `a` matches whatever is around it. -/
def Always (r : Regex α) (a : List α) : Prop := ∀ before after, Matches r before a after

theorem Always.cat (ha : Always r a) (hb : Always s b) : Always (cat r s) (a ++ b) :=
  fun _ _ => ⟨a, b, rfl, ha _ _, hb _ _⟩

theorem Always.set {u : α} (h : test u = true) : Always (set test) [u] := fun _ _ => ⟨u, rfl, h⟩

theorem Always.repeated {parts : List (List α)} (h : ∀ a ∈ parts, a ≠ [] ∧ Always r a)
    (hmin : min ≤ parts.length) (hmax : ∀ k ∈ max, parts.length ≤ k) :
    Always (rep r min max) parts.flatten := by
  intro before after
  show Turns (Matches r) min max before parts.flatten after
  induction parts generalizing min max before with
  | nil =>
    obtain rfl : min = 0 := Nat.le_zero.mp hmin
    exact .stop
  | cons a parts ih =>
    rw [List.forall_mem_cons] at h
    rw [List.length_cons] at hmin hmax
    refine .turn ?_ (h.1.2 _ _) (fun _ => h.1.1) (ih h.2 (by omega) ?_ _)
    · rintro rfl
      have hzero := hmax 0 rfl
      omega
    · intro k hk
      obtain ⟨j, hj, rfl⟩ := Option.mem_map.mp hk
      have hle := hmax j hj
      omega

theorem Always.repeatedSet (h : ∀ u ∈ a, test u = true) (hmin : min ≤ a.length)
    (hmax : ∀ k ∈ max, a.length ≤ k) : Always (rep (Regex.set test) min max) a := by
  have hparts : Always (rep (Regex.set test) min max) (a.map fun u => [u]).flatten := by
    refine Always.repeated ?_ (by simpa using hmin) (by simpa using hmax)
    intro part hpart
    obtain ⟨u, hu, rfl⟩ := List.mem_map.mp hpart
    exact ⟨by simp, Always.set (h u hu)⟩
  rwa [← List.flatMap_def, List.flatMap_singleton'] at hparts

theorem Always.star (h : ∀ u ∈ a, test u = true) : Always (rep (Regex.set test) 0 none) a :=
  Always.repeatedSet h (Nat.zero_le _) (by simp)

theorem Always.seq_nil : Always (seq ([] : List (Regex α))) [] := fun _ _ => ⟨rfl, rfl⟩

theorem Always.seq_cons {rs : List (Regex α)} (ha : Always r a) (hb : Always (seq rs) b) :
    Always (seq (r :: rs)) (a ++ b) :=
  Always.cat ha hb

/-- `r?`. -/
def opt (r : Regex α) : Regex α := rep r 0 (some 1)

theorem Always.opt_nil : Always (opt r) [] := fun _ _ => .stop

theorem Always.opt (h : Always r a) (hne : a ≠ []) : Always (Regex.opt r) a := by
  have hparts : Always (Regex.opt r) [a].flatten :=
    Always.repeated (by simpa using ⟨hne, h⟩) (Nat.zero_le _) (by simp)
  rwa [List.flatten_singleton] at hparts

/-- The assertions in the expression always hold. -/
def Plain : Regex α → Prop
  | assert test => ∀ before after, test before after = true
  | set _ => True
  | cat r s | alt r s => r.Plain ∧ s.Plain
  | rep r _ _ => r.Plain

/-- A match of an expression without assertions is one wherever it stands. -/
theorem Matches.always (hr : r.Plain) {before after : Option α} {m : List α}
    (h : Matches r before m after) : Always r m := by
  induction r generalizing before m after with
  | assert test => exact fun before after => ⟨h.1, hr before after⟩
  | set test => exact fun _ _ => h
  | cat r s ihr ihs =>
    obtain ⟨a, b, rfl, ha, hb⟩ := h
    exact (ihr hr.1 ha).cat (ihs hr.2 hb)
  | alt r s ihr ihs =>
    rcases h with h | h
    · exact fun before after => .inl (ihr hr.1 h before after)
    · exact fun before after => .inr (ihs hr.2 h before after)
  | rep r min max ih =>
    have hturns : Turns (Matches r) min max before m after := h
    have hplain : r.Plain := hr
    clear h hr
    intro before' after'
    show Turns (Matches r) min max before' m after'
    induction hturns generalizing before' with
    | stop => exact .stop
    | turn hmax ha hmin _ ihb => exact .turn hmax (ih hplain ha _ _) hmin (ihb _)

end Always

/-- The parts that the turns of a repetition match. -/
theorem Turns.exists_parts {M : Option α → List α → Option α → Prop} {min : Nat} {max : Option Nat}
    {before after : Option α} {m : List α} (h : Turns M min max before m after) :
    ∃ parts : List (List α), m = parts.flatten ∧ min ≤ parts.length ∧ (∀ k ∈ max, parts.length ≤ k) ∧
      ∀ part ∈ parts, ∃ before after, M before part after := by
  induction h with
  | stop => exact ⟨[], rfl, Nat.zero_le _, fun k _ => Nat.zero_le k, by simp⟩
  | @turn min max before a b after hmax ha hmin hb ih =>
    obtain ⟨parts, rfl, hle, hmaxParts, hparts⟩ := ih
    refine ⟨a :: parts, rfl, ?_, ?_, List.forall_mem_cons.mpr ⟨⟨_, _, ha⟩, hparts⟩⟩
    · rw [List.length_cons]
      omega
    · intro k hk
      have hpos : k ≠ 0 := by
        rintro rfl
        exact hmax hk
      have hle := hmaxParts (k - 1) (Option.mem_map.mpr ⟨k, hk, rfl⟩)
      rw [List.length_cons]
      omega

theorem Matches.repeatedSet {test : α → Bool} {min : Nat} {max : Option Nat}
    {before after : Option α} {m : List α}
    (h : Matches (rep (set test) min max) before m after) :
    (∀ u ∈ m, test u = true) ∧ min ≤ m.length ∧ ∀ k ∈ max, m.length ≤ k := by
  obtain ⟨parts, rfl, hmin, hmax, hparts⟩ := Turns.exists_parts h
  have hsingle : ∀ part ∈ parts, ∃ u, part = [u] ∧ test u = true := by
    intro part hpart
    obtain ⟨_, _, hm⟩ := hparts part hpart
    exact hm
  have hlength : parts.flatten.length = parts.length := by
    have hones : parts.map List.length = parts.map fun _ => 1 := by
      refine List.map_congr_left fun part hpart => ?_
      obtain ⟨u, rfl, -⟩ := hsingle part hpart
      rfl
    rw [List.length_flatten, hones]
    simp
  rw [hlength]
  refine ⟨fun u hu => ?_, hmin, hmax⟩
  obtain ⟨part, hpart, hu⟩ := List.mem_flatten.mp hu
  obtain ⟨v, rfl, hv⟩ := hsingle part hpart
  rwa [List.mem_singleton.mp hu]

/-! ### Classes of ECMAScript -/

/-- `\s`. -/
def isSpace (u : UInt16) : Bool :=
  9 ≤ u && u ≤ 13 || 0x2000 ≤ u && u ≤ 0x200A ||
    [0x20, 0xA0, 0x1680, 0x2028, 0x2029, 0x202F, 0x205F, 0x3000, 0xFEFF].contains u

/-- `\w`. -/
def isWord (u : UInt16) : Bool :=
  48 ≤ u && u ≤ 57 || 65 ≤ u && u ≤ 90 || 97 ≤ u && u ≤ 122 || u = 95

/-- `\b`. -/
def wordBoundary (before after : Option UInt16) : Bool := before.any isWord != after.any isWord

/-- `\br\b`. -/
def bounded (r : Regex UInt16) : Regex UInt16 :=
  cat (assert wordBoundary) (cat r (assert wordBoundary))

section Bounded

variable {r : Regex UInt16} {before after : Option UInt16} {m : Utf16}

theorem bounded_ends (h : Matches (bounded r) before m after) :
    wordBoundary (m.getLast?.or before) after = true := by
  obtain ⟨_, m, rfl, ⟨rfl, -⟩, a, _, rfl, -, rfl, hend⟩ := h
  simpa using hend

theorem bounded_inner (h : Matches (bounded r) before m after) : Matches r before m after := by
  obtain ⟨_, _, rfl, ⟨rfl, -⟩, m, _, rfl, hm, rfl, -⟩ := h
  simpa using hm

/-- No word stands before a match that starts with one. -/
theorem before_of_bounded (h : Matches (bounded r) before m after)
    (hfirst : m.head?.any isWord = true) : before.any isWord = false := by
  obtain ⟨_, _, rfl, ⟨rfl, hstart⟩, m, _, rfl, -, rfl, -⟩ := h
  cases m with
  | nil => simp at hfirst
  | cons u m => simpa [wordBoundary, show isWord u = true from hfirst] using hstart

/-- No word stands after a match that ends in one. -/
theorem after_of_bounded (h : Matches (bounded r) before m after)
    (hlast : m.getLast?.any isWord = true) : after.any isWord = false := by
  have hend := bounded_ends h
  cases hm : m.getLast? with
  | none =>
    rw [hm] at hlast
    simp at hlast
  | some u =>
    rw [hm] at hend hlast
    simpa [wordBoundary, show isWord u = true from hlast] using hend

end Bounded

theorem Always.bounded {r : Regex UInt16} {before after : Option UInt16} {m : Utf16}
    (h : Always r m) (hstart : wordBoundary before (m.head?.or after) = true)
    (hend : wordBoundary (m.getLast?.or before) after = true) :
    Matches (Regex.bounded r) before m after :=
  ⟨[], m, rfl, ⟨rfl, hstart⟩, m, [], by simp, by simpa using h _ _, rfl, by simpa using hend⟩

end Regex
