import Mathlib.Data.List.Induction
import Mathlib.Order.Lattice
import Mathlib.Tactic.Common

/-! A counter of events over fixed windows.  An event after the deadline of the window opens the
next one and any other event adds to the count, so the count of a window speaks of the events since
the one that opened it and of no others. -/

namespace FixedWindow

variable {T : Type*} [LinearOrder T] (deadline : T → T)

structure Window (T : Type*) where
  count : Nat
  openedAt : T
  deriving DecidableEq, Repr

def record (w : Option (Window T)) (t : T) : Window T :=
  match w with
  | none => ⟨1, t⟩
  | some w => if deadline w.openedAt < t then ⟨1, t⟩ else ⟨w.count + 1, w.openedAt⟩

/-- The window after the events `ts`. -/
def window (ts : List T) : Option (Window T) :=
  ts.foldl (fun w t => some (record deadline w t)) none

/-- Event `i` opens a window: it is the first one, or the first after the deadline of the window
before. -/
inductive Opens (ts : List T) : Nat → Prop
  | first {a : T} : ts[0]? = some a → Opens ts 0
  | next {i j : Nat} {a c : T} : Opens ts i → ts[i]? = some a → i < j →
      (∀ k b, i < k → k < j → ts[k]? = some b → b ≤ deadline a) → ts[j]? = some c →
      deadline a < c → Opens ts j

/-- Some window still takes the event that comes `m` after the one that opened it. -/
def Reached (m : Nat) (ts : List T) : Prop :=
  ∃ i a c, Opens deadline ts i ∧ ts[i]? = some a ∧ ts[i + m]? = some c ∧ c ≤ deadline a

/-- Event `i`, at `a`, opened the window there is. -/
structure LastOpener (ts : List T) (i : Nat) (a : T) : Prop where
  opens : Opens deadline ts i
  opener : ts[i]? = some a
  rest : ∀ k b, i < k → ts[k]? = some b → b ≤ deadline a

variable {deadline} {ts : List T} {t : T}

theorem window_append_singleton :
    window deadline (ts ++ [t]) = some (record deadline (window deadline ts) t) := by
  rw [window, List.foldl_append]
  rfl

/-- An event after the deadline of the window there is begins anew. -/
theorem record_of_late {w : Option (Window T)} (h : ∀ v ∈ w, deadline v.openedAt < t) :
    record deadline w t = ⟨1, t⟩ := by
  cases w with
  | none => rfl
  | some v => rw [record, if_pos (h v rfl)]

theorem window_append_of_late {es : List T}
    (h : ∀ v ∈ window deadline es, deadline v.openedAt < t) :
    window deadline (es ++ t :: ts) = window deadline (t :: ts) := by
  have hfirst : some (record deadline (window deadline es) t) = some (record deadline none t) := by
    rw [record_of_late h, record]
  rw [window, List.foldl_append, List.foldl_cons, ← window, hfirst, window, List.foldl_cons]

/-! ### Which events open a window -/

theorem Opens.lt_length {i : Nat} (h : Opens deadline ts i) : i < ts.length := by
  cases h with
  | first h => exact (List.getElem?_eq_some_iff.mp h).1
  | next _ _ _ _ h _ => exact (List.getElem?_eq_some_iff.mp h).1

theorem Opens.append {i : Nat} (h : Opens deadline ts i) : Opens deadline (ts ++ [t]) i := by
  have left {k : Nat} (hk : k < ts.length) : (ts ++ [t])[k]? = ts[k]? :=
    List.getElem?_append_left hk
  induction h with
  | first h => exact .first ((left (List.getElem?_eq_some_iff.mp h).1).trans h)
  | @next i j a c hi ha hij hbetween hc hlate ih =>
    have hj : j < ts.length := (List.getElem?_eq_some_iff.mp hc).1
    refine .next ih ((left (by omega)).trans ha) hij ?_ ((left hj).trans hc) hlate
    intro k b hik hkj hb
    exact hbetween k b hik hkj ((left (by omega)).symm.trans hb)

theorem Opens.of_append {i : Nat} (h : Opens deadline (ts ++ [t]) i) (hi : i < ts.length) :
    Opens deadline ts i := by
  have left {k : Nat} (hk : k < ts.length) : (ts ++ [t])[k]? = ts[k]? :=
    List.getElem?_append_left hk
  induction h with
  | first h => exact .first ((left hi).symm.trans h)
  | @next i j a c _ ha hij hbetween hc hlate ih =>
    refine .next (ih (by omega)) ((left (by omega)).symm.trans ha) hij ?_
      ((left hi).symm.trans hc) hlate
    intro k b hik hkj hb
    exact hbetween k b hik hkj ((left (by omega)).trans hb)

/-- The events are in order of time. -/
theorem le_of_sorted (hs : ts.Pairwise (· ≤ ·)) {i j : Nat} {a c : T} (hij : i ≤ j)
    (ha : ts[i]? = some a) (hc : ts[j]? = some c) : a ≤ c := by
  obtain ⟨hi, rfl⟩ := List.getElem?_eq_some_iff.mp ha
  obtain ⟨hj, rfl⟩ := List.getElem?_eq_some_iff.mp hc
  rcases Nat.lt_or_eq_of_le hij with hlt | rfl
  · exact List.pairwise_iff_getElem.mp hs i j hi hj hlt
  · exact le_rfl

/-- An event that opens a window comes after the deadlines of all windows before it. -/
theorem Opens.late (hs : ts.Pairwise (· ≤ ·)) {i j : Nat} {a c : T} (hi : Opens deadline ts i)
    (hj : Opens deadline ts j) (hij : i < j) (ha : ts[i]? = some a) (hc : ts[j]? = some c) :
    deadline a < c := by
  induction j using Nat.strongRecOn generalizing i a c with
  | ind j ih =>
    cases hj with
    | first => exact absurd hij (Nat.not_lt_zero i)
    | @next p _ b _ hp hb hpj hbetween hc' hlate =>
      obtain rfl : _ = c := Option.some.inj (hc'.symm.trans hc)
      rcases Nat.lt_trichotomy i p with hip | rfl | hpi
      · exact lt_of_lt_of_le (ih p hpj hi hp hip ha hb) (le_of_sorted hs (Nat.le_of_lt hpj) hb hc)
      · obtain rfl : a = b := Option.some.inj (ha.symm.trans hb)
        exact hlate
      · have hle : a ≤ deadline b := hbetween i a hpi hij ha
        exact absurd (ih i hij hp hi hpi hb ha) (not_lt.mpr hle)

/-! ### The count -/

variable (deadline) in
/-- The window there is was opened by the last event that opened one, and counts from it. -/
theorem exists_lastOpener (h : ts ≠ []) :
    ∃ i a, LastOpener deadline ts i a ∧ window deadline ts = some ⟨ts.length - i, a⟩ := by
  induction ts using List.reverseRecOn with
  | nil => exact absurd rfl h
  | append_singleton ts t ih =>
    have hlast : (ts ++ [t])[ts.length]? = some t := by simp
    have left {k : Nat} (hk : k < ts.length) : (ts ++ [t])[k]? = ts[k]? :=
      List.getElem?_append_left hk
    have range {k : Nat} {b : T} (hk : (ts ++ [t])[k]? = some b) : k < ts.length + 1 := by
      simpa using (List.getElem?_eq_some_iff.mp hk).1
    rw [window_append_singleton]
    by_cases hnil : ts = []
    · subst hnil
      exact ⟨0, t, ⟨.first rfl, rfl, fun k b hk hb => absurd (range hb) (by simp; omega)⟩, rfl⟩
    · obtain ⟨i, a, ⟨hopens, ha, hrest⟩, hwindow⟩ := ih hnil
      have hi := hopens.lt_length
      simp only [hwindow, record]
      by_cases hlate : deadline a < t
      · rw [if_pos hlate]
        refine ⟨ts.length, t, ⟨.next hopens.append ((left hi).trans ha) hi ?_ hlast hlate, hlast,
          fun k b hk hb => absurd (range hb) (by omega)⟩, by simp⟩
        intro k b hik hk hb
        exact hrest k b hik ((left hk).symm.trans hb)
      · rw [if_neg hlate]
        refine ⟨i, a, ⟨hopens.append, (left hi).trans ha, fun k b hik hb => ?_⟩, ?_⟩
        · by_cases hk : k < ts.length
          · exact hrest k b hik ((left hk).symm.trans hb)
          · obtain rfl : k = ts.length := by have := range hb; omega
            obtain rfl : t = b := Option.some.inj (hlast.symm.trans hb)
            exact not_lt.mp hlate
        · rw [List.length_append, List.length_singleton, Nat.sub_add_comm (Nat.le_of_lt hi)]

/-- The window there is has ended when all that were opened have. -/
theorem late_of_opens {es : List T}
    (h : ∀ i a, Opens deadline es i → es[i]? = some a → deadline a < t) :
    ∀ v ∈ window deadline es, deadline v.openedAt < t := by
  intro v hv
  have hne : es ≠ [] := by
    rintro rfl
    cases hv
  obtain ⟨i, a, hlast, hwindow⟩ := exists_lastOpener deadline hne
  obtain rfl := Option.some.inj (hwindow.symm.trans hv)
  exact h i a hlast.opens hlast.opener

theorem Reached.append {m : Nat} (h : Reached deadline m ts) : Reached deadline m (ts ++ [t]) := by
  obtain ⟨i, a, c, hopens, ha, hc, hle⟩ := h
  have left {k : Nat} {b : T} (hk : ts[k]? = some b) : (ts ++ [t])[k]? = some b :=
    (List.getElem?_append_left (List.getElem?_eq_some_iff.mp hk).1).trans hk
  exact ⟨i, a, c, hopens.append, left ha, left hc, hle⟩

theorem count_le_of_not_reached {m : Nat} (hm : 0 < m) (h : ¬Reached deadline m ts)
    {w : Window T} (hw : window deadline ts = some w) : w.count ≤ m := by
  by_cases hnil : ts = []
  · subst hnil
    cases hw
  · obtain ⟨i, a, hlast, hwindow⟩ := exists_lastOpener deadline hnil
    obtain rfl := Option.some.inj (hwindow.symm.trans hw)
    by_contra hlt
    have him : i + m < ts.length := by
      simp only at hlt
      omega
    have hget : ts[i + m]? = some ts[i + m] := List.getElem?_eq_getElem him
    exact h ⟨i, a, _, hlast.opens, hlast.opener, hget, hlast.rest _ _ (by omega) hget⟩

/-- With a new event a window takes its event `m` exactly when one did before or the count is now
one more than `m`. -/
theorem reached_append_iff {m : Nat} (hm : 0 < m) (hs : (ts ++ [t]).Pairwise (· ≤ ·)) :
    Reached deadline m (ts ++ [t]) ↔ Reached deadline m ts ∨
      (record deadline (window deadline ts) t).count = m + 1 := by
  have hne : ts ++ [t] ≠ [] := List.append_ne_nil_of_right_ne_nil ts (List.cons_ne_nil t [])
  obtain ⟨l, b, hlast, hwindow⟩ := exists_lastOpener deadline hne
  have hend : (ts ++ [t])[ts.length]? = some t := by simp
  rw [window_append_singleton, Option.some.injEq] at hwindow
  rw [hwindow, List.length_append, List.length_singleton]
  have hl : l < ts.length + 1 := by simpa using hlast.opens.lt_length
  constructor
  · rintro ⟨i, a, c, hopens, ha, hc, hle⟩
    have him : i + m < ts.length + 1 := by simpa using (List.getElem?_eq_some_iff.mp hc).1
    by_cases hlt : i + m < ts.length
    · have left {k : Nat} (hk : k < ts.length) : (ts ++ [t])[k]? = ts[k]? :=
        List.getElem?_append_left hk
      exact .inl ⟨i, a, c, hopens.of_append (by omega), (left (by omega)).symm.trans ha,
        (left hlt).symm.trans hc, hle⟩
    · right
      -- the window that takes the new event is the last one
      have hil : i = l := by
        rcases Nat.lt_trichotomy i l with h | h | h
        · have hbt : b ≤ c := le_of_sorted hs (by omega) hlast.opener hc
          exact absurd (hopens.late hs hlast.opens h ha hlast.opener)
            (not_lt.mpr (le_trans hbt hle))
        · exact h
        · exact absurd (hlast.opens.late hs hopens h hlast.opener ha)
            (not_lt.mpr (hlast.rest i a h ha))
      simp only
      omega
  · rintro (h | h)
    · exact h.append
    · simp only at h
      have hlm : l + m = ts.length := by omega
      exact ⟨l, b, t, hlast.opens, hlast.opener, hlm ▸ hend, hlast.rest _ t (by omega) hend⟩

/-! ### How many events a span of time has -/

/-- Windows one after the other, each with the event that opened it and the others that it took,
fewer than `m` of them. -/
structure Filled (deadline : T → T) (m : Nat) (ws : List (T × List T)) : Prop where
  room : ∀ w ∈ ws, w.2.length < m
  inside : ∀ w ∈ ws, ∀ t ∈ w.2, w.1 ≤ t ∧ t ≤ deadline w.1
  apart : ws.Pairwise fun v w => deadline v.1 < w.1

def events (ws : List (T × List T)) : List T := ws.flatMap fun w => w.1 :: w.2

variable {m : Nat} {ws : List (T × List T)} {opener : T} {rest : List T}

omit [LinearOrder T] in
theorem events_snoc : events (ws ++ [(opener, rest)]) = events ws ++ opener :: rest := by
  simp [events]

theorem Filled.nil : Filled deadline m [] := ⟨by simp, by simp, .nil⟩

theorem Filled.snoc (h : Filled deadline m ws) (hm : 0 < m) (hlate : ∀ w ∈ ws, deadline w.1 < t) :
    Filled deadline m (ws ++ [(t, [])]) := by
  refine ⟨?_, ?_, List.pairwise_append.mpr ⟨h.apart, List.pairwise_singleton _ _, ?_⟩⟩
  · intro w hw
    rcases List.mem_append.mp hw with hw | hw
    · exact h.room w hw
    · rw [List.mem_singleton.mp hw]
      exact hm
  · intro w hw u hu
    rcases List.mem_append.mp hw with hw | hw
    · exact h.inside w hw u hu
    · rw [List.mem_singleton.mp hw] at hu
      contradiction
  · intro v hv w hw
    rw [List.mem_singleton.mp hw]
    exact hlate v hv

/-- The last window takes an event. -/
theorem Filled.take (h : Filled deadline m (ws ++ [(opener, rest)])) (hroom : rest.length + 1 < m)
    (ht : opener ≤ t ∧ t ≤ deadline opener) : Filled deadline m (ws ++ [(opener, rest ++ [t])]) := by
  obtain ⟨hws, -, happart⟩ := List.pairwise_append.mp h.apart
  refine ⟨?_, ?_, List.pairwise_append.mpr ⟨hws, List.pairwise_singleton _ _, ?_⟩⟩
  · intro w hw
    rcases List.mem_append.mp hw with hw | hw
    · exact h.room w (List.mem_append_left _ hw)
    · rw [List.mem_singleton.mp hw, List.length_append]
      exact hroom
  · intro w hw u hu
    rcases List.mem_append.mp hw with hw | hw
    · exact h.inside w (List.mem_append_left _ hw) u hu
    · obtain rfl := List.mem_singleton.mp hw
      rcases List.mem_append.mp hu with hu | hu
      · exact h.inside (opener, rest) (by simp) u hu
      · rw [List.mem_singleton.mp hu]
        exact ht
  · intro v hv w hw
    rw [List.mem_singleton.mp hw]
    exact happart v hv (opener, rest) (by simp)

theorem Filled.init (h : Filled deadline m (ws ++ [(opener, rest)])) : Filled deadline m ws where
  room w hw := h.room w (List.mem_append_left _ hw)
  inside w hw := h.inside w (List.mem_append_left _ hw)
  apart := (List.pairwise_append.mp h.apart).1

theorem Filled.opener_le (h : Filled deadline m ws) {w : T × List T} (hw : w ∈ ws) :
    ∀ t ∈ w.1 :: w.2, w.1 ≤ t := by
  intro t ht
  rcases List.mem_cons.mp ht with rfl | ht
  · exact le_rfl
  · exact (h.inside w hw t ht).1

variable (hdeadline : ∀ t, t ≤ deadline t)

include hdeadline in
theorem Filled.le_deadline (h : Filled deadline m ws) {w : T × List T} (hw : w ∈ ws) :
    ∀ t ∈ w.1 :: w.2, t ≤ deadline w.1 := by
  intro t ht
  rcases List.mem_cons.mp ht with rfl | ht
  · exact hdeadline w.1
  · exact (h.inside w hw t ht).2

include hdeadline in
/-- The events of the windows before come before the opener of the last one. -/
theorem Filled.lt_opener (h : Filled deadline m (ws ++ [(opener, rest)])) :
    ∀ t ∈ events ws, t < opener := by
  intro t ht
  obtain ⟨v, hv, ht⟩ := List.mem_flatMap.mp ht
  exact lt_of_le_of_lt (h.init.le_deadline hdeadline hv t ht)
    ((List.pairwise_append.mp h.apart).2.2 v hv (opener, rest) (by simp))

include hdeadline in
/-- From a time on that is after all openers, there are only events that the last window took. -/
theorem Filled.countP_ge_lt (h : Filled deadline m ws) (hm : 0 < m) {a : T}
    (ha : ∀ w ∈ ws, w.1 < a) : (events ws).countP (fun t => a ≤ t) < m := by
  induction ws using List.reverseRecOn with
  | nil => exact hm
  | append_singleton ws w ih =>
    obtain ⟨opener, rest⟩ := w
    have hopener : opener < a := ha (opener, rest) (by simp)
    have hnone : (events ws).countP (fun t => a ≤ t) = 0 := by
      rw [List.countP_eq_zero]
      intro t ht
      simpa using lt_trans (h.lt_opener hdeadline t ht) hopener
    rw [events_snoc, List.countP_append, hnone, Nat.zero_add,
      List.countP_cons_of_neg (by simpa using hopener)]
    exact lt_of_le_of_lt List.countP_le_length (h.room (opener, rest) (by simp))

include hdeadline in
/-- A span of time as long as a window meets no more than two, and if it meets two, not the opener
of the first. -/
theorem Filled.countP_span_lt (hmono : Monotone deadline) (h : Filled deadline m ws) (hm : 0 < m)
    (a : T) : (events ws).countP (fun t => a ≤ t ∧ t ≤ deadline a) < 2 * m := by
  induction ws using List.reverseRecOn with
  | nil => exact Nat.mul_pos Nat.two_pos hm
  | append_singleton ws w ih =>
    obtain ⟨opener, rest⟩ := w
    rw [events_snoc, List.countP_append]
    by_cases hreach : opener ≤ deadline a
    · have hearlier : (events ws).countP (fun t => a ≤ t ∧ t ≤ deadline a) < m := by
        refine lt_of_le_of_lt (List.countP_mono_left ?_)
          (h.init.countP_ge_lt hdeadline hm (a := a) ?_)
        · intro t _ ht
          simp only [decide_eq_true_eq] at ht ⊢
          exact ht.1
        · intro v hv
          have hbefore := (List.pairwise_append.mp h.apart).2.2 v hv (opener, rest) (by simp)
          by_contra hle
          exact absurd (hmono (not_lt.mp hle)) (not_le.mpr (lt_of_lt_of_le hbefore hreach))
      have hlast : (opener :: rest).countP (fun t => a ≤ t ∧ t ≤ deadline a) ≤ rest.length + 1 :=
        List.countP_le_length
      have hroom : rest.length < m := h.room (opener, rest) (by simp)
      omega
    · have hnone : (opener :: rest).countP (fun t => a ≤ t ∧ t ≤ deadline a) = 0 := by
        rw [List.countP_eq_zero]
        intro t ht hin
        have hle : opener ≤ t := h.opener_le (w := (opener, rest)) (by simp) t ht
        exact hreach (le_trans hle (of_decide_eq_true hin).2)
      rw [hnone]
      exact ih h.init

include hdeadline in
/-- A span that begins when a window opens has only events of that window. -/
theorem Filled.countP_window_le (h : Filled deadline m ws) {w : T × List T} (hw : w ∈ ws) :
    (events ws).countP (fun t => w.1 ≤ t ∧ t ≤ deadline w.1) ≤ m := by
  induction ws using List.reverseRecOn with
  | nil => contradiction
  | append_singleton ws v ih =>
    obtain ⟨opener, rest⟩ := v
    have happart := (List.pairwise_append.mp h.apart).2.2
    rw [events_snoc, List.countP_append]
    rcases List.mem_append.mp hw with hw | hw
    · have hnone : (opener :: rest).countP (fun t => w.1 ≤ t ∧ t ≤ deadline w.1) = 0 := by
        rw [List.countP_eq_zero]
        intro t ht hin
        have hle : opener ≤ t := h.opener_le (w := (opener, rest)) (by simp) t ht
        have hlate := happart w hw (opener, rest) (by simp)
        exact absurd (le_trans hle (of_decide_eq_true hin).2) (not_le.mpr hlate)
      rw [hnone]
      exact ih h.init hw
    · obtain rfl := List.mem_singleton.mp hw
      have hnone : (events ws).countP (fun t => opener ≤ t ∧ t ≤ deadline opener) = 0 := by
        rw [List.countP_eq_zero]
        intro t ht hin
        exact absurd (of_decide_eq_true hin).1 (not_le.mpr (h.lt_opener hdeadline t ht))
      have hroom : rest.length < m := h.room (opener, rest) (by simp)
      have hlast : (opener :: rest).countP (fun t => opener ≤ t ∧ t ≤ deadline opener) ≤
          rest.length + 1 := List.countP_le_length
      simp only [hnone]
      omega

end FixedWindow
