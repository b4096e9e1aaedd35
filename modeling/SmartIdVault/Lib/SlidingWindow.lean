import Mathlib.Algebra.Order.Group.Defs
import Mathlib.Algebra.Order.Group.Unbundled.Basic
import Mathlib.Data.List.Induction

/-! Events over a sliding window: at time `t` it holds the events in `(t - w, t]`.  Events that come
one at a time, each when the window has room for it, leave room in every span of time as short as
the window, wherever it begins. -/

namespace SlidingWindow

variable {T : Type*} [AddCommGroup T] [LinearOrder T]

/-- The events of the window at `t`. -/
def within (w t : T) (ts : List T) : List T := ts.filter fun a => t - w < a ∧ a ≤ t

/-- The events came in order of time, and each of them when the window held fewer than `m`. -/
inductive Limited (w : T) (m : Nat) : List T → Prop
  | nil : Limited w m []
  | snoc {ts : List T} {t : T} : Limited w m ts → (∀ a ∈ ts, a ≤ t) →
      (within w t ts).length < m → Limited w m (ts ++ [t])

variable {w t u : T} {ts : List T} {m : Nat}

theorem within_append (ts us : List T) : within w t (ts ++ us) = within w t ts ++ within w t us :=
  List.filter_append ts us

theorem Limited.sorted (h : Limited w m ts) : ts.Pairwise (· ≤ ·) := by
  induction h with
  | nil => exact .nil
  | snoc _ hlast _ ih =>
    refine List.pairwise_append.mpr ⟨ih, List.pairwise_singleton _ _, ?_⟩
    intro a ha b hb
    rw [List.mem_singleton.mp hb]
    exact hlast a ha

/-- A span of time in which any two events are less than `w` apart has at most `m` of them. -/
theorem Limited.countP_le (h : Limited w m ts) {p : T → Bool}
    (hp : ∀ a b, p a = true → p b = true → b - w < a) : ts.countP p ≤ m := by
  induction h with
  | nil => exact Nat.zero_le m
  | @snoc ts t _ hlast hroom ih =>
    rw [List.countP_append, List.countP_singleton]
    by_cases ht : p t = true
    · -- the span ends with the new event, so the window holds all of it
      have hle : ts.countP p ≤ (within w t ts).length := by
        rw [within, ← List.countP_eq_length_filter]
        apply List.countP_mono_left
        intro a ha hpa
        rw [decide_eq_true_eq]
        exact ⟨hp a t hpa ht, hlast a ha⟩
      rw [if_pos ht]
      omega
    · rw [if_neg ht]
      exact ih

variable [IsOrderedAddMonoid T]

/-- What a window has let go by `t` it does not hold later. -/
theorem within_within (h : t ≤ u) (hts : ∀ a ∈ ts, a ≤ t) :
    within w u (within w t ts) = within w u ts := by
  rw [within, within, List.filter_filter]
  apply List.filter_congr
  intro a ha
  have hlate : u - w < a → t - w < a := lt_of_le_of_lt (sub_le_sub_right h w)
  simp only [← Bool.decide_and, decide_eq_decide]
  exact ⟨fun h => h.1, fun h => ⟨h, hlate h.1, hts a ha⟩⟩

/-- Of events in order, the window holds those that are left when the old ones at the front have
been dropped. -/
theorem dropWhile_eq_within (hs : ts.Pairwise (· ≤ ·)) (hts : ∀ a ∈ ts, a ≤ t) :
    ts.dropWhile (fun a => decide (w ≤ t - a)) = within w t ts := by
  induction ts with
  | nil => rfl
  | cons a ts ih =>
    have hrest : ∀ b ∈ ts, a ≤ b := fun b => List.rel_of_pairwise_cons hs
    have hold : w ≤ t - a ↔ a ≤ t - w := by rw [le_sub_iff_add_le, le_sub_iff_add_le, add_comm]
    rw [within, List.dropWhile_cons]
    by_cases h : w ≤ t - a
    · have hnot : ¬(t - w < a ∧ a ≤ t) := fun hin => absurd (hold.mp h) (not_le.mpr hin.1)
      rw [if_pos (decide_eq_true h), List.filter_cons_of_neg (by simpa using hnot),
        ih hs.of_cons fun b hb => hts b (List.mem_cons_of_mem a hb)]
      rfl
    · have ha : t - w < a := not_le.mp (mt hold.mpr h)
      rw [if_neg (by simpa using h)]
      symm
      apply List.filter_eq_self.mpr
      intro b hb
      rw [decide_eq_true_eq]
      refine ⟨?_, hts b hb⟩
      rcases List.mem_cons.mp hb with rfl | hb
      · exact ha
      · exact lt_of_lt_of_le ha (hrest b hb)

/-- No half-open span of length `w` has more than `m` events. -/
theorem Limited.countP_span_le (h : Limited w m ts) (a : T) :
    (ts.countP fun b => a ≤ b ∧ b < a + w) ≤ m ∧ (ts.countP fun b => a < b ∧ b ≤ a + w) ≤ m := by
  constructor
  · apply h.countP_le
    intro b c hb hc
    rw [decide_eq_true_eq] at hb hc
    exact lt_of_lt_of_le (sub_lt_iff_lt_add.mpr hc.2) hb.1
  · apply h.countP_le
    intro b c hb hc
    rw [decide_eq_true_eq] at hb hc
    exact lt_of_le_of_lt (sub_le_iff_le_add.mpr hc.2) hb.1

/-- A span as long as `n` windows has at most `n` times as many events as one. -/
theorem Limited.countP_spans_le (h : Limited w m ts) (a : T) (n : Nat) :
    (ts.countP fun b => a ≤ b ∧ b < a + n • w) ≤ m * n := by
  induction n with
  | zero =>
    apply le_of_eq
    apply List.countP_eq_zero.mpr
    intro b _
    simp only [zero_nsmul, add_zero, decide_eq_true_eq, not_and, not_lt]
    exact id
  | succ n ih =>
    -- the last window, apart from those before it
    have hlast := (h.countP_span_le (a + n • w)).1
    rw [List.countP_eq_countP_filter_add ts _ fun b => decide (b < a + n • w),
      List.countP_filter, List.countP_filter, Nat.mul_succ]
    refine Nat.add_le_add (le_trans ?_ ih) (le_trans ?_ hlast)
    · apply List.countP_mono_left
      intro b _ hb
      simp only [Bool.and_eq_true, decide_eq_true_eq] at hb ⊢
      exact ⟨hb.1.1, hb.2⟩
    · apply List.countP_mono_left
      intro b _ hb
      simp only [Bool.and_eq_true, Bool.not_eq_true', decide_eq_true_eq, decide_eq_false_iff_not,
        not_lt] at hb ⊢
      rw [succ_nsmul, ← add_assoc] at hb
      exact ⟨hb.2, hb.1.2⟩

end SlidingWindow
