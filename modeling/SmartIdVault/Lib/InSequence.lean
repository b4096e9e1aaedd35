import Mathlib.Data.List.Range

/-! Receivers that take numbered items in sequence: an item is taken when its number is the next
one, and left alone otherwise.  What arrives may be in any order, with items missing and items that
come again; the receiver gets as far as `0, 1, 2, …` can be found in it from left to right. -/

namespace InSequence

/-- The next number to wait for, once `x` has arrived. -/
def next (n x : Nat) : Nat := if x = n then n + 1 else n

/-- How many items are taken from what arrives. -/
def taken (arrivals : List Nat) : Nat := arrivals.foldl next 0

theorem next_self (n : Nat) : next n n = n + 1 := if_pos rfl

theorem next_of_ne {n x : Nat} (h : x ≠ n) : next n x = n := if_neg h

theorem le_next (n x : Nat) : n ≤ next n x := by
  unfold next
  split <;> omega

theorem le_foldl_next (n : Nat) (arrivals : List Nat) : n ≤ arrivals.foldl next n := by
  induction arrivals generalizing n with
  | nil => exact Nat.le_refl n
  | cons x arrivals ih => exact (le_next n x).trans (ih (next n x))

/-- A receiver that waits for `n` takes `m` items if and only if `n, …, n + m - 1` are among the
arrivals in this order. -/
theorem add_le_foldl_next_iff {n m : Nat} {arrivals : List Nat} :
    n + m ≤ arrivals.foldl next n ↔ (List.range' n m).Sublist arrivals := by
  induction arrivals generalizing n m with
  | nil =>
    cases m with
    | zero => simp
    | succ m => simp [List.range'_succ]
  | cons x arrivals ih =>
    cases m with
    | zero => simpa using le_foldl_next n (x :: arrivals)
    | succ m =>
      rw [List.foldl_cons, List.range'_succ]
      by_cases hx : x = n
      · subst hx
        rw [next_self, List.cons_sublist_cons, ← ih]
        omega
      · rw [next_of_ne hx, ih, List.range'_succ]
        constructor
        · intro h
          exact h.cons x
        · intro h
          cases h with
          | cons _ h => exact h
          | cons_cons _ h => exact absurd rfl hx

theorem le_taken_iff {m : Nat} {arrivals : List Nat} :
    m ≤ taken arrivals ↔ (List.range m).Sublist arrivals := by
  rw [List.range_eq_range', ← add_le_foldl_next_iff, Nat.zero_add, taken]

theorem taken_le {m : Nat} {arrivals : List Nat} (h : ∀ x ∈ arrivals, x < m) :
    taken arrivals ≤ m := by
  by_contra hlt
  have hsub : (List.range (m + 1)).Sublist arrivals := le_taken_iff.mp (by omega)
  have hmem : m ∈ arrivals := hsub.subset (List.mem_range.mpr (Nat.lt_succ_self m))
  exact absurd (h m hmem) (Nat.lt_irrefl m)

end InSequence
