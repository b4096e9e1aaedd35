import Mathlib.Data.List.DropRight

/-! Streaks: how many of the last items of a list have a property, one after the other.  A counter
that goes up with each item that has it and back to zero with each that has not counts the
streak. -/

namespace Streak

variable {α : Type*} {p : α → Bool} {items : List α} {n : Nat}

def count (p : α → Bool) (items : List α) : Nat := (items.rtakeWhile p).length

theorem count_nil : count p [] = 0 := rfl

theorem count_snoc (a : α) :
    count p (items ++ [a]) = if p a = true then count p items + 1 else 0 := by
  rw [count, List.rtakeWhile_concat]
  split
  · rw [List.length_append, List.length_singleton, count]
  · rfl

/-- A streak of `n` items is one of the last `n`. -/
theorem le_count_iff :
    n ≤ count p items ↔
      n ≤ items.length ∧ ∀ j < n, ∃ a ∈ items[items.length - 1 - j]?, p a = true := by
  induction items using List.reverseRecOn generalizing n with
  | nil =>
    rw [count_nil, List.length_nil]
    refine ⟨fun h => ⟨h, fun j hj => absurd (Nat.lt_of_lt_of_le hj h) (Nat.not_lt_zero j)⟩,
      fun h => h.1⟩
  | append_singleton items a ih =>
    cases n with
    | zero => simp
    | succ n =>
      have hlast : (items ++ [a])[items.length]? = some a := by simp
      have hlength : (items ++ [a]).length = items.length + 1 := by simp
      rw [count_snoc, hlength]
      by_cases ha : p a = true
      · rw [if_pos ha, Nat.succ_le_succ_iff, ih, Nat.succ_le_succ_iff]
        refine and_congr_right fun hn => ?_
        constructor
        · intro h j hj
          cases j with
          | zero => exact ⟨a, hlast, ha⟩
          | succ j =>
            obtain ⟨b, hb, hpb⟩ := h j (by omega)
            refine ⟨b, ?_, hpb⟩
            rw [List.getElem?_append_left (by omega), show items.length + 1 - 1 - (j + 1) =
              items.length - 1 - j by omega]
            exact hb
        · intro h j hj
          obtain ⟨b, hb, hpb⟩ := h (j + 1) (by omega)
          rw [List.getElem?_append_left (by omega), show items.length + 1 - 1 - (j + 1) =
            items.length - 1 - j by omega] at hb
          exact ⟨b, hb, hpb⟩
      · rw [if_neg ha]
        refine iff_of_false (by omega) ?_
        rintro ⟨-, h⟩
        obtain ⟨b, hb, hpb⟩ := h 0 (by omega)
        rw [Nat.add_sub_cancel, Nat.sub_zero, hlast] at hb
        exact ha (Option.some.inj hb ▸ hpb)

end Streak
