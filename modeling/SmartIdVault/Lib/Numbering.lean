import Mathlib.Data.List.Nodup
import Mathlib.Data.List.Perm.Subperm

/-! Loops that count on while a number is taken, as those that look for a free name do.  Where the
taken numbers are those of names in a list, and no two numbers have one name, the loop ends after at
most one turn for each name of the list. -/

namespace Numbering

/-- `while (taken(counter)) counter++`, given up when it has not ended after `fuel` turns. -/
def countUp (taken : Nat → Bool) : Nat → Nat → Option Nat
  | 0, counter => if taken counter then none else some counter
  | fuel + 1, counter =>
    if taken counter then countUp taken fuel (counter + 1) else some counter

section CountUp

variable {taken : Nat → Bool} {fuel counter n : Nat}

theorem countUp_of_free (h : taken counter = false) :
    countUp taken fuel counter = some counter := by
  cases fuel <;> simp [countUp, h]

theorem countUp_of_taken (h : taken counter = true) :
    countUp taken (fuel + 1) counter = countUp taken fuel (counter + 1) := by
  simp [countUp, h]

/-- The loop ends at the first number from `counter` on that is free. -/
theorem countUp_eq_some_iff : countUp taken fuel counter = some n ↔
    counter ≤ n ∧ n ≤ counter + fuel ∧ taken n = false ∧
      ∀ k, counter ≤ k → k < n → taken k = true := by
  induction fuel generalizing counter with
  | zero =>
    rw [countUp]
    constructor
    · intro h
      split at h
      · cases h
      · rename_i hfree
        obtain rfl := Option.some.inj h
        exact ⟨Nat.le_refl _, Nat.le_refl _, by simpa using hfree,
          fun k hk hlt => absurd hlt (by omega)⟩
    · rintro ⟨hle, hbound, hfree, -⟩
      obtain rfl : counter = n := by omega
      rw [hfree]
      rfl
  | succ fuel ih =>
    cases htaken : taken counter with
    | true =>
      rw [countUp_of_taken htaken, ih]
      constructor
      · rintro ⟨hle, hbound, hfree, hbefore⟩
        refine ⟨by omega, by omega, hfree, ?_⟩
        intro k hk hlt
        rcases Nat.eq_or_lt_of_le hk with rfl | hk
        · exact htaken
        · exact hbefore k hk hlt
      · rintro ⟨hle, hbound, hfree, hbefore⟩
        have hne : counter ≠ n := by
          rintro rfl
          rw [htaken] at hfree
          cases hfree
        exact ⟨by omega, by omega, hfree, fun k hk => hbefore k (by omega)⟩
    | false =>
      rw [countUp_of_free htaken]
      constructor
      · intro h
        obtain rfl := Option.some.inj h
        exact ⟨Nat.le_refl _, by omega, htaken, fun k hk hlt => absurd hlt (by omega)⟩
      · rintro ⟨hle, -, -, hbefore⟩
        congr
        by_contra hne
        have htaken' := hbefore counter (Nat.le_refl _) (by omega)
        rw [htaken] at htaken'
        cases htaken'

/-- More turns change nothing once the loop has ended. -/
theorem countUp_of_le {fuel' : Nat} (h : countUp taken fuel counter = some n) (hle : fuel ≤ fuel') :
    countUp taken fuel' counter = some n := by
  obtain ⟨hcounter, hbound, hfree⟩ := countUp_eq_some_iff.mp h
  exact countUp_eq_some_iff.mpr ⟨hcounter, by omega, hfree⟩

/-- The loop ends in time if one of the numbers it can reach is free. -/
theorem exists_countUp (h : ∃ i ≤ fuel, taken (counter + i) = false) :
    ∃ n, countUp taken fuel counter = some n := by
  induction fuel generalizing counter with
  | zero =>
    obtain ⟨i, hi, hfree⟩ := h
    obtain rfl : i = 0 := by omega
    exact ⟨counter, countUp_of_free hfree⟩
  | succ fuel ih =>
    cases htaken : taken counter with
    | false => exact ⟨counter, countUp_of_free htaken⟩
    | true =>
      rw [countUp_of_taken htaken]
      obtain ⟨i, hi, hfree⟩ := h
      cases i with
      | zero =>
        rw [Nat.add_zero, htaken] at hfree
        cases hfree
      | succ i => exact ih ⟨i, by omega, by rwa [Nat.add_assoc, Nat.add_comm 1]⟩

end CountUp

section Names

variable {α : Type*} {name : Nat → α}

/-- One of more numbers than there are names has a name that is not in the list. -/
theorem exists_free (hname : Function.Injective name) (names : List α) (counter : Nat) :
    ∃ i ≤ names.length, name (counter + i) ∉ names := by
  by_contra! hall
  have hnodup : ((List.range (names.length + 1)).map fun i => name (counter + i)).Nodup := by
    apply List.nodup_range.map
    intro i j hij
    exact Nat.add_left_cancel (hname hij)
  have hsubset : ((List.range (names.length + 1)).map fun i => name (counter + i)) ⊆ names := by
    intro x hx
    obtain ⟨i, hi, rfl⟩ := List.mem_map.mp hx
    exact hall i (Nat.le_of_lt_succ (List.mem_range.mp hi))
  have hle := (List.subperm_of_subset hnodup hsubset).length_le
  rw [List.length_map, List.length_range] at hle
  omega

variable [BEq α] [LawfulBEq α]

/-- The loop ends within one turn for each name of the list, at a number whose name is not in it. -/
theorem exists_countUp_names (hname : Function.Injective name) (names : List α) (counter : Nat) :
    ∃ n, (∀ fuel, names.length ≤ fuel →
      countUp (fun counter => names.contains (name counter)) fuel counter = some n) ∧
      name n ∉ names := by
  obtain ⟨i, hi, hfree⟩ := exists_free hname names counter
  obtain ⟨n, hn⟩ : ∃ n, countUp (fun counter => names.contains (name counter)) names.length
      counter = some n :=
    exists_countUp ⟨i, hi, by simpa using hfree⟩
  refine ⟨n, fun fuel hle => countUp_of_le hn hle, ?_⟩
  obtain ⟨-, -, hnot, -⟩ := countUp_eq_some_iff.mp hn
  simpa using hnot

end Names

end Numbering
