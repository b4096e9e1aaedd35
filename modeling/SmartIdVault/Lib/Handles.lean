import Mathlib.Tactic.Common

/-! Things that are made one after the other, each known by its place, and alive until they are
killed: peer connections until `close`, sockets until `disconnect`, timers until they fire or are
cleared.  A variable holds one place at a time, and only what is in a variable can be killed. -/

namespace Handles

variable {α : Type*} {alive : α → Bool} {items : List α} {j k : Nat} {a : α} {f : α → α}

/-- The thing at place `j` is there and alive. -/
def isAlive (alive : α → Bool) (items : List α) (j : Nat) : Bool := (items[j]?).any alive

/-- What is alive is in one of the variables. -/
def Held (alive : α → Bool) (items : List α) (vars : List (Option Nat)) : Prop :=
  ∀ j, isAlive alive items j = true → some j ∈ vars

theorem lt_of_isAlive (h : isAlive alive items j = true) : j < items.length := by
  obtain ⟨a, ha, -⟩ := (Option.any_eq_true alive _).mp h
  exact (List.getElem?_eq_some_iff.mp ha).1

instance (alive : α → Bool) (items : List α) (vars : List (Option Nat)) :
    Decidable (Held alive items vars) :=
  decidable_of_iff (∀ j < items.length, isAlive alive items j = true → some j ∈ vars)
    ⟨fun h j hj => h j (lt_of_isAlive hj) hj, fun h j _ hj => h j hj⟩

theorem isAlive_append (ha : alive a = true) :
    isAlive alive (items ++ [a]) j = true ↔ isAlive alive items j = true ∨ j = items.length := by
  by_cases hj : j = items.length
  · simp [isAlive, hj, ha]
  · by_cases hlt : j < items.length
    · simp [isAlive, List.getElem?_append_left hlt, hj]
    · have hge : items.length + 1 ≤ j := by omega
      simp [isAlive, List.getElem?_eq_none (show (items ++ [a]).length ≤ j by simpa using hge),
        List.getElem?_eq_none (show items.length ≤ j by omega), hj]

theorem isAlive_append_dead (ha : alive a = false) :
    isAlive alive (items ++ [a]) j = isAlive alive items j := by
  rw [isAlive, isAlive, List.getElem?_append]
  split
  · rfl
  next hlt =>
    rw [List.getElem?_eq_none (Nat.le_of_not_lt hlt)]
    cases j - items.length <;> simp [ha]

/-- Killing the thing at place `k`. -/
theorem isAlive_kill (hf : ∀ a, alive (f a) = false) :
    isAlive alive (items.modify k f) j = true ↔ isAlive alive items j = true ∧ j ≠ k := by
  rw [isAlive, isAlive, List.getElem?_modify]
  by_cases hjk : j = k
  · subst hjk
    cases items[j]? <;> simp [hf]
  · simp [hjk, Ne.symm hjk]

/-- A change of the thing at place `k` that leaves it as alive as it was. -/
theorem isAlive_modify (hf : ∀ a, alive (f a) = alive a) :
    isAlive alive (items.modify k f) j = isAlive alive items j := by
  rw [isAlive, isAlive, List.getElem?_modify]
  by_cases hjk : k = j
  · cases items[j]? <;> simp [hjk, hf]
  · simp [hjk]

end Handles
