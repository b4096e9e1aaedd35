import Mathlib.Tactic.Common

/-! A table of tasks: a list in which each task keeps its place, and a step replaces one of them. -/

namespace Tasks

variable {τ : Type*} {tasks : List τ} {i j : Nat} {t u : τ}

theorem set_self (h : tasks[i]? = some t) (u : τ) : (tasks.set i u)[i]? = some u :=
  List.getElem?_set_self (List.getElem?_eq_some_iff.mp h).1

theorem mem_set_self (h : tasks[i]? = some t) (u : τ) : u ∈ tasks.set i u :=
  List.mem_of_getElem? (set_self h u)

/-- After a step of task `i`, that is the new one, and the others are as they were. -/
theorem get_set (h : (tasks.set i u)[j]? = some t) :
    j = i ∧ t = u ∨ j ≠ i ∧ tasks[j]? = some t := by
  rw [List.getElem?_set] at h
  split at h
  next hij =>
    split at h
    · exact .inl ⟨hij.symm, (Option.some.inj h).symm⟩
    · cases h
  next hij => exact .inr ⟨Ne.symm hij, h⟩

theorem mem_set (h : t ∈ tasks.set i u) : t = u ∨ ∃ j, j ≠ i ∧ tasks[j]? = some t := by
  obtain ⟨j, hj⟩ := List.mem_iff_getElem?.mp h
  exact (get_set hj).imp And.right fun ⟨hji, hj⟩ => ⟨j, hji, hj⟩

theorem get_set_of_ne (hji : j ≠ i) (h : tasks[j]? = some t) : (tasks.set i u)[j]? = some t := by
  rwa [List.getElem?_set_ne (Ne.symm hji)]

theorem mem_set_of_ne (hji : j ≠ i) (h : tasks[j]? = some t) : t ∈ tasks.set i u :=
  List.mem_of_getElem? (get_set_of_ne hji h)

/-- A step that leaves a task's `f` as it is leaves those of all as they are. -/
theorem map_set {β : Type*} {f : τ → β} (h : tasks[i]? = some t) (hf : f u = f t) :
    (tasks.set i u).map f = tasks.map f := by
  obtain ⟨hi, rfl⟩ := List.getElem?_eq_some_iff.mp h
  have hi' : i < (tasks.map f).length := by rwa [List.length_map]
  have hget : (tasks.map f)[i] = f tasks[i] := List.getElem_map f
  rw [List.map_set, hf, ← hget, List.set_getElem_self hi']

theorem map_modify {β : Type*} {f : τ → β} {g : τ → τ} (tasks : List τ) (i : Nat)
    (hf : ∀ t, f (g t) = f t) : (tasks.modify i g).map f = tasks.map f := by
  apply List.ext_getElem?
  intro j
  rw [List.getElem?_map, List.getElem?_modify, List.getElem?_map]
  cases tasks[j]? with
  | none => rfl
  | some t =>
    simp only [Option.map_eq_map, Option.map_some]
    split
    · rw [hf]
    · rfl

theorem append_self (tasks : List τ) (t : τ) : (tasks ++ [t])[tasks.length]? = some t := by simp

theorem append_ne (hj : j ≠ tasks.length) (t : τ) : (tasks ++ [t])[j]? = tasks[j]? := by
  rcases Nat.lt_or_gt_of_ne hj with hlt | hgt
  · exact List.getElem?_append_left hlt
  · rw [List.getElem?_eq_none (by simp; omega), List.getElem?_eq_none (by omega)]

theorem get_append_of_get (h : tasks[i]? = some t) (u : τ) : (tasks ++ [u])[i]? = some t := by
  rwa [List.getElem?_append_left (List.getElem?_eq_some_iff.mp h).1]

/-- After a task has been added, that is the last one, and the others are as they were. -/
theorem get_append (h : (tasks ++ [u])[i]? = some t) :
    tasks[i]? = some t ∨ i = tasks.length ∧ t = u := by
  rw [List.getElem?_append] at h
  split at h
  · exact .inl h
  · obtain ⟨hi, rfl⟩ := List.getElem?_eq_some_iff.mp h
    simp only [List.length_cons, List.length_nil] at hi
    exact .inr ⟨by omega, by simp⟩

end Tasks
