import Mathlib.Data.List.DropRight
import Mathlib.Tactic.Common

/-! `java.util.LinkedHashMap` in access order with a bound on its size: the entries from the eldest
to the last one accessed.  A map that is only asked `containsKey`, and given keys that it does not
hold, is a window of the keys it has been given. -/

namespace LinkedMap

variable {κ ν : Type} [DecidableEq κ]

def keys (m : List (κ × ν)) : List κ := m.map Prod.fst

/-- `containsKey`, which is no access. -/
def containsKey (m : List (κ × ν)) (k : κ) : Bool := m.any fun e => e.1 == k

/-- `put`.  A key that is there moves to the end; a new one is followed by `removeEldestEntry`, here
`size() > capacity`. -/
def put (capacity : Nat) (m : List (κ × ν)) (k : κ) (v : ν) : List (κ × ν) :=
  if containsKey m k then m.filter (fun e => e.1 ≠ k) ++ [(k, v)]
  else
    let m := m ++ [(k, v)]
    if capacity < m.length then m.tail else m

theorem containsKey_iff {m : List (κ × ν)} {k : κ} : containsKey m k = true ↔ k ∈ keys m := by
  simp [containsKey, keys]

theorem rtake_map {α β : Type} (f : α → β) (l : List α) (n : Nat) :
    (l.map f).rtake n = (l.rtake n).map f := by
  rw [List.rtake, List.rtake, List.length_map, List.map_drop]

theorem rtake_append_singleton {α : Type} (l : List α) (x : α) {n : Nat} (hn : 0 < n) :
    (l ++ [x]).rtake n =
      if n < (l.rtake n).length + 1 then (l.rtake n ++ [x]).tail else l.rtake n ++ [x] := by
  obtain ⟨n, rfl⟩ := Nat.exists_eq_succ_of_ne_zero hn.ne'
  rw [List.rtake_concat_succ, List.rtake, List.rtake, List.length_drop]
  split
  · rename_i hfull
    have hlt : n < l.length := by omega
    have hsplit : l.drop (l.length - (n + 1)) ≠ [] := by
      rw [ne_eq, List.drop_eq_nil_iff]
      omega
    have hnext : l.length - n = l.length - (n + 1) + 1 := by omega
    rw [List.tail_append_of_ne_nil hsplit, List.tail_drop, hnext]
  · rename_i hroom
    have hall : l.length - n = 0 ∧ l.length - (n + 1) = 0 := by omega
    rw [hall.1, hall.2]

/-- A new key joins the window. -/
theorem keys_put {capacity : Nat} {m : List (κ × ν)} {ks : List κ} {k : κ} (v : ν)
    (hcap : 0 < capacity) (h : keys m = ks.rtake capacity) (hk : containsKey m k = false) :
    keys (put capacity m k v) = (ks ++ [k]).rtake capacity := by
  have hlength : m.length = (ks.rtake capacity).length := by rw [← h, keys, List.length_map]
  rw [rtake_append_singleton ks k hcap, ← hlength, ← h, put, hk]
  simp only [Bool.false_eq_true, if_false, List.length_append, List.length_singleton]
  split
  · simp [keys, List.map_tail]
  · simp [keys]

/-- None of the keys is among the `capacity` ones before it. -/
def Spaced {α : Type} (capacity : Nat) (ks : List α) : Prop :=
  ∀ j k, ks[j]? = some k → k ∉ (ks.take j).rtake capacity

theorem spaced_nil {α : Type} (capacity : Nat) : Spaced capacity ([] : List α) := by
  intro j k h
  cases h

theorem Spaced.append_singleton {α : Type} {capacity : Nat} {ks : List α} {k : α}
    (h : Spaced capacity ks) (hk : k ∉ ks.rtake capacity) : Spaced capacity (ks ++ [k]) := by
  intro j k' hj
  rcases Nat.lt_trichotomy j ks.length with hlt | rfl | hgt
  · rw [List.getElem?_append_left hlt] at hj
    rw [List.take_append_of_le_length hlt.le]
    exact h j k' hj
  · rw [List.getElem?_concat_length] at hj
    rw [List.take_left]
    exact Option.some.inj hj ▸ hk
  · have hnone : (ks ++ [k])[j]? = none := by
      rw [List.getElem?_eq_none_iff, List.length_append, List.length_singleton]
      exact hgt
    rw [hnone] at hj
    cases hj

/-- Between two places of one key there are `capacity` others. -/
theorem Spaced.countP_between {α : Type} [DecidableEq α] {capacity i j : Nat} {ks : List α} {k : α}
    (h : Spaced capacity ks) (hij : i < j) (hi : ks[i]? = some k) (hj : ks[j]? = some k) :
    capacity ≤ ((ks.take j).drop (i + 1)).countP (· ≠ k) := by
  have hlength : (ks.take j).length = j := by
    rw [List.length_take]
    exact Nat.min_eq_left (List.getElem?_eq_some_iff.mp hj).1.le
  have hwindow : (ks.take j).rtake capacity = (ks.take j).drop (j - capacity) := by
    rw [List.rtake, hlength]
  have hfresh := h j k hj
  rw [hwindow] at hfresh
  have hbefore : i < j - capacity := by
    by_contra hle
    refine hfresh (List.mem_of_getElem? (i := i - (j - capacity)) ?_)
    rw [List.getElem?_drop, Nat.add_sub_cancel' (Nat.le_of_not_lt hle), List.getElem?_take,
      if_pos hij]
    exact hi
  have hsub : ((ks.take j).drop (j - capacity)).Sublist ((ks.take j).drop (i + 1)) :=
    List.drop_sublist_drop_left _ hbefore
  have hcount : ((ks.take j).drop (j - capacity)).countP (· ≠ k) = capacity := by
    rw [List.countP_eq_length.mpr, List.length_drop, hlength]
    · omega
    · intro k' hk'
      refine decide_eq_true ?_
      rintro rfl
      exact hfresh hk'
  exact hcount ▸ hsub.countP_le

end LinkedMap
