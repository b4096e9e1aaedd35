import Mathlib.Data.List.Nodup

/-! Lists with one entry for each key, and writers that replace such a list by one made from what
they have read before.  A write leaves the expected keys in the list exactly when what the writer
has read agrees, apart from the writer's own key, with what it replaces. -/

namespace KeyedList

variable {α κ : Type*} {key : α → κ} {list stored read : List α} {expected : List κ} {a : α}
  {k : κ}

/-- The list has one entry for each of the expected keys, and no other. -/
structure Holds (key : α → κ) (list : List α) (expected : List κ) : Prop where
  nodup : (list.map key).Nodup
  mem : ∀ k, k ∈ list.map key ↔ k ∈ expected

/-- The two lists have the same keys apart from `k`. -/
def Current (key : α → κ) (k : κ) (read stored : List α) : Prop :=
  ∀ k', k' ≠ k → (k' ∈ read.map key ↔ k' ∈ stored.map key)

theorem current_iff [DecidableEq κ] :
    Current key k read stored ↔
      (∀ k' ∈ read.map key, k' = k ∨ k' ∈ stored.map key) ∧
        ∀ k' ∈ stored.map key, k' = k ∨ k' ∈ read.map key := by
  constructor
  · intro h
    exact ⟨fun k' hk' => or_iff_not_imp_left.mpr fun hne => (h k' hne).mp hk',
      fun k' hk' => or_iff_not_imp_left.mpr fun hne => (h k' hne).mpr hk'⟩
  · intro h k' hne
    exact ⟨fun hk' => (h.1 k' hk').resolve_left hne, fun hk' => (h.2 k' hk').resolve_left hne⟩

instance [DecidableEq κ] : Decidable (Current key k read stored) :=
  decidable_of_iff _ current_iff.symm

theorem Holds.nil : Holds key [] [] := ⟨List.nodup_nil, fun _ => Iff.rfl⟩

theorem Holds.count [BEq κ] [LawfulBEq κ] (h : Holds key list expected) (k : κ) :
    (list.map key).count k = if k ∈ expected then 1 else 0 := by
  rw [List.Nodup.count h.nodup]
  exact if_congr (h.mem k) rfl rfl

/-- A writer that finds its key leaves the list as it is. -/
theorem Holds.cons_of_mem (h : Holds key list expected) (hk : k ∈ list.map key) :
    Holds key list (k :: expected) := by
  refine ⟨h.nodup, ?_⟩
  intro k'
  rw [h.mem k', List.mem_cons]
  constructor
  · exact .inr
  · rintro (rfl | hk')
    · exact (h.mem _).mp hk
    · exact hk'

theorem holds_append_iff (h : Holds key stored expected) (hread : (read.map key).Nodup)
    (hnew : key a ∉ read.map key) :
    Holds key (read ++ [a]) (key a :: expected) ↔ Current key (key a) read stored := by
  have hmem (k' : κ) : k' ∈ (read ++ [a]).map key ↔ k' ∈ read.map key ∨ k' = key a := by
    simp only [List.map_append, List.map_cons, List.map_nil, List.mem_append,
      List.mem_singleton]
  constructor
  · intro hwritten k' hne
    have hk' := hwritten.mem k'
    rw [hmem, List.mem_cons, or_iff_left hne, or_iff_right hne] at hk'
    exact hk'.trans (h.mem k').symm
  · intro hcurrent
    refine ⟨?_, ?_⟩
    · rw [List.map_append]
      refine List.nodup_append.mpr ⟨hread, List.nodup_singleton _, ?_⟩
      rintro k' hk' _ hlast rfl
      rw [List.mem_singleton.mp hlast] at hk'
      exact hnew hk'
    · intro k'
      rw [hmem, List.mem_cons, or_comm]
      by_cases hne : k' = key a
      · exact ⟨fun _ => .inl hne, fun _ => .inl hne⟩
      · rw [or_iff_right hne, or_iff_right hne, hcurrent k' hne, h.mem k']

theorem holds_filter_iff [DecidableEq κ] (h : Holds key stored expected)
    (hread : (read.map key).Nodup) :
    Holds key (read.filter (key · ≠ k)) (expected.filter (· ≠ k)) ↔
      Current key k read stored := by
  have hmem (k' : κ) : k' ∈ (read.filter (key · ≠ k)).map key ↔ k' ∈ read.map key ∧ k' ≠ k := by
    simp only [List.mem_map, List.mem_filter, decide_eq_true_eq]
    constructor
    · rintro ⟨a, ⟨ha, hne⟩, rfl⟩
      exact ⟨⟨a, ha, rfl⟩, hne⟩
    · rintro ⟨⟨a, ha, rfl⟩, hne⟩
      exact ⟨a, ⟨ha, hne⟩, rfl⟩
  have hexpected (k' : κ) : k' ∈ expected.filter (· ≠ k) ↔ k' ∈ stored.map key ∧ k' ≠ k := by
    rw [List.mem_filter, decide_eq_true_eq, h.mem k']
  constructor
  · intro hwritten k' hne
    have hk' := hwritten.mem k'
    rwa [hmem, hexpected, and_iff_left hne, and_iff_left hne] at hk'
  · intro hcurrent
    refine ⟨hread.sublist (List.filter_sublist.map _), ?_⟩
    intro k'
    rw [hmem, hexpected]
    exact and_congr_left fun hne => hcurrent k' hne

end KeyedList
