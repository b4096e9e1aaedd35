import Mathlib.Data.List.Nodup
import Mathlib.Data.List.ReduceOption

/-! JavaScript's `Map`.  The entries are in the order in which their keys were inserted; a value
that is set under a key that is there takes the place of the old one. -/

@[ext]
structure JsMap (κ ν : Type) where
  entries : List (κ × ν)
  nodup : (entries.map Prod.fst).Nodup
  deriving DecidableEq

namespace JsMap

variable {κ ν : Type}

def empty : JsMap κ ν := ⟨[], .nil⟩

def keys (m : JsMap κ ν) : List κ := m.entries.map Prod.fst

def size (m : JsMap κ ν) : Nat := m.entries.length

/-- The entries for which `p` holds are deleted in the course of an iteration. -/
def deleteWhere (m : JsMap κ ν) (p : κ × ν → Bool) : JsMap κ ν where
  entries := m.entries.filter fun e => !p e
  nodup := m.nodup.sublist (List.filter_sublist.map Prod.fst)

theorem deleteWhere_eq_self {m : JsMap κ ν} {p : κ × ν → Bool} (h : ∀ e ∈ m.entries, p e = false) :
    m.deleteWhere p = m := by
  apply JsMap.ext
  exact List.filter_eq_self.mpr fun e he => by simp [h e he]

/-- `delete` of the first key of `keys()`. -/
def deleteFirst (m : JsMap κ ν) : JsMap κ ν where
  entries := m.entries.tail
  nodup := m.nodup.sublist ((List.tail_sublist _).map Prod.fst)

/-- The first key is deleted as long as there are more than `max` entries. -/
def trim (max : Nat) (m : JsMap κ ν) : JsMap κ ν :=
  if max < m.size then trim max m.deleteFirst else m
termination_by m.size
decreasing_by
  rename_i h
  rw [size] at h
  rw [size, size, deleteFirst, List.length_tail]
  omega

theorem entries_trim (max : Nat) (m : JsMap κ ν) :
    (trim max m).entries = m.entries.drop (m.size - max) := by
  fun_induction trim max m with
  | case1 m h ih =>
    have hsize : m.size - max = (m.deleteFirst.size - max) + 1 := by
      rw [size] at h
      rw [size, size, deleteFirst, List.length_tail]
      omega
    rw [ih, hsize, deleteFirst, List.drop_tail]
  | case2 m h => rw [Nat.sub_eq_zero_of_le (Nat.le_of_not_lt h), List.drop_zero]

/-- What lies before the last `max` entries is trimmed, and has that many after it. -/
theorem exists_split_of_trimmed {max : Nat} {m : JsMap κ ν} {e : κ × ν} (he : e ∈ m.entries)
    (hgone : e ∉ (trim max m).entries) :
    ∃ before after, m.entries = before ++ e :: after ∧ max ≤ after.length := by
  rw [entries_trim] at hgone
  have hsplit := List.take_append_drop (m.size - max) m.entries
  have htaken : e ∈ m.entries.take (m.size - max) := by
    rw [← hsplit, List.mem_append] at he
    exact he.resolve_right hgone
  obtain ⟨before, after, htake⟩ := List.append_of_mem htaken
  refine ⟨before, after ++ m.entries.drop (m.size - max), ?_, ?_⟩
  · rw [← List.cons_append, ← List.append_assoc, ← htake, hsplit]
  · have hpos : 0 < m.size - max := by
      have := congrArg List.length htake
      rw [List.length_take, List.length_append, List.length_cons] at this
      omega
    rw [List.length_append, List.length_drop]
    rw [size] at *
    omega

variable [DecidableEq κ]

def get (m : JsMap κ ν) (k : κ) : Option ν := (m.entries.find? fun e => e.1 = k).map Prod.snd

def set (m : JsMap κ ν) (k : κ) (v : ν) : JsMap κ ν :=
  if h : k ∈ m.keys then
    { entries := m.entries.map fun e => if e.1 = k then (k, v) else e
      nodup := by
        have hkeys : (m.entries.map fun e => if e.1 = k then (k, v) else e).map Prod.fst =
            m.entries.map Prod.fst := by
          rw [List.map_map]
          refine List.map_congr_left fun e _ => ?_
          by_cases he : e.1 = k <;> simp [he]
        exact hkeys ▸ m.nodup }
  else
    { entries := m.entries ++ [(k, v)]
      nodup := by
        rw [List.map_append]
        exact List.nodup_append.mpr ⟨m.nodup, by simp, by
          intro a ha b hb
          rintro rfl
          obtain rfl : a = k := by simpa using hb
          exact h ha⟩ }

theorem entries_set_of_notMem {m : JsMap κ ν} {k : κ} (h : k ∉ m.keys) (v : ν) :
    (m.set k v).entries = m.entries ++ [(k, v)] := by
  rw [set, dif_neg h]

theorem entries_set_of_mem {m : JsMap κ ν} {k : κ} (h : k ∈ m.keys) (v : ν) :
    (m.set k v).entries = m.entries.map fun e => if e.1 = k then (k, v) else e := by
  rw [set, dif_pos h]

theorem mem_of_get {m : JsMap κ ν} {k : κ} {v : ν} (h : m.get k = some v) : (k, v) ∈ m.entries := by
  obtain ⟨e, he, rfl⟩ := Option.map_eq_some_iff.mp h
  have hk := List.find?_some he
  simp only [decide_eq_true_eq] at hk
  exact hk ▸ List.mem_of_find?_eq_some he

theorem get_eq_none_iff {m : JsMap κ ν} {k : κ} : m.get k = none ↔ k ∉ m.keys := by
  rw [get, Option.map_eq_none_iff, List.find?_eq_none, keys, List.mem_map]
  constructor
  · rintro h ⟨e, he, rfl⟩
    exact h e he (decide_eq_true rfl)
  · intro h e he hk
    exact h ⟨e, he, of_decide_eq_true hk⟩

theorem get_eq_some_iff {m : JsMap κ ν} {k : κ} {v : ν} :
    m.get k = some v ↔ (k, v) ∈ m.entries := by
  refine ⟨mem_of_get, ?_⟩
  intro hmem
  cases hget : m.get k with
  | none => exact absurd (List.mem_map.mpr ⟨(k, v), hmem, rfl⟩) (get_eq_none_iff.mp hget)
  | some w =>
    have hsame := List.inj_on_of_nodup_map m.nodup hmem (mem_of_get hget) rfl
    rw [(Prod.mk.inj hsame).2]

theorem mem_entries_set {m : JsMap κ ν} {k : κ} {v : ν} {e : κ × ν} :
    e ∈ (m.set k v).entries ↔ e = (k, v) ∨ e.1 ≠ k ∧ e ∈ m.entries := by
  by_cases hk : k ∈ m.keys
  · rw [entries_set_of_mem hk, List.mem_map]
    constructor
    · rintro ⟨a, ha, rfl⟩
      by_cases hak : a.1 = k
      · exact .inl (if_pos hak)
      · rw [if_neg hak]
        exact .inr ⟨hak, ha⟩
    · rintro (rfl | ⟨hne, he⟩)
      · obtain ⟨a, ha, hak⟩ := List.mem_map.mp hk
        exact ⟨a, ha, if_pos hak⟩
      · exact ⟨e, he, if_neg hne⟩
  · rw [entries_set_of_notMem hk, List.mem_append, List.mem_singleton, or_comm]
    refine or_congr_right ⟨fun he => ⟨?_, he⟩, And.right⟩
    rintro rfl
    exact hk (List.mem_map_of_mem he)

theorem get_set (m : JsMap κ ν) (k : κ) (v : ν) (k' : κ) :
    (m.set k v).get k' = if k' = k then some v else m.get k' := by
  ext w
  rw [get_eq_some_iff, mem_entries_set]
  split
  next h => simp [h, eq_comm]
  next h => simp [h, get_eq_some_iff]

theorem get_deleteWhere (m : JsMap κ ν) (p : κ × ν → Bool) (k : κ) :
    (m.deleteWhere p).get k = (m.get k).filter fun v => !p (k, v) := by
  ext v
  rw [get_eq_some_iff, deleteWhere, List.mem_filter, Option.filter_eq_some_iff, get_eq_some_iff]

/-- `delete`. -/
def delete (m : JsMap κ ν) (k : κ) : JsMap κ ν := m.deleteWhere fun e => e.1 = k

theorem get_delete (m : JsMap κ ν) (k k' : κ) :
    (m.delete k).get k' = if k' = k then none else m.get k' := by
  rw [delete, get_deleteWhere]
  by_cases h : k' = k
  · cases m.get k' <;> simp [h]
  · cases m.get k' <;> simp [h]

theorem mem_keys_iff {m : JsMap κ ν} {k : κ} : k ∈ m.keys ↔ (m.get k).isSome = true := by
  rw [← not_iff_not, ← get_eq_none_iff, Bool.not_eq_true, Option.isSome_eq_false_iff,
    Option.isNone_iff_eq_none]

/-! ### Deletion while the map is iterated over -/

section Iteration

variable {p : κ × ν → Bool}

/-- `delete` as the specification has it: the place of the entry stays, and is empty. -/
def deleteAt (k : κ) (places : List (Option (κ × ν))) : List (Option (κ × ν)) :=
  places.map fun place => place.filter (·.1 ≠ k)

/-- A turn of the iteration, at the place `index`, which deletes the entry there if `p` holds. -/
def visit (p : κ × ν → Bool) (places : List (Option (κ × ν))) (index : Nat) :
    List (Option (κ × ν)) :=
  match places[index]? with
  | some (some e) => if p e then deleteAt e.1 places else places
  | _ => places

/-- An iteration over all places; there are no new ones, since nothing is set on the way. -/
def visitAll (p : κ × ν → Bool) (entries : List (κ × ν)) : List (κ × ν) :=
  ((List.range entries.length).foldl (visit p) (entries.map some)).reduceOption

theorem deleteAt_of_ne {k : κ} {places : List (Option (κ × ν))}
    (h : ∀ e, some e ∈ places → e.1 ≠ k) : deleteAt k places = places := by
  induction places with
  | nil => rfl
  | cons place places ih =>
    rw [deleteAt, List.map_cons, ← deleteAt, ih fun e he => h e (List.mem_cons_of_mem _ he)]
    cases place with
    | none => rfl
    | some e =>
      have hne : e.1 ≠ k := h e (List.mem_cons_self ..)
      simp [hne]

/-- A turn at an entry empties its place and no other. -/
theorem visit_at {places : List (Option (κ × ν))} {e : κ × ν} {rest : List (κ × ν)}
    (hplaces : ∀ e', some e' ∈ places → e'.1 ≠ e.1) (hrest : e.1 ∉ rest.map Prod.fst) :
    visit p (places ++ some e :: rest.map some) places.length =
      places ++ (if p e then none else some e) :: rest.map some := by
  have hat : (places ++ some e :: rest.map some)[places.length]? = some (some e) := by simp
  simp only [visit, hat]
  split
  · have hlater : ∀ e', some e' ∈ rest.map some → e'.1 ≠ e.1 := by
      rintro e' he' heq
      obtain ⟨a, ha, hsome⟩ := List.mem_map.mp he'
      obtain rfl := Option.some.inj hsome
      exact hrest (heq ▸ List.mem_map_of_mem ha)
    rw [deleteAt, List.map_append, List.map_cons, ← deleteAt, ← deleteAt, deleteAt_of_ne hplaces,
      deleteAt_of_ne hlater]
    simp
  · rfl

theorem foldl_visit {rest : List (κ × ν)} (places : List (Option (κ × ν)))
    (hnodup : (rest.map Prod.fst).Nodup)
    (hplaces : ∀ e, some e ∈ places → e.1 ∉ rest.map Prod.fst) :
    (List.range' places.length rest.length).foldl (visit p) (places ++ rest.map some) =
      places ++ rest.map fun e => if p e then none else some e := by
  induction rest generalizing places with
  | nil => rfl
  | cons e rest ih =>
    rw [List.map_cons, List.nodup_cons] at hnodup
    have hearlier : ∀ e', some e' ∈ places → e'.1 ≠ e.1 ∧ e'.1 ∉ rest.map Prod.fst := by
      intro e' he'
      have hnot := hplaces e' he'
      rwa [List.map_cons, List.mem_cons, not_or] at hnot
    have hnext : ∀ e', some e' ∈ places ++ [if p e then none else some e] →
        e'.1 ∉ rest.map Prod.fst := by
      intro e' he'
      rcases List.mem_append.mp he' with he' | he'
      · exact (hearlier e' he').2
      · have hsome := List.mem_singleton.mp he'
        split at hsome
        · cases hsome
        · rw [Option.some.inj hsome]
          exact hnodup.1
    have htail := ih _ hnodup.2 hnext
    rw [List.length_append, List.length_singleton, List.append_assoc, List.append_assoc] at htail
    rw [List.length_cons, List.range'_succ, List.foldl_cons, List.map_cons,
      visit_at (fun e' he' => (hearlier e' he').1) hnodup.1]
    exact htail

theorem visitAll_eq_filter {entries : List (κ × ν)} (h : (entries.map Prod.fst).Nodup) :
    visitAll p entries = entries.filter fun e => !p e := by
  have hfold := foldl_visit (p := p) [] h (by simp)
  rw [List.nil_append, List.nil_append, List.length_nil, ← List.range_eq_range'] at hfold
  rw [visitAll, hfold]
  clear hfold h
  induction entries with
  | nil => rfl
  | cons e entries ih =>
    rw [List.map_cons, List.filter_cons]
    cases hp : p e <;> simp [List.reduceOption_cons_of_some, List.reduceOption_cons_of_none, ih]

/-- `for (const [key, value] of map) if (p) map.delete(key)`. -/
def deleteDuring (m : JsMap κ ν) (p : κ × ν → Bool) : JsMap κ ν where
  entries := visitAll p m.entries
  nodup := by
    rw [visitAll_eq_filter m.nodup]
    exact (m.deleteWhere p).nodup

/-- The loop visits every entry once, whatever it deletes. -/
theorem deleteDuring_eq (m : JsMap κ ν) (p : κ × ν → Bool) : m.deleteDuring p = m.deleteWhere p :=
  JsMap.ext (visitAll_eq_filter m.nodup)

end Iteration

end JsMap
