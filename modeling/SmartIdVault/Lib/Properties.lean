import Mathlib.Data.List.Sort
import SmartIdVault.Lib.Json

/-! The own properties of a JavaScript object, as a list in the order in which they are listed: keys
that are array indices first, in their order, and the others as they have been added. -/

namespace Properties

variable {α β : Type} {fields rest : List (Utf16 × α)} {f : Utf16 × α} {key k : Utf16} {v : α}

def insert (key : Utf16) (v : α) : List (Utf16 × α) → List (Utf16 × α)
  | [] => [(key, v)]
  | (k, w) :: rest => if Json.before key k then (key, v) :: (k, w) :: rest
      else (k, w) :: insert key v rest

/-- A property that exists keeps its place. -/
def set (fields : List (Utf16 × α)) (key : Utf16) (v : α) : List (Utf16 × α) :=
  if fields.any (·.1 = key) then fields.map fun f => if f.1 = key then (key, v) else f
  else insert key v fields

def proto : Utf16 := Utf16.ofString "__proto__"

/-- `object[key] = v`.  An assignment to `__proto__` makes no own property. -/
def assign (fields : List (Utf16 × α)) (key : Utf16) (v : α) : List (Utf16 × α) :=
  if key = proto then fields else set fields key v

/-! ### The order of keys -/

theorem before_asymm {key k : Utf16} (h : Json.before key k = true) : Json.before k key = false := by
  unfold Json.before at h ⊢
  split at h
  · rename_i i j hi hj
    rw [hi, hj]
    simp only [decide_eq_true_eq, decide_eq_false_iff_not] at h ⊢
    omega
  · rename_i i hi hk
    rw [hi, hk]
  · cases h

theorem before_trans {key k l : Utf16} (h : Json.before key k = true) (h' : Json.before k l = true) :
    Json.before key l = true := by
  unfold Json.before at h h' ⊢
  cases hk : Json.arrayIndex k with
  | none =>
    rw [hk] at h'
    cases h'
  | some j =>
    cases hkey : Json.arrayIndex key with
    | none =>
      rw [hkey] at h
      cases h
    | some i =>
      cases hl : Json.arrayIndex l with
      | none => rfl
      | some m =>
        rw [hkey, hk] at h
        rw [hk, hl] at h'
        simp only [decide_eq_true_eq] at h h' ⊢
        omega

/-- The properties have distinct keys and stand in the order in which they are listed. -/
def InOrder (fields : List (Utf16 × α)) : Prop :=
  fields.Pairwise fun f g => f.1 ≠ g.1 ∧ Json.before g.1 f.1 = false

def keys (fields : List (Utf16 × α)) : List Utf16 := fields.map Prod.fst

theorem inOrder_iff : InOrder fields ↔
    (keys fields).Pairwise fun k l => k ≠ l ∧ Json.before l k = false := by
  rw [InOrder, keys, List.pairwise_map]

theorem InOrder.nodup (h : InOrder fields) : (keys fields).Nodup :=
  List.pairwise_map.mpr (h.imp And.left)

theorem any_key_iff : fields.any (·.1 = key) = true ↔ key ∈ keys fields := by
  simp [keys]

theorem mem_insert : f ∈ insert key v fields ↔ f = (key, v) ∨ f ∈ fields := by
  induction fields with
  | nil => simp [insert]
  | cons g rest ih =>
    rw [insert]
    split
    · rw [List.mem_cons]
    · rw [List.mem_cons, ih, List.mem_cons]
      exact or_left_comm

theorem inOrder_insert (h : InOrder fields) (hnew : key ∉ keys fields) :
    InOrder (insert key v fields) := by
  induction fields with
  | nil => exact List.pairwise_singleton ..
  | cons g rest ih =>
    obtain ⟨hg, hrest⟩ := List.pairwise_cons.mp h
    have hne : key ≠ g.1 := fun heq => hnew (heq ▸ List.mem_cons_self ..)
    have hnew' : key ∉ keys rest := fun hmem => hnew (List.mem_cons_of_mem _ hmem)
    rw [insert]
    split
    · rename_i hbefore
      refine List.pairwise_cons.mpr ⟨?_, h⟩
      intro f hf
      obtain rfl | hf := List.mem_cons.mp hf
      · exact ⟨hne, before_asymm hbefore⟩
      · have hmem : f.1 ∈ keys rest := List.mem_map_of_mem hf
        refine ⟨fun heq : key = f.1 => hnew' (heq ▸ hmem), ?_⟩
        by_contra hlater
        rw [Bool.not_eq_false] at hlater
        have hwrong := before_trans hlater hbefore
        rw [(hg f hf).2] at hwrong
        cases hwrong
    · rename_i hbefore
      refine List.pairwise_cons.mpr ⟨?_, ih hrest hnew'⟩
      intro f hf
      obtain rfl | hf := mem_insert.mp hf
      · exact ⟨hne.symm, Bool.not_eq_true _ ▸ hbefore⟩
      · exact hg f hf

theorem inOrder_set (h : InOrder fields) (key : Utf16) (v : α) : InOrder (set fields key v) := by
  unfold set
  split
  · refine List.pairwise_map.mpr (h.imp ?_)
    intro f g hfg
    have hkey (f : Utf16 × α) : (if f.1 = key then (key, v) else f).1 = f.1 := by
      split
      · rename_i heq
        exact heq.symm
      · rfl
    rwa [hkey, hkey]
  · rename_i hnew
    exact inOrder_insert h fun hmem => hnew (any_key_iff.mpr hmem)

/-- A new property that belongs behind all others is put there. -/
theorem set_eq_append (hnew : key ∉ keys fields)
    (hlast : ∀ f ∈ fields, Json.before key f.1 = false) : set fields key v = fields ++ [(key, v)] := by
  rw [set, if_neg fun hany => hnew (any_key_iff.mp hany)]
  clear hnew
  induction fields with
  | nil => rfl
  | cons g rest ih =>
    rw [insert, if_neg (Bool.eq_false_iff.mp (hlast g (List.mem_cons_self ..))),
      ih fun f hf => hlast f (List.mem_cons_of_mem _ hf)]
    rfl

/-- Properties in their order, assigned one after the other. -/
theorem set_of_inOrder (h : InOrder (fields ++ (key, v) :: rest)) :
    set fields key v = fields ++ [(key, v)] := by
  have hbefore := (List.pairwise_append.mp h).2.2
  refine set_eq_append ?_ ?_
  · intro hmem
    obtain ⟨f, hf, hkey⟩ := List.mem_map.mp hmem
    exact (hbefore f hf _ (List.mem_cons_self ..)).1 hkey
  · exact fun f hf => (hbefore f hf _ (List.mem_cons_self ..)).2

/-! ### Objects made by assignments -/

theorem perm_set_of_new (hnew : key ∉ keys fields) : (set fields key v).Perm ((key, v) :: fields) := by
  have hinsert : (insert key v fields).Perm ((key, v) :: fields) := by
    clear hnew
    induction fields with
    | nil => exact .refl _
    | cons g rest ih =>
      rw [insert]
      split
      · exact .refl _
      · exact (ih.cons g).trans (.swap ..)
  rwa [set, if_neg fun hany => hnew (any_key_iff.mp hany)]

/-- The object whose properties have been assigned one after the other. -/
def assignAll (fields : List (Utf16 × α)) : List (Utf16 × α) :=
  fields.foldl (fun object f => assign object f.1 f.2) []

theorem inOrder_assign (h : InOrder fields) (key : Utf16) (v : α) :
    InOrder (assign fields key v) := by
  unfold assign
  split
  · exact h
  · exact inOrder_set h key v

theorem inOrder_assignAll (fields : List (Utf16 × α)) : InOrder (assignAll fields) := by
  have hfold (object : List (Utf16 × α)) (h : InOrder object) :
      InOrder (fields.foldl (fun object f => assign object f.1 f.2) object) := by
    induction fields generalizing object with
    | nil => exact h
    | cons f rest ih => exact ih _ (inOrder_assign h f.1 f.2)
  exact hfold [] List.Pairwise.nil

theorem perm_foldl_assign (fields object : List (Utf16 × α)) (h : (keys (object ++ fields)).Nodup) :
    (fields.foldl (fun object f => assign object f.1 f.2) object).Perm
      (object ++ fields.filter (·.1 ≠ proto)) := by
  induction fields generalizing object with
  | nil => simp
  | cons f rest ih =>
    rw [List.foldl_cons]
    by_cases hproto : f.1 = proto
    · have hrest : (keys (object ++ rest)).Nodup :=
        h.sublist (((List.Sublist.refl _).append (List.sublist_cons_self ..)).map _)
      rw [assign, if_pos hproto, List.filter_cons_of_neg (by simpa using hproto)]
      exact ih object hrest
    · have hnew : f.1 ∉ keys object := by
        intro hmem
        rw [keys, List.map_append, List.map_cons] at h
        exact (List.nodup_append.mp h).2.2 f.1 hmem f.1 (List.mem_cons_self ..) rfl
      have hset : (set object f.1 f.2).Perm (f :: object) := perm_set_of_new hnew
      have hmoved : (set object f.1 f.2 ++ rest).Perm (object ++ f :: rest) :=
        (hset.append_right rest).trans List.perm_middle.symm
      rw [assign, if_neg hproto, List.filter_cons_of_pos (by simpa using hproto)]
      refine (ih _ ((hmoved.map Prod.fst).nodup_iff.mpr h)).trans ?_
      exact (hset.append_right _).trans List.perm_middle.symm

/-- All properties are there but the one of `__proto__`. -/
theorem perm_assignAll (h : (keys fields).Nodup) :
    (assignAll fields).Perm (fields.filter (·.1 ≠ proto)) := perm_foldl_assign fields [] h

/-- The object whose properties have been assigned in the order of their keys. -/
def sorted (fields : List (Utf16 × α)) : List (Utf16 × α) :=
  assignAll (fields.insertionSort (·.1 ≤ ·.1))

theorem nodup_sort (h : (keys fields).Nodup) :
    (keys (fields.insertionSort (·.1 ≤ ·.1))).Nodup :=
  ((List.perm_insertionSort _ fields).map Prod.fst).nodup_iff.mpr h

theorem perm_sorted (h : (keys fields).Nodup) :
    (sorted fields).Perm (fields.filter (·.1 ≠ proto)) :=
  (perm_assignAll (nodup_sort h)).trans ((List.perm_insertionSort _ fields).filter _)

/-- What has no part in the object that the assignments make can be left out before. -/
theorem assignAll_filter (fields : List (Utf16 × α)) :
    assignAll (fields.filter (·.1 ≠ proto)) = assignAll fields := by
  unfold assignAll
  generalize ([] : List (Utf16 × α)) = object
  induction fields generalizing object with
  | nil => rfl
  | cons f rest ih =>
    by_cases hproto : f.1 = proto
    · rw [List.filter_cons_of_neg (by simpa using hproto), List.foldl_cons, ih, assign,
        if_pos hproto]
    · rw [List.filter_cons_of_pos (by simpa using hproto), List.foldl_cons, List.foldl_cons, ih]

/-- Two lists of properties lead to the same object exactly when they have the same ones. -/
theorem sorted_eq_iff {fields fields' : List (Utf16 × α)} (h : (keys fields).Nodup)
    (h' : (keys fields').Nodup) :
    sorted fields = sorted fields' ↔
      (fields.filter (·.1 ≠ proto)).Perm (fields'.filter (·.1 ≠ proto)) := by
  constructor
  · intro heq
    exact (perm_sorted h).symm.trans (heq ▸ perm_sorted h')
  · intro hperm
    have hstrict {l : List (Utf16 × α)} (hl : (keys l).Nodup) :
        ((l.insertionSort (·.1 ≤ ·.1)).filter (·.1 ≠ proto)).Pairwise
          fun f g => f.1 ≤ g.1 ∧ f.1 ≠ g.1 := by
      have hle : (l.insertionSort (·.1 ≤ ·.1)).Pairwise (·.1 ≤ ·.1) :=
        List.pairwise_insertionSort _ l
      have hne : (l.insertionSort (·.1 ≤ ·.1)).Pairwise (·.1 ≠ ·.1) :=
        List.pairwise_map.mp (nodup_sort hl)
      exact (hle.and hne).filter _
    have hsame : (fields.insertionSort (·.1 ≤ ·.1)).filter (·.1 ≠ proto) =
        (fields'.insertionSort (·.1 ≤ ·.1)).filter (·.1 ≠ proto) := by
      refine List.Perm.eq_of_pairwise ?_ (hstrict h) (hstrict h') ?_
      · intro f g _ _ hfg hgf
        exact absurd (List.le_antisymm hfg.1 hgf.1) hfg.2
      · exact ((List.perm_insertionSort _ fields).filter _).trans
          (hperm.trans ((List.perm_insertionSort _ fields').filter _).symm)
    rw [sorted, sorted, ← assignAll_filter, hsame, assignAll_filter]

/-- The properties of a sorted object, sorted, are the same. -/
theorem sorted_sorted (h : (keys fields).Nodup) : sorted (sorted fields) = sorted fields := by
  refine (sorted_eq_iff (inOrder_assignAll _).nodup h).mpr ?_
  refine ((perm_sorted h).filter _).trans ?_
  rw [List.filter_filter]
  simp only [Bool.and_self]
  exact .refl _

theorem lookup_eq_some_iff (h : (keys fields).Nodup) :
    fields.lookup key = some v ↔ (key, v) ∈ fields := by
  induction fields with
  | nil => simp
  | cons f rest ih =>
    obtain ⟨hnew, hrest⟩ := List.nodup_cons.mp h
    rw [List.lookup_cons, List.mem_cons, ← ih hrest]
    split
    · rename_i hkey
      obtain rfl := eq_of_beq hkey
      have hnone : rest.lookup f.1 ≠ some v := by
        intro hsome
        exact hnew (List.mem_map.mpr ⟨(f.1, v), (ih hrest).mp hsome, rfl⟩)
      simp [hnone, Prod.ext_iff, eq_comm]
    · rename_i hkey
      have hne : (key, v) ≠ f := by
        rintro rfl
        exact beq_eq_false_iff_ne.mp hkey rfl
      simp [hne]

/-- Sorting an object leaves its properties as they are. -/
theorem lookup_sorted (h : (keys fields).Nodup) (hkey : key ≠ proto) :
    (sorted fields).lookup key = fields.lookup key := by
  ext v
  have hnodup : (keys (sorted fields)).Nodup := (inOrder_assignAll _).nodup
  rw [lookup_eq_some_iff hnodup, lookup_eq_some_iff h, (perm_sorted h).mem_iff, List.mem_filter]
  simp [hkey]

/-! ### Values through a function -/

def mapValues (φ : α → β) (fields : List (Utf16 × α)) : List (Utf16 × β) :=
  fields.map fun f => (f.1, φ f.2)

theorem keys_mapValues (φ : α → β) (fields : List (Utf16 × α)) :
    keys (mapValues φ fields) = keys fields := by
  simp [keys, mapValues]

theorem lookup_mapValues (φ : α → β) (fields : List (Utf16 × α)) :
    (mapValues φ fields).lookup key = (fields.lookup key).map φ := by
  induction fields with
  | nil => rfl
  | cons f rest ih =>
    rw [mapValues] at ih ⊢
    rw [List.map_cons, List.lookup_cons, List.lookup_cons, ih]
    split <;> rfl

theorem mapValues_set (φ : α → β) (fields : List (Utf16 × α)) (key : Utf16) (v : α) :
    mapValues φ (set fields key v) = set (mapValues φ fields) key (φ v) := by
  have hinsert : mapValues φ (insert key v fields) = insert key (φ v) (mapValues φ fields) := by
    induction fields with
    | nil => rfl
    | cons g rest ih =>
      simp only [mapValues, insert, List.map_cons] at ih ⊢
      split
      · rfl
      · rw [List.map_cons, ih]
  have hany : (mapValues φ fields).any (·.1 = key) = fields.any (·.1 = key) := by
    simp [mapValues, List.any_map, Function.comp_def]
  unfold set
  rw [hany]
  split
  · rw [mapValues, mapValues, List.map_map, List.map_map]
    refine List.map_congr_left ?_
    intro f _
    simp only [Function.comp_apply]
    split <;> rfl
  · exact hinsert

theorem mapValues_sorted (φ : α → β) (fields : List (Utf16 × α)) :
    mapValues φ (sorted fields) = sorted (mapValues φ fields) := by
  have hassign (fields object : List (Utf16 × α)) :
      mapValues φ (fields.foldl (fun object f => assign object f.1 f.2) object) =
        (mapValues φ fields).foldl (fun object f => assign object f.1 f.2) (mapValues φ object) := by
    induction fields generalizing object with
    | nil => rfl
    | cons f rest ih =>
      have hstep : mapValues φ (assign object f.1 f.2) =
          assign (mapValues φ object) f.1 (φ f.2) := by
        unfold assign
        split
        · rfl
        · exact mapValues_set φ object f.1 f.2
      rw [List.foldl_cons, ih, hstep]
      rfl
  rw [sorted, assignAll, hassign, sorted, assignAll]
  congr 1
  exact List.map_insertionSort _ _ _ fields fun _ _ _ _ => Iff.rfl

end Properties

namespace Json

theorem setField_eq_set (fields : List (Utf16 × Json)) (key : Utf16) (v : Json) :
    setField fields key v = Properties.set fields key v := by
  have hinsert : insertField key v fields = Properties.insert key v fields := by
    induction fields with
    | nil => rfl
    | cons f rest ih => rw [insertField, Properties.insert, ih]
  rw [setField, Properties.set, hinsert]

end Json
