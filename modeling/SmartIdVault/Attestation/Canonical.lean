import SmartIdVault.Attestation.Header
import SmartIdVault.Lib.JsonRoundTrip

/-! What `sortedJsonStringify` tells apart.  The properties of an object are assigned to a new one in
the order of their keys, so an own property `__proto__`, which `JSON.parse` makes, is lost on the
way; and a number that is too large for a double, which `JSON.parse` takes for an infinite one, is
written as `null`.  Values that do not differ in these ways have the same text exactly when they are
equal up to the order of the members of their objects. -/

namespace SmartIdVault.Attestation

open Properties (keys proto sorted mapValues)

/-- A value that `JSON.parse` makes.  Minus zero is zero. -/
inductive JsValue
  | null
  | bool (b : Bool)
  | num (n : Decimal)
  | infinity (negative : Bool)
  | str (s : Utf16)
  | arr (items : List JsValue)
  | obj (fields : List (Utf16 × JsValue))

namespace JsValue

mutual

/-- The value as `JSON.stringify` takes it: a number that is not finite is `null`. -/
def toJson : JsValue → Json
  | .null => .null
  | .bool b => .bool b
  | .num n => .num n
  | .infinity _ => .null
  | .str s => .str s
  | .arr items => .arr (toJsonItems items)
  | .obj fields => .obj (toJsonFields fields)

def toJsonItems : List JsValue → List Json
  | [] => []
  | v :: rest => toJson v :: toJsonItems rest

def toJsonFields : List (Utf16 × JsValue) → List (Utf16 × Json)
  | [] => []
  | (key, v) :: rest => (key, toJson v) :: toJsonFields rest

end

def stringify (v : JsValue) : Utf16 := v.toJson.stringify

mutual

def sortObjectKeys : JsValue → JsValue
  | .arr items => .arr (sortItems items)
  | .obj fields => .obj (sorted (sortFields fields))
  | .null => .null
  | .bool b => .bool b
  | .num n => .num n
  | .infinity negative => .infinity negative
  | .str s => .str s

def sortItems : List JsValue → List JsValue
  | [] => []
  | v :: rest => sortObjectKeys v :: sortItems rest

def sortFields : List (Utf16 × JsValue) → List (Utf16 × JsValue)
  | [] => []
  | (key, v) :: rest => (key, sortObjectKeys v) :: sortFields rest

end

def sortedJsonStringify (v : JsValue) : Utf16 := (sortObjectKeys v).stringify

mutual

/-- Equal up to the order of the members of objects. -/
def Same : JsValue → JsValue → Prop
  | .null, .null => True
  | .bool b, .bool c => b = c
  | .num m, .num n => m = n
  | .infinity b, .infinity c => b = c
  | .str s, .str t => s = t
  | .arr items, .arr items' => SameItems items items'
  | .obj fields, .obj fields' => fields.length = fields'.length ∧ SameFields fields fields'
  | _, _ => False

def SameItems : List JsValue → List JsValue → Prop
  | [], [] => True
  | v :: rest, w :: rest' => Same v w ∧ SameItems rest rest'
  | _, _ => False

/-- Each member of the first object is one of the second. -/
def SameFields : List (Utf16 × JsValue) → List (Utf16 × JsValue) → Prop
  | [], _ => True
  | (key, v) :: rest, fields => (∃ w, (key, w) ∈ fields ∧ Same v w) ∧ SameFields rest fields

end

mutual

/-- The keys of each object are distinct. -/
def Distinct : JsValue → Prop
  | .arr items => DistinctItems items
  | .obj fields => (keys fields).Nodup ∧ DistinctFields fields
  | .null | .bool _ | .num _ | .infinity _ | .str _ => True

def DistinctItems : List JsValue → Prop
  | [] => True
  | v :: rest => Distinct v ∧ DistinctItems rest

def DistinctFields : List (Utf16 × JsValue) → Prop
  | [] => True
  | (_, v) :: rest => Distinct v ∧ DistinctFields rest

end

mutual

/-- The value without the members `__proto__` of its objects, and with `null` for its infinite
numbers. -/
def written : JsValue → JsValue
  | .arr items => .arr (writtenItems items)
  | .obj fields => .obj (writtenFields fields)
  | .null => .null
  | .bool b => .bool b
  | .num n => .num n
  | .infinity _ => .null
  | .str s => .str s

def writtenItems : List JsValue → List JsValue
  | [] => []
  | v :: rest => written v :: writtenItems rest

def writtenFields : List (Utf16 × JsValue) → List (Utf16 × JsValue)
  | [] => []
  | (key, v) :: rest =>
    if key = proto then writtenFields rest else (key, written v) :: writtenFields rest

end

/-! ### The canonical form -/

/-- What is written for a value. -/
def canonical (v : JsValue) : Json := (sortObjectKeys v).toJson

theorem canonical_arr (items : List JsValue) :
    canonical (.arr items) = .arr (items.map canonical) := by
  have hitems : toJsonItems (sortItems items) = items.map canonical := by
    induction items with
    | nil => rfl
    | cons v rest ih =>
      rw [sortItems, toJsonItems, ih]
      rfl
  rw [canonical, sortObjectKeys, toJson, hitems]

theorem canonical_obj (fields : List (Utf16 × JsValue)) :
    canonical (.obj fields) = .obj (sorted (mapValues canonical fields)) := by
  have htoJson (fields : List (Utf16 × JsValue)) :
      toJsonFields fields = mapValues toJson fields := by
    induction fields with
    | nil => rfl
    | cons f rest ih =>
      rw [toJsonFields, ih]
      rfl
  have hsort : mapValues toJson (sortFields fields) = mapValues canonical fields := by
    induction fields with
    | nil => rfl
    | cons f rest ih =>
      simp only [mapValues] at ih
      simp only [sortFields, mapValues, List.map_cons, ih]
      rfl
  rw [canonical, sortObjectKeys, toJson, htoJson, Properties.mapValues_sorted, hsort]

theorem mem_canonical_fields {fields : List (Utf16 × JsValue)} (h : (keys fields).Nodup)
    {f : Utf16 × Json} (hf : f ∈ sorted (mapValues canonical fields)) :
    f ∈ mapValues canonical fields := by
  have hnodup : (keys (mapValues canonical fields)).Nodup := by
    rwa [Properties.keys_mapValues]
  exact List.mem_of_mem_filter ((Properties.perm_sorted hnodup).mem_iff.mp hf)

mutual

/-- The text is that of a value whose objects have their properties in order. -/
theorem proper_canonical : ∀ v : JsValue, Distinct v → (canonical v).Proper
  | .null, _ | .bool _, _ | .num _, _ | .infinity _, _ | .str _, _ => trivial
  | .arr items, h => by
    rw [canonical_arr, Json.Proper, Json.properItems_iff]
    exact proper_canonical_items items h
  | .obj fields, h => by
    rw [canonical_obj, Json.Proper, Json.properFields_iff]
    exact ⟨Properties.inOrder_assignAll _, fun f hf =>
      proper_canonical_fields fields h.2 f (mem_canonical_fields h.1 hf)⟩

theorem proper_canonical_items : ∀ items : List JsValue, DistinctItems items →
    ∀ v ∈ items.map canonical, v.Proper
  | [], _, v, hv => absurd hv (List.not_mem_nil)
  | w :: rest, h, v, hv => by
    obtain rfl | hv := List.mem_cons.mp hv
    · exact proper_canonical w h.1
    · exact proper_canonical_items rest h.2 v hv

theorem proper_canonical_fields : ∀ fields : List (Utf16 × JsValue), DistinctFields fields →
    ∀ f ∈ mapValues canonical fields, f.2.Proper
  | [], _, f, hf => absurd hf (List.not_mem_nil)
  | (key, w) :: rest, h, f, hf => by
    obtain rfl | hf := List.mem_cons.mp hf
    · exact proper_canonical w h.1
    · exact proper_canonical_fields rest h.2 f hf

end

/-! ### What the text tells apart -/

variable {a b : JsValue} {fields fields' : List (Utf16 × JsValue)} {key : Utf16} {v w : JsValue}

theorem mem_writtenFields :
    (key, w) ∈ writtenFields fields ↔ key ≠ proto ∧ ∃ v, (key, v) ∈ fields ∧ written v = w := by
  induction fields with
  | nil => simp [writtenFields]
  | cons f rest ih =>
    obtain ⟨k, x⟩ := f
    rw [writtenFields]
    split
    · rename_i hproto
      rw [ih]
      constructor
      · rintro ⟨hne, v, hv, rfl⟩
        exact ⟨hne, v, List.mem_cons_of_mem _ hv, rfl⟩
      · rintro ⟨hne, v, hv, rfl⟩
        refine ⟨hne, v, (List.mem_cons.mp hv).resolve_left ?_, rfl⟩
        intro heq
        exact hne ((Prod.mk.inj heq).1.trans hproto)
    · rename_i hproto
      rw [List.mem_cons, ih]
      constructor
      · rintro (heq | ⟨hne, v, hv, rfl⟩)
        · obtain ⟨rfl, rfl⟩ := Prod.mk.inj heq
          exact ⟨hproto, x, List.mem_cons_self .., rfl⟩
        · exact ⟨hne, v, List.mem_cons_of_mem _ hv, rfl⟩
      · rintro ⟨hne, v, hv, rfl⟩
        obtain heq | hv := List.mem_cons.mp hv
        · obtain ⟨rfl, rfl⟩ := Prod.mk.inj heq
          exact .inl rfl
        · exact .inr ⟨hne, v, hv, rfl⟩

theorem length_writtenFields :
    (writtenFields fields).length = (fields.filter (·.1 ≠ proto)).length := by
  induction fields with
  | nil => rfl
  | cons f rest ih =>
    obtain ⟨k, x⟩ := f
    rw [writtenFields, List.filter_cons]
    by_cases hproto : k = proto
    · simpa [hproto] using ih
    · simpa [hproto] using ih

theorem distinctFields_mem (h : DistinctFields fields) (hf : (key, v) ∈ fields) : Distinct v := by
  induction fields with
  | nil => cases hf
  | cons f rest ih =>
    obtain rfl | hf := List.mem_cons.mp hf
    · exact h.1
    · exact ih h.2 hf

/-- The members of an object but the one of `__proto__`, in their canonical form. -/
def canonicalFields (fields : List (Utf16 × JsValue)) : List (Utf16 × Json) :=
  (mapValues canonical fields).filter (·.1 ≠ proto)

theorem mem_canonicalFields {x : Json} :
    (key, x) ∈ canonicalFields fields ↔ key ≠ proto ∧ ∃ v, (key, v) ∈ fields ∧ canonical v = x := by
  simp only [canonicalFields, List.mem_filter, mapValues, List.mem_map, Prod.mk.injEq, Prod.exists,
    decide_eq_true_eq]
  constructor
  · rintro ⟨⟨k, v, hv, rfl, rfl⟩, hne⟩
    exact ⟨hne, v, hv, rfl⟩
  · rintro ⟨hne, v, hv, rfl⟩
    exact ⟨⟨key, v, hv, rfl, rfl⟩, hne⟩

theorem length_canonicalFields :
    (canonicalFields fields).length = (fields.filter (·.1 ≠ proto)).length := by
  rw [canonicalFields, mapValues, List.filter_map, List.length_map]
  rfl

theorem nodup_canonicalFields (h : (keys fields).Nodup) : (canonicalFields fields).Nodup := by
  have hkeys : (keys (mapValues canonical fields)).Nodup := by rwa [Properties.keys_mapValues]
  exact (List.Nodup.of_map _ hkeys).filter _

/-- Objects have the same canonical form exactly when they have as many members and each of the
first is one of the second. -/
theorem canonical_obj_eq_iff (h : (keys fields).Nodup) (h' : (keys fields').Nodup) :
    canonical (.obj fields) = canonical (.obj fields') ↔
      (canonicalFields fields).length = (canonicalFields fields').length ∧
        canonicalFields fields ⊆ canonicalFields fields' := by
  have hnodup : (keys (mapValues canonical fields)).Nodup := by rwa [Properties.keys_mapValues]
  have hnodup' : (keys (mapValues canonical fields')).Nodup := by rwa [Properties.keys_mapValues]
  rw [canonical_obj, canonical_obj, Json.obj.injEq, Properties.sorted_eq_iff hnodup hnodup']
  constructor
  · intro hperm
    exact ⟨hperm.length_eq, hperm.subset⟩
  · rintro ⟨hlength, hsub⟩
    exact (List.subperm_of_subset (nodup_canonicalFields h) hsub).perm_of_length_le hlength.ge

def IsAtom : JsValue → Prop
  | .arr _ | .obj _ => False
  | .null | .bool _ | .num _ | .infinity _ | .str _ => True

theorem canonical_atom_eq_iff (h : IsAtom a) (b : JsValue) :
    canonical a = canonical b ↔ Same (written a) (written b) := by
  cases a with
  | arr | obj => cases h
  | null | bool | num | infinity | str =>
    cases b with
    | arr items =>
      rw [canonical_arr]
      simp [canonical, sortObjectKeys, toJson, written, Same]
    | obj fields =>
      rw [canonical_obj]
      simp [canonical, sortObjectKeys, toJson, written, Same]
    | _ => simp [canonical, sortObjectKeys, toJson, written, Same]

mutual

/-- Two values have the same canonical form exactly when what is written of them is equal up to the
order of members. -/
theorem canonical_eq_iff : ∀ a b : JsValue, Distinct a → Distinct b →
    (canonical a = canonical b ↔ Same (written a) (written b))
  | .null, b, _, _ | .bool _, b, _, _ | .num _, b, _, _ | .infinity _, b, _, _ | .str _, b, _, _ =>
    canonical_atom_eq_iff (by trivial) b
  | .arr items, b, ha, hb => by
    cases b with
    | arr items' =>
      rw [canonical_arr, canonical_arr, Json.arr.injEq]
      exact canonical_items_eq_iff items items' ha hb
    | obj fields =>
      rw [canonical_arr, canonical_obj]
      simp [written, Same]
    | _ =>
      rw [canonical_arr]
      simp [canonical, sortObjectKeys, toJson, written, Same]
  | .obj fields, b, ha, hb => by
    cases b with
    | obj fields' =>
      rw [canonical_obj_eq_iff ha.1 hb.1, written, written, Same, length_writtenFields,
        length_writtenFields, length_canonicalFields, length_canonicalFields,
        canonical_fields_subset_iff fields fields' ha.2 hb.2]
    | arr items =>
      rw [canonical_arr, canonical_obj]
      simp [written, Same]
    | _ =>
      rw [canonical_obj]
      simp [canonical, sortObjectKeys, toJson, written, Same]

theorem canonical_items_eq_iff : ∀ items items' : List JsValue, DistinctItems items →
    DistinctItems items' →
      (items.map canonical = items'.map canonical ↔
        SameItems (writtenItems items) (writtenItems items'))
  | [], [], _, _ => by simp [writtenItems, SameItems]
  | [], _ :: _, _, _ => by simp [writtenItems, SameItems]
  | _ :: _, [], _, _ => by simp [writtenItems, SameItems]
  | v :: rest, w :: rest', h, h' => by
    rw [List.map_cons, List.map_cons, List.cons.injEq, writtenItems, writtenItems, SameItems,
      canonical_eq_iff v w h.1 h'.1, canonical_items_eq_iff rest rest' h.2 h'.2]

theorem canonical_fields_subset_iff : ∀ fields fields' : List (Utf16 × JsValue),
    DistinctFields fields → DistinctFields fields' →
      (canonicalFields fields ⊆ canonicalFields fields' ↔
        SameFields (writtenFields fields) (writtenFields fields'))
  | [], _, _, _ => by simp [canonicalFields, mapValues, writtenFields, SameFields]
  | (key, v) :: rest, fields', h, h' => by
    have hrest := canonical_fields_subset_iff rest fields' h.2 h'
    by_cases hproto : key = proto
    · have hdrop : canonicalFields ((key, v) :: rest) = canonicalFields rest := by
        simp [canonicalFields, mapValues, hproto]
      rw [hdrop, writtenFields, if_pos hproto, hrest]
    · have hkeep : canonicalFields ((key, v) :: rest) =
          (key, canonical v) :: canonicalFields rest := by
        simp [canonicalFields, mapValues, hproto]
      rw [hkeep, List.cons_subset, hrest, writtenFields, if_neg hproto, SameFields]
      refine and_congr_left' ?_
      rw [mem_canonicalFields]
      constructor
      · rintro ⟨hne, w, hw, heq⟩
        have hsame := (canonical_eq_iff v w h.1 (distinctFields_mem h' hw)).mp heq.symm
        exact ⟨written w, mem_writtenFields.mpr ⟨hne, w, hw, rfl⟩, hsame⟩
      · rintro ⟨x, hx, hsame⟩
        obtain ⟨hne, w, hw, rfl⟩ := mem_writtenFields.mp hx
        exact ⟨hne, w, hw, ((canonical_eq_iff v w h.1 (distinctFields_mem h' hw)).mpr hsame).symm⟩

end

theorem sortedJsonStringify_eq_iff (ha : Distinct a) (hb : Distinct b) :
    sortedJsonStringify a = sortedJsonStringify b ↔ Same (written a) (written b) := by
  rw [← canonical_eq_iff a b ha hb]
  exact ⟨Json.stringify_inj (proper_canonical a ha) (proper_canonical b hb),
    congrArg Json.stringify⟩

/-- Objects that are equal up to order have the same keys. -/
theorem perm_keys_of_same (hnodup : (keys fields).Nodup) (hlength : fields.length = fields'.length)
    (h : SameFields fields fields') : (keys fields).Perm (keys fields') := by
  have hsub : keys fields ⊆ keys fields' := by
    clear hnodup hlength
    induction fields with
    | nil => exact List.nil_subset _
    | cons f rest ih =>
      obtain ⟨⟨w, hw, -⟩, hrest⟩ := h
      have hmem : f.1 ∈ keys fields' := List.mem_map.mpr ⟨(f.1, w), hw, rfl⟩
      exact List.cons_subset.mpr ⟨hmem, ih hrest⟩
  refine (List.subperm_of_subset hnodup hsub).perm_of_length_le ?_
  rw [keys, keys, List.length_map, List.length_map, hlength]

theorem length_writtenFields_keys :
    (writtenFields fields).length = ((keys fields).filter (· ≠ proto)).length := by
  rw [length_writtenFields, keys, List.filter_map, List.length_map]
  rfl

mutual

/-- What is equal up to order is written equal up to order. -/
theorem same_written : ∀ {a b : JsValue}, Distinct a → Same a b → Same (written a) (written b)
  | .null, b, _, h | .bool _, b, _, h | .num _, b, _, h | .str _, b, _, h => by
    cases b <;> first | exact h | exact h.elim
  | .infinity _, b, _, h => by
    cases b <;> first | exact h.elim | trivial
  | .arr items, b, ha, h => by
    cases b with
    | arr items' => exact sameItems_written ha h
    | _ => exact h.elim
  | .obj fields, b, ha, h => by
    cases b with
    | obj fields' =>
      obtain ⟨hlength, hfields⟩ := h
      have hkeys := (perm_keys_of_same ha.1 hlength hfields).filter (· ≠ proto)
      refine ⟨?_, sameFields_written ha.2 hfields⟩
      rw [length_writtenFields_keys, length_writtenFields_keys, hkeys.length_eq]
    | _ => exact h.elim

theorem sameItems_written : ∀ {items items' : List JsValue}, DistinctItems items →
    SameItems items items' → SameItems (writtenItems items) (writtenItems items')
  | [], [], _, _ => trivial
  | [], _ :: _, _, h => h.elim
  | _ :: _, [], _, h => h.elim
  | _ :: _, _ :: _, h, hsame => ⟨same_written h.1 hsame.1, sameItems_written h.2 hsame.2⟩

theorem sameFields_written : ∀ {fields fields' : List (Utf16 × JsValue)}, DistinctFields fields →
    SameFields fields fields' → SameFields (writtenFields fields) (writtenFields fields')
  | [], _, _, _ => trivial
  | (key, v) :: rest, fields', h, hsame => by
    obtain ⟨⟨w, hw, hv⟩, hrest⟩ := hsame
    have htail := sameFields_written h.2 hrest
    rw [writtenFields]
    split
    · exact htail
    · rename_i hproto
      exact ⟨⟨written w, mem_writtenFields.mpr ⟨hproto, w, hw, rfl⟩, same_written h.1 hv⟩, htail⟩

end

/-! ### Values without infinite numbers -/

mutual

def ofJson : Json → JsValue
  | .null => .null
  | .bool b => .bool b
  | .num n => .num n
  | .str s => .str s
  | .arr items => .arr (ofJsonItems items)
  | .obj fields => .obj (ofJsonFields fields)

def ofJsonItems : List Json → List JsValue
  | [] => []
  | v :: rest => ofJson v :: ofJsonItems rest

def ofJsonFields : List (Utf16 × Json) → List (Utf16 × JsValue)
  | [] => []
  | (key, v) :: rest => (key, ofJson v) :: ofJsonFields rest

end

theorem assignFields_eq (fields : List (Utf16 × Json)) :
    assignFields fields = Properties.assignAll fields := by
  unfold assignFields Properties.assignAll
  congr 1
  funext object f
  rw [Json.setField_eq_set]
  rfl

mutual

theorem canonical_ofJson : ∀ v : Json, canonical (ofJson v) = Attestation.sortObjectKeys v
  | .null | .bool _ | .num _ | .str _ => rfl
  | .arr items => by
    rw [ofJson, canonical_arr, canonicalItems_ofJson items]
    rfl
  | .obj fields => by
    rw [ofJson, canonical_obj, mapValues_ofJson fields, Attestation.sortObjectKeys,
      assignFields_eq, sorted]

theorem canonicalItems_ofJson : ∀ items : List Json,
    (ofJsonItems items).map canonical = Attestation.sortItems items
  | [] => rfl
  | v :: rest => by
    rw [ofJsonItems, List.map_cons, canonical_ofJson v, canonicalItems_ofJson rest]
    rfl

theorem mapValues_ofJson : ∀ fields : List (Utf16 × Json),
    mapValues canonical (ofJsonFields fields) = Attestation.sortFields fields
  | [] => rfl
  | (key, v) :: rest => by
    have hrest := mapValues_ofJson rest
    rw [mapValues] at hrest ⊢
    rw [ofJsonFields, List.map_cons, canonical_ofJson v, hrest]
    rfl

end

theorem sortedJsonStringify_ofJson (v : Json) :
    sortedJsonStringify (ofJson v) = Attestation.sortedJsonStringify v :=
  congrArg Json.stringify (canonical_ofJson v)

theorem keys_ofJsonFields (fields : List (Utf16 × Json)) :
    keys (ofJsonFields fields) = keys fields := by
  induction fields with
  | nil => rfl
  | cons f rest ih => exact congrArg (f.1 :: ·) ih

mutual

theorem distinct_ofJson : ∀ v : Json, v.Proper → Distinct (ofJson v)
  | .null, _ | .bool _, _ | .num _, _ | .str _, _ => trivial
  | .arr items, h => distinctItems_ofJson items h
  | .obj fields, h => ⟨keys_ofJsonFields fields ▸ h.1.nodup, distinctFields_ofJson fields h.2⟩

theorem distinctItems_ofJson : ∀ items : List Json, Json.ProperItems items →
    DistinctItems (ofJsonItems items)
  | [], _ => trivial
  | v :: rest, h => ⟨distinct_ofJson v h.1, distinctItems_ofJson rest h.2⟩

theorem distinctFields_ofJson : ∀ fields : List (Utf16 × Json), Json.ProperFields fields →
    DistinctFields (ofJsonFields fields)
  | [], _ => trivial
  | (_, v) :: rest, h => ⟨distinct_ofJson v h.1, distinctFields_ofJson rest h.2⟩

end

/-- What `JSON.parse` makes has distinct keys. -/
theorem distinct_of_parse {s : Utf16} {v : Json} (h : Json.parse s = some v) :
    Distinct (ofJson v) := distinct_ofJson v (Json.proper_of_parse h)

/-! ### The canonical text -/

/-- For values as `JSON.parse` makes them: the same text means equality up to the order of members,
exactly when the two do not differ in members `__proto__` or in an infinite number in the place of
`null` alone. -/
theorem canonical_text_iff (a b : JsValue) (ha : Distinct a) (hb : Distinct b) :
    (sortedJsonStringify a = sortedJsonStringify b ↔ Same a b) ↔
      (Same (written a) (written b) → Same a b) := by
  rw [sortedJsonStringify_eq_iff ha hb]
  exact ⟨Iff.mp, fun h => ⟨h, same_written ha⟩⟩

/-- `{"code":"1","__proto__":{"code":"2"}}` and `{"code":"1"}`. -/
def withProto : JsValue :=
  .obj [(Utf16.ofString "code", .str [49]), (proto, .obj [(Utf16.ofString "code", .str [50])])]

def withoutProto : JsValue := .obj [(Utf16.ofString "code", .str [49])]

/-- The member `__proto__` is not covered by the text. -/
theorem proto_member_is_lost :
    Distinct withProto ∧ Distinct withoutProto ∧
      sortedJsonStringify withProto = sortedJsonStringify withoutProto ∧
      ¬Same withProto withoutProto := by
  refine ⟨?_, ?_, by decide +kernel, ?_⟩
  · exact ⟨by decide +kernel, trivial, ⟨by decide +kernel, trivial, trivial⟩, trivial⟩
  · exact ⟨by decide +kernel, trivial, trivial⟩
  · rintro ⟨hlength, -⟩
    cases hlength

/-- The members of a payload in two orders. -/
theorem order_of_members_is_not_told :
    sortedJsonStringify (.obj [([98], .infinity true), ([49], .bool true)]) =
      sortedJsonStringify (.obj [([49], .bool true), ([98], .infinity true)]) := by
  have hsame : Same (.obj [([98], .infinity true), ([49], .bool true)])
      (.obj [([49], .bool true), ([98], .infinity true)]) :=
    ⟨rfl, ⟨.infinity true, by simp, rfl⟩, ⟨.bool true, by simp, rfl⟩, trivial⟩
  refine ((canonical_text_iff _ _ ?_ ?_).mpr fun _ => hsame).mpr hsame
  · exact ⟨by decide +kernel, trivial, trivial, trivial⟩
  · exact ⟨by decide +kernel, trivial, trivial, trivial⟩

end JsValue

/-! ### Sorting what has been sorted -/

theorem sortFields_eq_mapValues (fields : List (Utf16 × Json)) :
    sortFields fields = mapValues sortObjectKeys fields := by
  induction fields with
  | nil => rfl
  | cons f rest ih => exact congrArg ((f.1, sortObjectKeys f.2) :: ·) ih

theorem sortObjectKeys_obj (fields : List (Utf16 × Json)) :
    sortObjectKeys (.obj fields) = .obj (sorted (mapValues sortObjectKeys fields)) := by
  rw [sortObjectKeys, JsValue.assignFields_eq, sortFields_eq_mapValues, sorted]

theorem proper_sortObjectKeys {v : Json} (h : v.Proper) : (sortObjectKeys v).Proper :=
  JsValue.canonical_ofJson v ▸ JsValue.proper_canonical _ (JsValue.distinct_ofJson v h)

theorem field_sortObjectKeys {v : Json} {key : Utf16} (h : v.Proper) (hkey : key ≠ proto) :
    (sortObjectKeys v).field key = (v.field key).map sortObjectKeys := by
  cases v with
  | obj fields =>
    have hnodup : (keys (mapValues sortObjectKeys fields)).Nodup := by
      rw [Properties.keys_mapValues]
      exact h.1.nodup
    rw [sortObjectKeys_obj, Json.field, Properties.lookup_sorted hnodup hkey,
      Properties.lookup_mapValues]
    rfl
  | _ => rfl

mutual

theorem sortObjectKeys_idem : ∀ v : Json, v.Proper →
    sortObjectKeys (sortObjectKeys v) = sortObjectKeys v
  | .null, _ | .bool _, _ | .num _, _ | .str _, _ => rfl
  | .arr items, h => congrArg Json.arr (sortItems_idem items h)
  | .obj fields, h => by
    have hnodup : (keys (mapValues sortObjectKeys fields)).Nodup := by
      rw [Properties.keys_mapValues]
      exact h.1.nodup
    rw [sortObjectKeys_obj, sortObjectKeys_obj, Properties.mapValues_sorted,
      mapValues_idem fields h.2, Properties.sorted_sorted hnodup]

theorem sortItems_idem : ∀ items : List Json, Json.ProperItems items →
    sortItems (sortItems items) = sortItems items
  | [], _ => rfl
  | v :: rest, h => congrArg₂ List.cons (sortObjectKeys_idem v h.1) (sortItems_idem rest h.2)

theorem mapValues_idem : ∀ fields : List (Utf16 × Json), Json.ProperFields fields →
    mapValues sortObjectKeys (mapValues sortObjectKeys fields) = mapValues sortObjectKeys fields
  | [], _ => rfl
  | (key, v) :: rest, h => congrArg₂ (fun w tail => (key, w) :: tail) (sortObjectKeys_idem v h.1)
      (mapValues_idem rest h.2)

end

/-- The text of an object, parsed and written again, is the same. -/
theorem sortedJsonStringify_parsed {v : Json} (h : v.Proper) :
    (Json.parse (sortedJsonStringify v)).map sortedJsonStringify = some (sortedJsonStringify v) := by
  rw [sortedJsonStringify, Json.parse_stringify (proper_sortObjectKeys h), Option.map_some,
    sortedJsonStringify, sortObjectKeys_idem v h]

end SmartIdVault.Attestation
