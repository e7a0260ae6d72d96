import Tile38.Collection.Invariant

/-!
# What a client reads back from a collection

`Get` answers an id with its object and the item's slice of field values, whose slots the
field map gives names to. A client sees neither the slots nor the counters: it reads, per id,
the object and the value of each field name, zero for a name the id never set (`FSET` of a
zero and no `FSET` at all read alike). `view` is that finite map, and `ColView.replace`,
`ColView.remove` and `ColView.setFields` say what `ReplaceOrInsert`, `Remove` and `SetFields`
are for.

The refinement holds under `Live`, which, unlike `Consistent`, survives a `String` replaced by
a geometry: the two counters still add up to the number of items, the field map numbers its
names without repeats and below its size, no slice is longer than the field map, and only
live ids have slices.
-/

open Geojson

universe u

namespace Collection

variable {α : Type u}

/-- A collection as a client reads it back: per id, the object and the value of each field
name. -/
abbrev ColView (α : Type u) := List UInt8 → Option (Object α × (List UInt8 → α))

section Abstract

variable [Zero α] [DecidableEq α]

/-- Set each field to its value in turn, counting the values that change. -/
def setFieldsView (f : List UInt8 → α) : List (List UInt8 × α) → (List UInt8 → α) × Nat
  | [] => (f, 0)
  | (name, x) :: fvs =>
    let r := setFieldsView (Function.update f name x) fvs
    (r.1, if f name ≠ x then r.2 + 1 else r.2)

namespace ColView

/-- `ReplaceOrInsert`: the id holds the object, with the fields it had, if any, and then the
given ones set. -/
def replace (v : ColView α) (id : List UInt8) (obj : Object α) (fvs : List (List UInt8 × α)) :
    ColView α :=
  Function.update v id (some (obj, (setFieldsView ((v id).elim 0 Prod.snd) fvs).1))

/-- `Remove`. -/
def remove (v : ColView α) (id : List UInt8) : ColView α := Function.update v id none

/-- `SetFields`: nothing for an id that is not there; otherwise its fields set, and how many
values changed. -/
def setFields (v : ColView α) (id : List UInt8) (fvs : List (List UInt8 × α)) :
    ColView α × Option Nat :=
  match v id with
  | none => (v, none)
  | some (obj, f) =>
    (Function.update v id (some (obj, (setFieldsView f fvs).1)), some (setFieldsView f fvs).2)

end ColView

omit [Zero α] in
theorem setFieldsView_of_count_eq_zero (f : List UInt8 → α) (fvs : List (List UInt8 × α))
    (h : (setFieldsView f fvs).2 = 0) : (setFieldsView f fvs).1 = f := by
  induction fvs generalizing f with
  | nil => rfl
  | cons fv fvs ih =>
    obtain ⟨name, x⟩ := fv
    simp only [setFieldsView] at h ⊢
    have hx : f name = x := by
      by_contra hne
      simp [hne] at h
    rw [if_neg (not_not.mpr hx)] at h
    rw [ih _ h, ← hx, Function.update_eq_self]

omit [Zero α] in
theorem ColView.setFields_of_count_eq_zero (v : ColView α) (id : List UInt8)
    (fvs : List (List UInt8 × α)) (h : (v.setFields id fvs).2 = none ∨ (v.setFields id fvs).2 = some 0) :
    (v.setFields id fvs).1 = v := by
  unfold ColView.setFields at h ⊢
  split
  · rfl
  · rename_i obj f hv
    rw [hv] at h
    have h0 : (setFieldsView f fvs).2 = 0 := by simpa using h
    rw [setFieldsView_of_count_eq_zero f fvs h0, ← hv, Function.update_eq_self]

end Abstract

variable {str : Object α → List UInt8}

/-- The invariant under which the operations act on `view` as on a finite map. -/
structure Live (c : Collection α str) : Prop where
  count_eq : c.Count = c.items.items.length
  fields_live : ∀ e ∈ c.fieldValues.items, (c.items.get e.1).isSome
  idx_nodup : (c.fieldMap.items.map Prod.snd).Nodup
  idx_lt : ∀ e ∈ c.fieldMap.items, e.2 < c.fieldMap.items.length
  values_le : ∀ e ∈ c.fieldValues.items, e.2.length ≤ c.fieldMap.items.length

theorem live_New : (New : Collection α str).Live where
  count_eq := rfl
  fields_live := by simp [New]
  idx_nodup := by simp [New]
  idx_lt := by simp [New]
  values_le := by simp [New]

section Concrete

variable [Zero α] [LinearOrder α]

/-- The value of field `name` of `id`: the slot the field map gives the name, zero past the end
of the slice or for a name the map does not have. -/
def fieldOf (c : Collection α str) (id name : List UInt8) : α :=
  match c.fieldMap.get name with
  | some e => (c.getFieldValues id).getD e.2 0
  | none => 0

/-- What a client reads back from `c`. -/
def view (c : Collection α str) : ColView α :=
  fun id => (c.items.get id).map fun item => (item.object, c.fieldOf id)

omit [LinearOrder α] in
@[simp] theorem view_New : (New : Collection α str).view = fun _ => none := rfl

omit [LinearOrder α] in
theorem Get_isSome (c : Collection α str) (id : List UInt8) :
    (c.Get id).isSome = (c.view id).isSome := by
  simp [Get, view]

/-! ### Slices -/

omit [LinearOrder α] in
theorem getD_padFields (idx : Nat) (l : List α) (j : Nat) : (padFields idx l).getD j 0 = l.getD j 0 := by
  simp only [padFields, List.getD_eq_getElem?_getD, List.getElem?_append, List.getElem?_replicate]
  split
  · rfl
  · rename_i h
    rw [List.getElem?_eq_none (by omega)]
    split <;> rfl

omit [LinearOrder α] in
theorem length_padFields (idx : Nat) (l : List α) : (padFields idx l).length = max l.length (idx + 1) := by
  simp only [padFields, List.length_append, List.length_replicate]
  omega

omit [LinearOrder α] in
theorem getD_set_padFields (idx : Nat) (l : List α) (v : α) (j : Nat) :
    ((padFields idx l).set idx v).getD j 0 = if j = idx then v else l.getD j 0 := by
  have hlen : idx < (padFields idx l).length := by rw [length_padFields]; omega
  by_cases hj : j = idx
  · subst hj
    simp [List.getD_eq_getElem?_getD, List.getElem?_set_self hlen]
  · rw [if_neg hj, List.getD_eq_getElem?_getD, List.getElem?_set_ne (Ne.symm hj),
      ← List.getD_eq_getElem?_getD, getD_padFields]

/-! ### Facts of `Live` -/

section Live

variable {c : Collection α str} {id : List UInt8}

omit [Zero α] [LinearOrder α] in
theorem Live.fieldValues_get_none (hl : c.Live) (h : c.items.get id = none) :
    c.fieldValues.get id = none := by
  rw [KeyedSet.get_eq_none_iff]
  intro e he hk
  have hlive := hl.fields_live e he
  rw [hk, h] at hlive
  cases hlive

omit [Zero α] [LinearOrder α] in
theorem Live.length_getFieldValues_le (hl : c.Live) (id : List UInt8) :
    (c.getFieldValues id).length ≤ c.fieldMap.items.length := by
  unfold getFieldValues
  cases h : c.fieldValues.get id with
  | none => simp
  | some e => simpa using hl.values_le e (KeyedSet.mem_of_get h)

omit [LinearOrder α] in
theorem Live.fieldOf_of_get_none (hl : c.Live) (h : c.items.get id = none) : c.fieldOf id = 0 := by
  funext name
  have hfv : c.getFieldValues id = [] := by simp [getFieldValues, hl.fieldValues_get_none h]
  unfold fieldOf
  split <;> simp [hfv]

omit [LinearOrder α] in
theorem Live.view_fields (hl : c.Live) (id : List UInt8) :
    (c.view id).elim 0 Prod.snd = c.fieldOf id := by
  unfold view
  cases h : c.items.get id with
  | none => simp [hl.fieldOf_of_get_none h]
  | some item => rfl

omit [Zero α] [LinearOrder α] in
theorem Live.count_eq_zero_iff (hl : c.Live) : c.Count = 0 ↔ ∀ id, c.items.get id = none := by
  rw [hl.count_eq]
  constructor
  · intro h id
    have hnil : c.items.items = [] := List.eq_nil_of_length_eq_zero (by omega)
    rw [KeyedSet.get_eq_none_iff, hnil]
    simp
  · intro h
    cases hi : c.items.items with
    | nil => rfl
    | cons x xs =>
      have hx : c.items.get x.id = some x := KeyedSet.get_eq_some_iff.mpr ⟨by simp [hi], rfl⟩
      rw [h x.id] at hx
      cases hx

omit [LinearOrder α] in
theorem Live.count_eq_zero_iff_view (hl : c.Live) : c.Count = 0 ↔ c.view = fun _ => none := by
  rw [hl.count_eq_zero_iff, funext_iff]
  simp [view]

end Live

/-! ### `setField` -/

/-- What `setField` does to the field map and the slices when it writes slot `idx`: the name
gets that slot, either its own or the next one, and the slice of `id` is padded to it and set. -/
structure FieldWrite (c c' : Collection α str) (id field : List UInt8) (value : α) (idx : Nat) :
    Prop where
  get_self : c'.fieldMap.get field = some (field, idx)
  get_ne : ∀ name, name ≠ field → c'.fieldMap.get name = c.fieldMap.get name
  fieldValues : c'.fieldValues =
    (c.fieldValues.replaceOrInsert (id, (padFields idx (c.getFieldValues id)).set idx value)).1
  slot : (c.fieldMap.get field = some (field, idx) ∧ c'.fieldMap = c.fieldMap) ∨
    (c.fieldMap.get field = none ∧ idx = c.fieldMap.items.length ∧
      c'.fieldMap.items = (field, idx) :: c.fieldMap.items)

section SetField

variable {c : Collection α str} {id : List UInt8}

theorem setField_write (c : Collection α str) (id field : List UInt8) (value : α) :
    ∃ idx, FieldWrite c (c.setField id field value).1 id field value idx ∧
      (c.setField id field value).2 = ((c.getFieldValues id).getD idx 0 != value) := by
  cases h : c.fieldMap.get field with
  | some e =>
    have he : e = (field, e.2) := Prod.ext (KeyedSet.get_eq_some_iff.mp h).2 rfl
    refine ⟨e.2, ⟨?_, ?_, ?_, .inl ⟨?_, ?_⟩⟩, ?_⟩
    · simp [setField, h, setFieldValues, ← he]
    · intro name _
      simp [setField, h, setFieldValues]
    · simp [setField, h, setFieldValues]
    · rw [h, ← he]
    · simp [setField, h, setFieldValues]
    · simp only [setField, h]
      rw [getD_padFields]
  | none =>
    refine ⟨c.fieldMap.items.length, ⟨?_, ?_, ?_, .inr ⟨h, rfl, ?_⟩⟩, ?_⟩
    · simp only [setField, h, setFieldValues]
      exact c.fieldMap.get_replaceOrInsert_self (field, c.fieldMap.items.length)
    · intro name hn
      simp only [setField, h, setFieldValues]
      exact c.fieldMap.get_replaceOrInsert_ne _ hn
    · simp [setField, h, setFieldValues, getFieldValues]
    · simp only [setField, h, setFieldValues, KeyedSet.items_replaceOrInsert]
      rw [KeyedSet.items_erase_of_get_none h]
    · simp only [setField, h]
      rw [getD_padFields]
      rfl

variable {c' : Collection α str} {field : List UInt8} {value : α} {idx : Nat}

omit [LinearOrder α] in
theorem FieldWrite.getFieldValues (hw : FieldWrite c c' id field value idx) (id' : List UInt8) :
    c'.getFieldValues id' =
      if id' = id then (padFields idx (c.getFieldValues id)).set idx value else c.getFieldValues id' := by
  unfold Collection.getFieldValues
  rw [hw.fieldValues]
  by_cases h : id' = id
  · subst h
    simp [Collection.getFieldValues]
  · rw [if_neg h, KeyedSet.get_replaceOrInsert_ne _ _ h]

omit [LinearOrder α] in
theorem FieldWrite.fieldOf_self (hw : FieldWrite c c' id field value idx) (hl : c.Live)
    (id' : List UInt8) : c.fieldOf id' field = (c.getFieldValues id').getD idx 0 := by
  unfold fieldOf
  rcases hw.slot with ⟨hget, -⟩ | ⟨hget, hidx, -⟩
  · rw [hget]
  · rw [hget, hidx, List.getD_eq_getElem?_getD,
      List.getElem?_eq_none (hl.length_getFieldValues_le id')]
    rfl

omit [LinearOrder α] in
theorem FieldWrite.slot_ne (hw : FieldWrite c c' id field value idx) (hl : c.Live)
    {name : List UInt8} (hn : name ≠ field) {e : List UInt8 × Nat} (he : c.fieldMap.get name = some e) :
    e.2 ≠ idx := by
  have hmem := KeyedSet.mem_of_get he
  have hkey : e.1 = name := (KeyedSet.get_eq_some_iff.mp he).2
  rcases hw.slot with ⟨hget, -⟩ | ⟨-, hidx, -⟩
  · intro heq
    have hmem' := KeyedSet.mem_of_get hget
    have := List.inj_on_of_nodup_map hl.idx_nodup hmem hmem' heq
    exact hn (hkey ▸ congrArg Prod.fst this)
  · exact Nat.ne_of_lt (hidx ▸ hl.idx_lt e hmem)

omit [LinearOrder α] in
theorem FieldWrite.fieldOf (hw : FieldWrite c c' id field value idx) (hl : c.Live)
    (id' name : List UInt8) :
    c'.fieldOf id' name = if id' = id ∧ name = field then value else c.fieldOf id' name := by
  by_cases hn : name = field
  · subst hn
    rw [hw.fieldOf_self hl id']
    unfold Collection.fieldOf
    rw [hw.get_self, hw.getFieldValues id']
    by_cases hid : id' = id
    · simp only [hid, if_true, and_self]
      rw [getD_set_padFields, if_pos rfl]
    · simp only [hid, if_false, false_and]
  · have hne : ¬(id' = id ∧ name = field) := fun h => hn h.2
    rw [if_neg hne]
    unfold Collection.fieldOf
    rw [hw.get_ne name hn]
    cases he : c.fieldMap.get name with
    | none => rfl
    | some e =>
      simp only
      rw [hw.getFieldValues id']
      by_cases hid : id' = id
      · rw [if_pos hid, getD_set_padFields, if_neg (hw.slot_ne hl hn he), hid]
      · rw [if_neg hid]

omit [LinearOrder α] in
theorem FieldWrite.live (hw : FieldWrite c c' id field value idx) (hs : FieldStep c c' id)
    (hl : c.Live) (hid : (c.items.get id).isSome) : c'.Live := by
  have hlen : c.fieldMap.items.length ≤ c'.fieldMap.items.length ∧ idx < c'.fieldMap.items.length := by
    rcases hw.slot with ⟨hget, hmap⟩ | ⟨-, hidx, hitems⟩
    · rw [hmap]
      exact ⟨le_rfl, hl.idx_lt _ (KeyedSet.mem_of_get hget)⟩
    · rw [hitems, hidx]
      simp
  refine ⟨?_, ?_, ?_, ?_, ?_⟩
  · simp only [Count, hs.objects, hs.nobjects, hs.items]
    exact hl.count_eq
  · intro e he
    rw [hw.fieldValues, KeyedSet.items_replaceOrInsert] at he
    rw [hs.items]
    rcases List.mem_cons.mp he with rfl | he
    · exact hid
    · exact hl.fields_live e (KeyedSet.mem_erase.mp he).1
  · rcases hw.slot with ⟨-, hmap⟩ | ⟨-, hidx, hitems⟩
    · rw [hmap]
      exact hl.idx_nodup
    · rw [hitems, List.map_cons, List.nodup_cons]
      refine ⟨fun hmem => ?_, hl.idx_nodup⟩
      obtain ⟨e, he, he2⟩ := List.mem_map.mp hmem
      have := hl.idx_lt e he
      omega
  · rcases hw.slot with ⟨-, hmap⟩ | ⟨-, hidx, hitems⟩
    · rw [hmap]
      exact hl.idx_lt
    · intro e he
      rw [hitems] at he ⊢
      rcases List.mem_cons.mp he with rfl | he
      · simp [hidx]
      · have := hl.idx_lt e he
        simp only [List.length_cons]
        omega
  · intro e he
    rw [hw.fieldValues, KeyedSet.items_replaceOrInsert] at he
    rcases List.mem_cons.mp he with rfl | he
    · simp only [List.length_set, length_padFields]
      have := hl.length_getFieldValues_le id
      omega
    · have := hl.values_le e (KeyedSet.mem_erase.mp he).1
      omega

variable (field value)

theorem Live.setField (hl : c.Live) (hid : (c.items.get id).isSome) :
    (c.setField id field value).1.Live := by
  obtain ⟨idx, hw, -⟩ := c.setField_write id field value
  exact hw.live (c.setField_spec id field value) hl hid

theorem Live.fieldOf_setField (hl : c.Live) (id' name : List UInt8) :
    (c.setField id field value).1.fieldOf id' name =
      if id' = id ∧ name = field then value else c.fieldOf id' name := by
  obtain ⟨idx, hw, -⟩ := c.setField_write id field value
  exact hw.fieldOf hl id' name

theorem Live.fieldOf_setField_eq (hl : c.Live) (id' : List UInt8) :
    (c.setField id field value).1.fieldOf id' =
      if id' = id then Function.update (c.fieldOf id) field value else c.fieldOf id' := by
  funext name
  rw [hl.fieldOf_setField field value id' name]
  by_cases h : id' = id
  · subst h
    by_cases hn : name = field <;> simp [hn]
  · simp [h]

/-- `setField` reports a change exactly when the value read before differs. -/
theorem Live.setField_updated (hl : c.Live) :
    (c.setField id field value).2 = decide (c.fieldOf id field ≠ value) := by
  obtain ⟨idx, hw, hupd⟩ := c.setField_write id field value
  rw [hupd, hw.fieldOf_self hl id, decide_not]
  rfl

end SetField

/-! ### Setting several fields -/

section SetFields

variable {c : Collection α str} {id : List UInt8}

/-- Setting fields of a live id one after the other: the collection stays live, keeps its
items, and reads for `id` what `setFieldsView` computes. -/
theorem Live.foldl_setField (hl : c.Live) (hid : (c.items.get id).isSome)
    (fvs : List (List UInt8 × α)) :
    (fvs.foldl (fun c fv => (c.setField id fv.1 fv.2).1) c).Live ∧
      (fvs.foldl (fun c fv => (c.setField id fv.1 fv.2).1) c).items = c.items ∧
      ∀ id', (fvs.foldl (fun c fv => (c.setField id fv.1 fv.2).1) c).fieldOf id' =
        if id' = id then (setFieldsView (c.fieldOf id) fvs).1 else c.fieldOf id' := by
  induction fvs generalizing c with
  | nil => exact ⟨hl, rfl, fun id' => by split_ifs with h <;> simp [h, setFieldsView]⟩
  | cons fv fvs ih =>
    obtain ⟨name, x⟩ := fv
    have hitems := (c.setField_spec id name x).items
    have hfield : ∀ id', (c.setField id name x).1.fieldOf id' =
        if id' = id then Function.update (c.fieldOf id) name x else c.fieldOf id' :=
      hl.fieldOf_setField_eq name x
    obtain ⟨hl', hitems', hf'⟩ := ih (hl.setField name x hid) (by rw [hitems]; exact hid)
    refine ⟨hl', hitems'.trans hitems, fun id' => ?_⟩
    simp only [List.foldl_cons]
    rw [hf' id', hfield id, hfield id']
    by_cases h : id' = id <;> simp [h, setFieldsView]

theorem Live.foldl_setFields_count (hl : c.Live) (hid : (c.items.get id).isSome)
    (fvs : List (List UInt8 × α)) (n : Nat) :
    (fvs.foldl (fun (cn : Collection α str × Nat) fv =>
      ((cn.1.setField id fv.1 fv.2).1,
        if (cn.1.setField id fv.1 fv.2).2 then cn.2 + 1 else cn.2)) (c, n)).2 =
      n + (setFieldsView (c.fieldOf id) fvs).2 := by
  induction fvs generalizing c n with
  | nil => rfl
  | cons fv fvs ih =>
    obtain ⟨name, x⟩ := fv
    have hitems := (c.setField_spec id name x).items
    have hself : (c.setField id name x).1.fieldOf id =
        if id = id then Function.update (c.fieldOf id) name x else c.fieldOf id :=
      hl.fieldOf_setField_eq name x id
    rw [if_pos rfl] at hself
    rw [List.foldl_cons, ih (hl.setField name x hid) (by rw [hitems]; exact hid), hself,
      hl.setField_updated]
    simp only [setFieldsView]
    by_cases hx : c.fieldOf id name = x
    · simp [hx]
    · simp [hx]
      omega

theorem Live.SetFields (hl : c.Live) (id : List UInt8) (in_fields : List (List UInt8))
    (in_values : List α) : (c.SetFields id in_fields in_values).1.Live := by
  unfold Collection.SetFields
  cases h : c.items.get id with
  | none => exact hl
  | some item =>
    have hoid := (KeyedSet.get_eq_some_iff.mp h).2
    have hid : (c.items.get item.id).isSome := by rw [hoid, h]; rfl
    simp only
    rw [foldl_setFields_fst]
    exact (hl.foldl_setField hid _).1

theorem Live.view_SetFields (hl : c.Live) (id : List UInt8) (in_fields : List (List UInt8))
    (in_values : List α) :
    (c.SetFields id in_fields in_values).1.view = (c.view.setFields id (in_fields.zip in_values)).1 ∧
      (c.SetFields id in_fields in_values).2.map (·.2.2) =
        (c.view.setFields id (in_fields.zip in_values)).2 := by
  unfold Collection.SetFields ColView.setFields
  cases h : c.items.get id with
  | none => simp [view, h]
  | some item =>
    have hoid := (KeyedSet.get_eq_some_iff.mp h).2
    have hid : (c.items.get id).isSome := by rw [h]; rfl
    have hv : c.view id = some (item.object, c.fieldOf id) := by simp [view, h]
    simp only [hv, hoid]
    obtain ⟨-, hitems, hf⟩ := hl.foldl_setField hid (in_fields.zip in_values)
    refine ⟨?_, ?_⟩
    · rw [foldl_setFields_fst]
      funext id'
      simp only [view, hitems, hf id']
      by_cases h' : id' = id
      · subst h'
        simp [h]
      · simp [h', view]
    · simp [hl.foldl_setFields_count hid]

end SetFields

/-! ### `ReplaceOrInsert` and `Remove` -/

section Replace

variable {c : Collection α str} {id : List UInt8}

theorem replaceItem_fieldMap (c : Collection α str) (id : List UInt8) (obj : Object α) :
    (c.replaceItem id obj).1.fieldMap = c.fieldMap := by
  cases h : c.items.get id <;> simp [replaceItem, removeOld, insertNew, h] <;> split_ifs <;> rfl

theorem replaceItem_fieldOf (c : Collection α str) (id : List UInt8) (obj : Object α) :
    (c.replaceItem id obj).1.fieldOf = c.fieldOf := by
  funext id' name
  simp [fieldOf, getFieldValues, replaceItem_fieldMap, replaceItem_fieldValues]

theorem replaceItem_get_self (c : Collection α str) (id : List UInt8) (obj : Object α) :
    (c.replaceItem id obj).1.items.get id = some ⟨c.alloc, id, obj⟩ := by
  rw [replaceItem_items]
  exact c.items.get_replaceOrInsert_self ⟨c.alloc, id, obj⟩

theorem replaceItem_get_ne (c : Collection α str) {id id' : List UInt8} (obj : Object α)
    (h : id' ≠ id) : (c.replaceItem id obj).1.items.get id' = c.items.get id' := by
  rw [replaceItem_items]
  exact KeyedSet.get_replaceOrInsert_ne _ _ h

theorem view_replaceItem (c : Collection α str) (id : List UInt8) (obj : Object α) :
    (c.replaceItem id obj).1.view = Function.update c.view id (some (obj, c.fieldOf id)) := by
  funext id'
  by_cases h : id' = id
  · subst h
    simp [view, replaceItem_get_self, replaceItem_fieldOf]
  · simp only [view, replaceItem_get_ne c obj h, replaceItem_fieldOf, Function.update_of_ne h]

theorem Live.replaceItem (hl : c.Live) (obj : Object α) : (c.replaceItem id obj).1.Live := by
  have hitems : (c.replaceItem id obj).1.items.items.length = 1 + (c.items.erase id).items.length := by
    simp only [replaceItem_items, KeyedSet.items_replaceOrInsert, List.length_cons]
    omega
  refine ⟨?_, ?_, ?_, ?_, ?_⟩
  · have hc := hl.count_eq
    have hlen := c.items.length_erase id
    simp only [Count] at hc ⊢
    rw [replaceItem_objects, replaceItem_nobjects, hitems]
    cases h : c.items.get id <;> cases hg : obj.IsGeometry <;>
      simp only [h, Option.toList_none, Option.toList_some, List.length_nil, List.length_singleton,
        Option.isSome_none, Option.isSome_some, Bool.false_eq_true, if_true, if_false] at hlen ⊢ <;>
      omega
  · intro e he
    rw [replaceItem_fieldValues] at he
    by_cases h : e.1 = id
    · rw [h, replaceItem_get_self]
      rfl
    · rw [replaceItem_get_ne c obj h]
      exact hl.fields_live e he
  · rw [replaceItem_fieldMap]
    exact hl.idx_nodup
  · rw [replaceItem_fieldMap]
    exact hl.idx_lt
  · rw [replaceItem_fieldMap, replaceItem_fieldValues]
    exact hl.values_le

theorem Live.ReplaceOrInsert (hl : c.Live) (id : List UInt8) (obj : Object α)
    (fields : Option (List (List UInt8))) (values : List α) (hfv : fields = none → values = []) :
    (c.ReplaceOrInsert id obj fields values).1.Live := by
  have hl' : (c.replaceItem id obj).1.Live := hl.replaceItem obj
  rw [ReplaceOrInsert_fst]
  cases fields with
  | none => simp [applyFields, hfv rfl, hl']
  | some fields =>
    exact (hl'.foldl_setField (by rw [replaceItem_get_self]; rfl) _).1

/-- `ReplaceOrInsert` acts on the view as `ColView.replace`; `cmdSet` passes no values without
fields. -/
theorem Live.view_ReplaceOrInsert (hl : c.Live) (id : List UInt8) (obj : Object α)
    (fields : Option (List (List UInt8))) (values : List α) (hfv : fields = none → values = []) :
    (c.ReplaceOrInsert id obj fields values).1.view =
      c.view.replace id obj ((fields.getD []).zip values) := by
  rw [ReplaceOrInsert_fst, ColView.replace, hl.view_fields id]
  cases fields with
  | none =>
    simp only [applyFields, hfv rfl, List.length_nil, lt_self_iff_false, if_false]
    rw [view_replaceItem]
    rfl
  | some fields =>
    have hl' : (c.replaceItem id obj).1.Live := hl.replaceItem obj
    obtain ⟨-, hitems, hf⟩ :=
      hl'.foldl_setField (by rw [replaceItem_get_self]; rfl) (fields.zip values)
    funext id'
    simp only [applyFields, Option.getD_some, view, hitems, hf id', replaceItem_fieldOf]
    by_cases h : id' = id
    · subst h
      simp [replaceItem_get_self]
    · rw [if_neg h, replaceItem_get_ne c obj h, Function.update_of_ne h]
      rfl

theorem view_Remove (c : Collection α str) (id : List UInt8) :
    (c.Remove id).1.view = c.view.remove id := by
  cases h : c.items.get id with
  | none =>
    rw [Remove_of_get_none c id h, ColView.remove]
    funext id'
    by_cases h' : id' = id
    · subst h'
      simp [view, h]
    · rw [Function.update_of_ne h']
  | some item =>
    rw [Remove_of_get_some c id h, ColView.remove]
    funext id'
    by_cases h' : id' = id
    · subst h'
      simp [view]
    · rw [Function.update_of_ne h']
      simp only [view, KeyedSet.get_erase_ne _ h']
      congr 2
      funext o
      congr 1
      funext name
      simp [fieldOf, getFieldValues, KeyedSet.get_erase_ne _ h']

theorem Remove_snd_isSome (c : Collection α str) (id : List UInt8) :
    (c.Remove id).2.isSome = (c.items.get id).isSome := by
  cases h : c.items.get id with
  | none => rw [Remove_of_get_none c id h]; rfl
  | some item => rw [Remove_of_get_some c id h]; rfl

theorem Live.Remove (hl : c.Live) (id : List UInt8) : (c.Remove id).1.Live := by
  cases h : c.items.get id with
  | none => rw [Remove_of_get_none c id h]; exact hl
  | some item =>
    rw [Remove_of_get_some c id h]
    have hlen := c.items.length_erase id
    rw [h] at hlen
    refine ⟨?_, ?_, hl.idx_nodup, hl.idx_lt, ?_⟩
    · have hc := hl.count_eq
      simp only [Count] at hc ⊢
      simp only [Option.toList_some, List.length_singleton] at hlen
      cases hg : item.object.IsGeometry <;> simp only [Bool.false_eq_true, if_true, if_false] <;>
        omega
    · intro e he
      obtain ⟨hmem, hne⟩ := KeyedSet.mem_erase.mp he
      rw [c.items.get_erase_ne hne]
      exact hl.fields_live e hmem
    · intro e he
      exact hl.values_le e (KeyedSet.mem_erase.mp he).1

end Replace

end Concrete

end Collection
