import Tile38.Collection.Collection

/-!
# The representation invariant of a collection

A collection is consistent when its derived parts agree with the items B-tree: the index holds
the entries of exactly the geometry items, the values B-tree exactly the other items, every id
with field values is live, the addresses of the items are distinct and below the next one,
and the four counters are the counts and sums they stand for.

`Remove`, `SetField` and `SetFields` keep consistency from any consistent state.
`ReplaceOrInsert` keeps it when it replaces an item by one of the same kind (geometry or not);
it picks the container to clean by the new object's type, so a change of kind leaves the old
item behind (`replaceOrInsert_kind_change`).
-/

open Geojson

namespace Collection

universe u
variable {α : Type u} {str : Object α → List UInt8}

section Items

variable {c : Collection α str} {id : List UInt8}

theorem items_erase_of_get_none (h : c.items.get id = none) :
    (c.items.erase id).items = c.items.items := by
  rw [KeyedSet.items_erase, List.filter_eq_self]
  intro x hx
  simpa using KeyedSet.get_eq_none_iff.mp h x hx

theorem id_ne_of_mem_erase {x : itemT α} (hx : x ∈ (c.items.erase id).items) : x.id ≠ id :=
  (KeyedSet.mem_erase.mp hx).2

theorem mem_of_mem_erase {x : itemT α} (hx : x ∈ (c.items.erase id).items) : x ∈ c.items.items :=
  (KeyedSet.mem_erase.mp hx).1

theorem values_replaceOrInsert_fresh {V : KeyedSet (valueKey str)} {x : itemT α}
    (hV : ∀ y ∈ V.items, y.id ≠ x.id) : (V.replaceOrInsert x).1.items = x :: V.items := by
  rw [KeyedSet.items_replaceOrInsert, KeyedSet.items_erase, List.filter_eq_self.mpr]
  intro y hy
  simp [valueKey, hV y hy]

section Kind

variable {obj : Object α}
  (hkind : ∀ o, c.items.get id = some o → o.object.IsGeometry = obj.IsGeometry)
include hkind

theorem filter_get_geometry :
    (c.items.get id).toList.filter (·.object.IsGeometry) =
      if obj.IsGeometry then (c.items.get id).toList else [] := by
  cases h : c.items.get id with
  | none => simp
  | some o => cases hg : obj.IsGeometry <;> simp [hkind o h, hg]

theorem filter_get_not_geometry :
    (c.items.get id).toList.filter (fun x => !x.object.IsGeometry) =
      if obj.IsGeometry then [] else (c.items.get id).toList := by
  cases h : c.items.get id with
  | none => simp
  | some o => cases hg : obj.IsGeometry <;> simp [hkind o h, hg]

end Kind

end Items

variable [Zero α] [LinearOrder α]

/-- Agreement of the derived parts of a collection with its items. -/
structure Consistent (c : Collection α str) : Prop where
  index_perm : c.index.Perm ((c.items.items.filter (·.object.IsGeometry)).map itemT.entry)
  values_perm : c.values.items.Perm (c.items.items.filter fun x => !x.object.IsGeometry)
  fields_live : ∀ e ∈ c.fieldValues.items, (c.items.get e.1).isSome
  addr_lt : ∀ x ∈ c.items.items, x.addr < c.alloc
  addr_nodup : (c.items.items.map (·.addr)).Nodup
  objects_eq : c.objects = (c.items.items.filter (·.object.IsGeometry)).length
  nobjects_eq : c.nobjects = (c.items.items.filter fun x => !x.object.IsGeometry).length
  points_eq : c.points = c.items.total fun x => (x.object.PositionCount : Int)
  weight_eq : c.weight = c.items.total (fun x => ((x.object.Weight + x.id.length : Nat) : Int)) +
    c.fieldValues.total fun e => ((e.2.length * 8 : Nat) : Int)

theorem consistent_New : Consistent (New : Collection α str) where
  index_perm := by simp [New]
  values_perm := by simp [New]
  fields_live := by simp [New]
  addr_lt := by simp [New]
  addr_nodup := by simp [New]
  objects_eq := by simp [New]
  nobjects_eq := by simp [New]
  points_eq := by simp [New]
  weight_eq := by simp [New]

section Lemmas

variable {c : Collection α str} {id : List UInt8}

theorem Consistent.addr_ne (hc : Consistent c) {x y : itemT α} (hx : x ∈ c.items.items)
    (hy : y ∈ c.items.items) (hne : x.id ≠ y.id) : x.addr ≠ y.addr := fun heq =>
  hne (congrArg itemT.id (List.inj_on_of_nodup_map hc.addr_nodup hx hy heq))

theorem Consistent.index_perm_erase (hc : Consistent c) (id : List UInt8) :
    c.index.Perm ((((c.items.get id).toList.filter (·.object.IsGeometry)) ++
      (c.items.erase id).items.filter (·.object.IsGeometry)).map itemT.entry) :=
  hc.index_perm.trans ((c.items.perm_filter_erase id _).map _)

theorem Consistent.values_perm_erase (hc : Consistent c) (id : List UInt8) :
    c.values.items.Perm (((c.items.get id).toList.filter fun x => !x.object.IsGeometry) ++
      (c.items.erase id).items.filter fun x => !x.object.IsGeometry) :=
  hc.values_perm.trans (c.items.perm_filter_erase id _)

theorem Consistent.indexRemove_perm (hc : Consistent c) {o : itemT α}
    (ho : c.items.get id = some o) :
    (indexRemove c.index o).Perm (((c.items.erase id).items.filter (·.object.IsGeometry)).map
      itemT.entry) := by
  obtain ⟨hom, hoid⟩ := KeyedSet.get_eq_some_iff.mp ho
  have hp := (hc.index_perm_erase id).filter fun t => t.item ≠ o.addr
  rw [ho] at hp
  have hold : ((([o].filter (·.object.IsGeometry)).map itemT.entry).filter
      fun t => t.item ≠ o.addr) = [] := by
    cases o.object.IsGeometry <;> simp [itemT.entry]
  have hrest : (((c.items.erase id).items.filter (·.object.IsGeometry)).map itemT.entry).filter
      (fun t => t.item ≠ o.addr) =
      ((c.items.erase id).items.filter (·.object.IsGeometry)).map itemT.entry := by
    rw [List.filter_eq_self]
    intro t ht
    obtain ⟨x, hx, rfl⟩ := List.mem_map.mp ht
    have hxe := (List.mem_filter.mp hx).1
    have hne := hc.addr_ne (mem_of_mem_erase hxe) hom (by rw [hoid]; exact id_ne_of_mem_erase hxe)
    simp [itemT.entry, hne]
  rw [Option.toList_some, List.map_append, List.filter_append, hold, hrest, List.nil_append] at hp
  rw [indexRemove_eq]
  exact hp

theorem Consistent.values_erase_perm (hc : Consistent c) {o : itemT α}
    (ho : c.items.get id = some o) :
    (c.values.erase (valueKey str o)).items.Perm
      ((c.items.erase id).items.filter fun x => !x.object.IsGeometry) := by
  have hoid := (KeyedSet.get_eq_some_iff.mp ho).2
  have hp := (hc.values_perm_erase id).filter fun x => valueKey str x ≠ valueKey str o
  rw [ho] at hp
  have hold : (([o].filter fun x => !x.object.IsGeometry).filter
      fun x => valueKey str x ≠ valueKey str o) = [] := by
    cases o.object.IsGeometry <;> simp
  have hrest : ((c.items.erase id).items.filter fun x => !x.object.IsGeometry).filter
      (fun x => valueKey str x ≠ valueKey str o) =
      (c.items.erase id).items.filter fun x => !x.object.IsGeometry := by
    rw [List.filter_eq_self]
    intro x hx
    have hne : x.id ≠ o.id := hoid ▸ id_ne_of_mem_erase (List.mem_filter.mp hx).1
    simp [valueKey, hne]
  rw [Option.toList_some, List.filter_append, hold, hrest, List.nil_append] at hp
  exact hp


end Lemmas

/-! ### `ReplaceOrInsert` of the same kind -/

section Replace

variable {c : Collection α str} {id : List UInt8} (obj : Object α)

theorem replaceItem_items_items :
    (c.replaceItem id obj).1.items.items = ⟨c.alloc, id, obj⟩ :: (c.items.erase id).items := by
  rw [replaceItem_items, KeyedSet.items_replaceOrInsert]

variable {obj} (hkind : ∀ o, c.items.get id = some o → o.object.IsGeometry = obj.IsGeometry)
include hkind

theorem Consistent.replaceItem_index_perm (hc : Consistent c) :
    (c.replaceItem id obj).1.index.Perm
      (((c.replaceItem id obj).1.items.items.filter (·.object.IsGeometry)).map itemT.entry) := by
  have hsplit := hc.index_perm_erase id
  rw [filter_get_geometry hkind] at hsplit
  rw [replaceItem_index, replaceItem_items_items]
  cases hg : obj.IsGeometry with
  | false => simpa [hg] using hsplit
  | true =>
    have hX : ((c.items.get id).elim c.index (indexRemove c.index)).Perm
        (((c.items.erase id).items.filter (·.object.IsGeometry)).map itemT.entry) := by
      cases h : c.items.get id with
      | none => simpa [h] using hsplit
      | some o => exact hc.indexRemove_perm h
    simpa [hg] using (List.perm_append_singleton _ _).trans (hX.cons _)

theorem Consistent.replaceItem_values_perm (hc : Consistent c) :
    (c.replaceItem id obj).1.values.items.Perm
      ((c.replaceItem id obj).1.items.items.filter fun x => !x.object.IsGeometry) := by
  have hsplit := hc.values_perm_erase id
  rw [filter_get_not_geometry hkind] at hsplit
  rw [replaceItem_values, replaceItem_items_items]
  cases hg : obj.IsGeometry with
  | true => simpa [hg] using hsplit
  | false =>
    -- the old item out by its key; no other item has the id, so the new one goes in front
    have hV : ((c.items.get id).elim c.values fun o => c.values.erase (valueKey str o)).items.Perm
        ((c.items.erase id).items.filter fun x => !x.object.IsGeometry) := by
      cases h : c.items.get id with
      | none => simpa [h] using hsplit
      | some o => exact hc.values_erase_perm h
    have hfresh : ∀ y ∈ ((c.items.get id).elim c.values
        fun o => c.values.erase (valueKey str o)).items, y.id ≠ (⟨c.alloc, id, obj⟩ : itemT α).id :=
      fun y hy => id_ne_of_mem_erase (List.mem_filter.mp (hV.subset hy)).1
    rw [if_neg (by simp), values_replaceOrInsert_fresh hfresh]
    simpa [hg] using hV.cons (⟨c.alloc, id, obj⟩ : itemT α)

theorem Consistent.objects_replaceItem (hc : Consistent c) :
    (c.replaceItem id obj).1.objects =
      ((c.replaceItem id obj).1.items.items.filter (·.object.IsGeometry)).length := by
  have hlen := ((c.items.perm_filter_erase id (·.object.IsGeometry)).length_eq)
  rw [filter_get_geometry hkind, List.length_append] at hlen
  rw [replaceItem_objects, replaceItem_items_items, hc.objects_eq, hlen]
  cases hg : obj.IsGeometry <;> cases h : c.items.get id <;> simp [hg]

theorem Consistent.nobjects_replaceItem (hc : Consistent c) :
    (c.replaceItem id obj).1.nobjects =
      ((c.replaceItem id obj).1.items.items.filter fun x => !x.object.IsGeometry).length := by
  have hlen := ((c.items.perm_filter_erase id fun x => !x.object.IsGeometry).length_eq)
  rw [filter_get_not_geometry hkind, List.length_append] at hlen
  rw [replaceItem_nobjects, replaceItem_items_items, hc.nobjects_eq, hlen]
  cases hg : obj.IsGeometry <;> cases h : c.items.get id <;> simp [hg]

omit hkind in
theorem Consistent.points_replaceItem (hc : Consistent c) :
    (c.replaceItem id obj).1.points =
      (c.replaceItem id obj).1.items.total fun x => (x.object.PositionCount : Int) := by
  rw [replaceItem_points, replaceItem_items, KeyedSet.total_replaceOrInsert, hc.points_eq,
    c.items.total_erase _ id]
  cases c.items.get id <;> simp <;> ring

omit hkind in
theorem Consistent.weight_replaceItem (hc : Consistent c) :
    (c.replaceItem id obj).1.weight =
      (c.replaceItem id obj).1.items.total (fun x => ((x.object.Weight + x.id.length : Nat) : Int)) +
        (c.replaceItem id obj).1.fieldValues.total fun e => ((e.2.length * 8 : Nat) : Int) := by
  rw [replaceItem_weight, replaceItem_items, KeyedSet.total_replaceOrInsert, replaceItem_fieldValues,
    hc.weight_eq, c.items.total_erase _ id]
  cases c.items.get id <;> simp <;> ring

omit hkind in
theorem Consistent.fields_live_replaceItem (hc : Consistent c) :
    ∀ e ∈ (c.replaceItem id obj).1.fieldValues.items,
      ((c.replaceItem id obj).1.items.get e.1).isSome := by
  intro e he
  rw [replaceItem_fieldValues] at he
  rw [replaceItem_items]
  by_cases hid : e.1 = id
  · rw [hid]
    exact Option.isSome_iff_exists.mpr ⟨_, c.items.get_replaceOrInsert_self ⟨c.alloc, id, obj⟩⟩
  · rw [c.items.get_replaceOrInsert_ne _ hid]
    exact hc.fields_live e he

omit hkind in
theorem Consistent.addr_replaceItem (hc : Consistent c) :
    (∀ x ∈ (c.replaceItem id obj).1.items.items, x.addr < (c.replaceItem id obj).1.alloc) ∧
      ((c.replaceItem id obj).1.items.items.map (·.addr)).Nodup := by
  rw [replaceItem_items_items, replaceItem_alloc]
  have hlt : ∀ x ∈ (c.items.erase id).items, x.addr < c.alloc :=
    fun x hx => hc.addr_lt x (mem_of_mem_erase hx)
  refine ⟨?_, ?_⟩
  · intro x hx
    rcases List.mem_cons.mp hx with rfl | hx
    · exact Nat.lt_succ_self _
    · exact Nat.lt_succ_of_lt (hlt x hx)
  · rw [List.map_cons, List.nodup_cons]
    refine ⟨fun hmem => ?_, hc.addr_nodup.sublist ((List.filter_sublist).map _)⟩
    obtain ⟨x, hx, hxa⟩ := List.mem_map.mp hmem
    exact absurd (hlt x hx) (by simp [hxa])

/-- A replacement of the same kind keeps the collection consistent. -/
theorem Consistent.replaceItem (hc : Consistent c) : Consistent (c.replaceItem id obj).1 where
  index_perm := hc.replaceItem_index_perm hkind
  values_perm := hc.replaceItem_values_perm hkind
  fields_live := hc.fields_live_replaceItem
  addr_lt := hc.addr_replaceItem.1
  addr_nodup := hc.addr_replaceItem.2
  objects_eq := hc.objects_replaceItem hkind
  nobjects_eq := hc.nobjects_replaceItem hkind
  points_eq := hc.points_replaceItem
  weight_eq := hc.weight_replaceItem

end Replace

/-! ### Field steps, `Remove`, `SetField` and `SetFields` -/

section Fields

variable {c : Collection α str} {id : List UInt8}

omit [Zero α] [LinearOrder α] in
theorem getFieldValues_weight (c : Collection α str) (id : List UInt8) :
    ((c.fieldValues.get id).elim 0 fun e => ((e.2.length * 8 : Nat) : Int)) =
      (c.getFieldValues id).length * 8 := by
  cases h : c.fieldValues.get id <;> simp [getFieldValues, h]

theorem Consistent.of_fieldStep {c' : Collection α str} (hc : Consistent c)
    (hid : (c.items.get id).isSome) (hs : FieldStep c c' id) : Consistent c' := by
  obtain ⟨vs, hfv, hw⟩ := hs.fieldValues
  refine ⟨?_, ?_, ?_, ?_, ?_, ?_, ?_, ?_, ?_⟩
  · rw [hs.index, hs.items]
    exact hc.index_perm
  · rw [hs.values, hs.items]
    exact hc.values_perm
  · intro e he
    rw [hfv, KeyedSet.items_replaceOrInsert] at he
    rw [hs.items]
    rcases List.mem_cons.mp he with rfl | he
    · exact hid
    · exact hc.fields_live e (KeyedSet.mem_erase.mp he).1
  · rw [hs.items, hs.alloc]
    exact hc.addr_lt
  · rw [hs.items]
    exact hc.addr_nodup
  · rw [hs.objects, hs.items]
    exact hc.objects_eq
  · rw [hs.nobjects, hs.items]
    exact hc.nobjects_eq
  · rw [hs.points, hs.items]
    exact hc.points_eq
  · have htot := c.fieldValues.total_erase (fun e => ((e.2.length * 8 : Nat) : Int)) id
    rw [getFieldValues_weight] at htot
    rw [hw, hfv, hs.items, KeyedSet.total_replaceOrInsert, hc.weight_eq, htot]
    push_cast
    ring

theorem Consistent.setField (hc : Consistent c) (hid : (c.items.get id).isSome)
    (field : List UInt8) (value : α) : Consistent (c.setField id field value).1 :=
  hc.of_fieldStep hid (c.setField_spec id field value)

theorem Consistent.foldl_setField (hc : Consistent c) (hid : (c.items.get id).isSome)
    (fvs : List (List UInt8 × α)) :
    Consistent (fvs.foldl (fun c fv => (c.setField id fv.1 fv.2).1) c) ∧
      ((fvs.foldl (fun c fv => (c.setField id fv.1 fv.2).1) c).items.get id).isSome := by
  induction fvs generalizing c with
  | nil => exact ⟨hc, hid⟩
  | cons fv fvs ih =>
    have hitems := (c.setField_spec id fv.1 fv.2).items
    exact ih (hc.setField hid fv.1 fv.2) (by rw [hitems]; exact hid)

/-- The field arguments of `ReplaceOrInsert` keep consistency once the id is live and the
fields passed on are its own. -/
theorem Consistent.applyFields (hc : Consistent c) (hid : (c.items.get id).isSome)
    {newFields : List α} (hnew : newFields = c.getFieldValues id)
    (fields : Option (List (List UInt8))) (values : List α) :
    Consistent (c.applyFields id newFields fields values).1 := by
  cases fields with
  | none =>
    unfold Collection.applyFields
    split_ifs
    · refine hc.of_fieldStep hid ⟨rfl, rfl, rfl, rfl, rfl, rfl, rfl, values, rfl, ?_⟩
      simp [setFieldValues, hnew]
    · exact hc
  | some fields => exact (hc.foldl_setField hid _).1

end Fields

/-! ### The operations -/

section Operations

variable {c : Collection α str} {id : List UInt8}

theorem ReplaceOrInsert_fst (c : Collection α str) (id : List UInt8) (obj : Object α)
    (fields : Option (List (List UInt8))) (values : List α) :
    (c.ReplaceOrInsert id obj fields values).1 =
      ((c.replaceItem id obj).1.applyFields id (c.replaceItem id obj).2.2 fields values).1 := rfl

/-- The old fields handed to the field arguments are the id's own: an id that was not live had
none. -/
theorem Consistent.oldFields_eq (hc : Consistent c) (obj : Object α) :
    (c.replaceItem id obj).2.2 = (c.replaceItem id obj).1.getFieldValues id := by
  rw [replaceItem_oldFields]
  unfold getFieldValues
  rw [replaceItem_fieldValues]
  cases h : c.items.get id with
  | none =>
    have hfv : c.fieldValues.get id = none := by
      rw [KeyedSet.get_eq_none_iff]
      intro e he hk
      have hlive := hc.fields_live e he
      rw [hk, h] at hlive
      cases hlive
    simp [hfv]
  | some o => rfl

/-- `ReplaceOrInsert` of an object of the kind of the one it replaces keeps consistency. -/
theorem Consistent.ReplaceOrInsert (hc : Consistent c) {obj : Object α}
    (hkind : ∀ o, c.items.get id = some o → o.object.IsGeometry = obj.IsGeometry)
    (fields : Option (List (List UInt8))) (values : List α) :
    Consistent (c.ReplaceOrInsert id obj fields values).1 := by
  have hid : ((c.replaceItem id obj).1.items.get id).isSome := by
    rw [replaceItem_items]
    exact Option.isSome_iff_exists.mpr ⟨_, c.items.get_replaceOrInsert_self ⟨c.alloc, id, obj⟩⟩
  rw [ReplaceOrInsert_fst]
  exact (hc.replaceItem hkind).applyFields hid (hc.oldFields_eq obj) fields values

/-- `Remove` keeps consistency from any consistent state. -/
theorem Consistent.Remove (hc : Consistent c) (id : List UInt8) : Consistent (c.Remove id).1 := by
  cases h : c.items.get id with
  | none => rw [Remove_of_get_none c id h]; exact hc
  | some item =>
    rw [Remove_of_get_some c id h]
    have hlen := (c.items.perm_filter_erase id (·.object.IsGeometry)).length_eq
    have hnlen := (c.items.perm_filter_erase id fun x => !x.object.IsGeometry).length_eq
    have hidx := hc.index_perm_erase id
    have hval := hc.values_perm_erase id
    rw [h] at hlen hnlen hidx hval
    refine ⟨?_, ?_, ?_, ?_, ?_, ?_, ?_, ?_, ?_⟩
    · cases hg : item.object.IsGeometry
      · simpa [hg] using hidx
      · simpa [hg] using hc.indexRemove_perm h
    · cases hg : item.object.IsGeometry
      · simpa [hg] using hc.values_erase_perm h
      · simpa [hg] using hval
    · intro e he
      obtain ⟨hmem, hne⟩ := KeyedSet.mem_erase.mp he
      rw [c.items.get_erase_ne hne]
      exact hc.fields_live e hmem
    · exact fun x hx => hc.addr_lt x (mem_of_mem_erase hx)
    · exact hc.addr_nodup.sublist ((List.filter_sublist).map _)
    · cases hg : item.object.IsGeometry <;> simp [hg, hc.objects_eq, hlen]
    · cases hg : item.object.IsGeometry <;> simp [hg, hc.nobjects_eq, hnlen]
    · rw [hc.points_eq, c.items.total_erase _ id, h]
      simp
    · have hoid := (KeyedSet.get_eq_some_iff.mp h).2
      have htot := c.fieldValues.total_erase (fun e => ((e.2.length * 8 : Nat) : Int)) id
      rw [getFieldValues_weight] at htot
      rw [hc.weight_eq, c.items.total_erase _ id, h, htot]
      simp only [Option.elim_some, hoid]
      push_cast
      ring

theorem Consistent.SetField (hc : Consistent c) (id field : List UInt8) (value : α) :
    Consistent (c.SetField id field value).1 := by
  unfold Collection.SetField
  cases h : c.items.get id with
  | none => exact hc
  | some item =>
    have hoid := (KeyedSet.get_eq_some_iff.mp h).2
    exact hc.setField (by rw [hoid, h]; rfl) field value

/-- The fold of `SetFields` counts as it goes; its collection is that of setting the fields one
after the other. -/
theorem foldl_setFields_fst (key : List UInt8) (fvs : List (List UInt8 × α)) :
    ∀ (c : Collection α str) (n : Nat), (fvs.foldl (fun (cn : Collection α str × Nat) fv =>
      ((cn.1.setField key fv.1 fv.2).1,
        if (cn.1.setField key fv.1 fv.2).2 then cn.2 + 1 else cn.2)) (c, n)).1 =
      fvs.foldl (fun c fv => (c.setField key fv.1 fv.2).1) c := by
  induction fvs with
  | nil => intro c n; rfl
  | cons fv fvs ih => intro c n; exact ih _ _

theorem Consistent.SetFields (hc : Consistent c) (id : List UInt8)
    (in_fields : List (List UInt8)) (in_values : List α) :
    Consistent (c.SetFields id in_fields in_values).1 := by
  unfold Collection.SetFields
  cases h : c.items.get id with
  | none => exact hc
  | some item =>
    have hoid := (KeyedSet.get_eq_some_iff.mp h).2
    have hid : (c.items.get item.id).isSome := by rw [hoid, h]; rfl
    simp only
    rw [foldl_setFields_fst]
    exact (hc.foldl_setField hid _).1

end Operations

/-- On a consistent collection `Count()` is the number of items. -/
theorem Consistent.Count_eq {c : Collection α str} (hc : Consistent c) :
    c.Count = c.items.items.length := by
  rw [Count, hc.objects_eq, hc.nobjects_eq,
    @List.length_eq_length_filter_add _ c.items.items fun x => x.object.IsGeometry]
  push_cast
  rfl

end Collection
