import Tile38.Lib.KeyedSet
import Tile38.RTree.Refinement
import Tile38.Geo.Object
import Mathlib.Data.Fin.VecNotation
import Mathlib.Tactic.Ring

/-!
# Collections (`pkg/collection/collection.go`)

A collection keeps every object in four places at once: the `items` B-tree ordered by id, the
spatial `index` for geometries, the `values` B-tree ordered by the object's text for the
`String` objects, and the `fieldValues` map from id to field values; it also keeps four
counters. Each B-tree and map is a `KeyedSet` under the key its `Less` compares: the id for
`items`, the pair `(String(), id)` for `values`, the name for `fieldMap`, the id for
`fieldValues`. The index is the abstract R-tree machine of `Rtree.Op.apply`, whose entries the
concrete tree stores exactly (`Rtree.rtree_refines_multiset`).

The index compares item pointers, so an item carries the address it was allocated at, and the
collection the address the next item gets. `String()`, the JSON text of an object, is a
parameter `str`.
-/

open Geojson

universe u

namespace Collection

variable {α : Type u}

/-- `itemT`, with the address `&itemT{...}` was allocated at. -/
structure itemT (α : Type u) where
  addr : Nat
  id : List UInt8
  object : Object α

/-- The key of the `values` B-tree: `valueOrdered` compares `String()`, then the id. -/
def valueKey (str : Object α → List UInt8) (x : itemT α) : List UInt8 × List UInt8 :=
  (str x.object, x.id)

end Collection

open Collection in
/-- `Collection`. -/
structure Collection (α : Type u) (str : Object α → List UInt8) where
  items : KeyedSet (itemT.id (α := α))
  values : KeyedSet (valueKey str)
  index : List (Rtree.TreeItem α Nat)
  fieldMap : KeyedSet (Prod.fst : List UInt8 × Nat → List UInt8)
  fieldValues : KeyedSet (Prod.fst : List UInt8 × List α → List UInt8)
  weight : Int
  points : Int
  objects : Int
  nobjects : Int
  alloc : Nat

namespace Collection

variable {α : Type u} {str : Object α → List UInt8}

def New : Collection α str :=
  ⟨.empty, .empty, [], .empty, .empty, 0, 0, 0, 0, 0⟩

/-- `getFieldValues(id)`: `nil` for an id without values. -/
def getFieldValues (c : Collection α str) (id : List UInt8) : List α :=
  ((c.fieldValues.get id).map Prod.snd).getD []

/-- `Count()`: the number of objects, by the counters. -/
def Count (c : Collection α str) : Int := c.objects + c.nobjects

def setFieldValues (c : Collection α str) (id : List UInt8) (values : List α) : Collection α str :=
  { c with fieldValues := (c.fieldValues.replaceOrInsert (id, values)).1 }

def deleteFieldValues (c : Collection α str) (id : List UInt8) : Collection α str :=
  { c with fieldValues := c.fieldValues.erase id }

/-! ### The spatial index -/

section Index

variable [Zero α] [LinearOrder α]

/-- `itemT.Rect()`: the corners of the calculated box. -/
def itemT.Rect (x : itemT α) : (Fin 2 → α) × (Fin 2 → α) :=
  (![x.object.CalculatedBBox.Min.X, x.object.CalculatedBBox.Min.Y],
    ![x.object.CalculatedBBox.Max.X, x.object.CalculatedBBox.Max.Y])

/-- The entry of an item in the R-tree. -/
def itemT.entry (x : itemT α) : Rtree.TreeItem α Nat := ⟨x.Rect.1, x.Rect.2, x.addr⟩

/-- `index.Insert(item)`. -/
def indexInsert (index : List (Rtree.TreeItem α Nat)) (x : itemT α) :
    List (Rtree.TreeItem α Nat) :=
  (Rtree.Op.insert x.Rect.1 x.Rect.2 x.addr).apply index

/-- `index.Remove(item)`: the R-tree drops the entry of that pointer. -/
def indexRemove (index : List (Rtree.TreeItem α Nat)) (x : itemT α) :
    List (Rtree.TreeItem α Nat) :=
  (Rtree.Op.remove x.Rect.1 x.Rect.2 x.addr).apply index

@[simp] theorem indexInsert_eq (index : List (Rtree.TreeItem α Nat)) (x : itemT α) :
    indexInsert index x = index ++ [x.entry] := rfl

@[simp] theorem indexRemove_eq (index : List (Rtree.TreeItem α Nat)) (x : itemT α) :
    indexRemove index x = index.filter (·.item ≠ x.addr) := rfl

end Index

/-! ### Operations -/

section Ops

variable [Zero α] [LinearOrder α]

/-- The loop `for idx >= len(fields) { fields = append(fields, 0) }`. -/
def padFields (idx : Nat) (fields : List α) : List α :=
  fields ++ List.replicate (idx + 1 - fields.length) 0

/-- `setField(item, field, value)`: the field's index, a new one past the others for a new
name; the item's values padded with zeros up to it; and whether the value changed. -/
def setField (c : Collection α str) (id field : List UInt8) (value : α) : Collection α str × Bool :=
  let (c, idx) : Collection α str × Nat :=
    match c.fieldMap.get field with
    | some e => (c, e.2)
    | none =>
      ({ c with fieldMap := (c.fieldMap.replaceOrInsert (field, c.fieldMap.items.length)).1 },
        c.fieldMap.items.length)
  let fields := c.getFieldValues id
  let c := { c with weight := c.weight - fields.length * 8 }
  let fields := padFields idx fields
  let c := { c with weight := c.weight + fields.length * 8 }
  let ovalue := fields.getD idx 0
  let fields := fields.set idx value
  (c.setFieldValues id fields, ovalue != value)

/-- The replace path of `ReplaceOrInsert` once the items B-tree handed back `oldItem`: the old
item leaves the index or the values B-tree, chosen by the type of the NEW object `obj`, and
its counts leave the counters. -/
def removeOld (c : Collection α str) (id : List UInt8) (obj : Object α) (oldItem : itemT α) :
    Collection α str :=
  let c := if obj.IsGeometry then { c with index := indexRemove c.index oldItem, objects := c.objects - 1 }
    else { c with values := (c.values.delete (valueKey str oldItem)).1, nobjects := c.nobjects - 1 }
  let c := { c with points := c.points - oldItem.object.PositionCount }
  let c := { c with weight := c.weight - (c.getFieldValues id).length * 8 }
  { c with weight := c.weight - (oldItem.object.Weight + oldItem.id.length) }

/-- The insert path of `ReplaceOrInsert`: the new item enters the index or the values B-tree,
and its counts the counters. -/
def insertNew (c : Collection α str) (newItem : itemT α) (newFields : List α) : Collection α str :=
  let c := if newItem.object.IsGeometry then
      { c with index := indexInsert c.index newItem, objects := c.objects + 1 }
    else { c with values := (c.values.replaceOrInsert newItem).1, nobjects := c.nobjects + 1 }
  let c := { c with points := c.points + newItem.object.PositionCount }
  let c := { c with weight := c.weight + newFields.length * 8 }
  { c with weight := c.weight + (newItem.object.Weight + newItem.id.length) }

/-- The field arguments of `ReplaceOrInsert`: with `fields == nil`, non-empty `values` replace
the item's values; otherwise each field is set. The callers pass as many values as fields. -/
def applyFields (c : Collection α str) (id : List UInt8) (newFields : List α)
    (fields : Option (List (List UInt8))) (values : List α) : Collection α str × List α :=
  match fields with
  | none =>
    if 0 < values.length then
      let c := { c with weight := c.weight - newFields.length * 8 }
      let c := c.setFieldValues id values
      ({ c with weight := c.weight + values.length * 8 }, values)
    else (c, newFields)
  | some fields =>
    let c := (fields.zip values).foldl (fun c fv => (c.setField id fv.1 fv.2).1) c
    (c, c.getFieldValues id)

/-- `ReplaceOrInsert` up to the field arguments: the item replaced or inserted in the items
B-tree, the old item's traces removed, the new item's added; with the old object and the old
fields. -/
def replaceItem (c : Collection α str) (id : List UInt8) (obj : Object α) :
    Collection α str × Option (Object α) × List α :=
  let newItem : itemT α := ⟨c.alloc, id, obj⟩
  let (items, oldItemPtr) := c.items.replaceOrInsert newItem
  let c := { c with items, alloc := c.alloc + 1 }
  let (c, oldObject, oldFields) : Collection α str × Option (Object α) × List α :=
    match oldItemPtr with
    | none => (c, none, [])
    | some oldItem => (c.removeOld id obj oldItem, some oldItem.object, c.getFieldValues id)
  (c.insertNew newItem oldFields, oldObject, oldFields)

/-- `ReplaceOrInsert(id, obj, fields, values)`: the new collection, the old object, the old
fields and the new fields. -/
def ReplaceOrInsert (c : Collection α str) (id : List UInt8) (obj : Object α)
    (fields : Option (List (List UInt8))) (values : List α) :
    Collection α str × Option (Object α) × List α × List α :=
  let (c, oldObject, oldFields) := c.replaceItem id obj
  let (c, newFields) := c.applyFields id oldFields fields values
  (c, oldObject, oldFields, newFields)

/-- `Remove(id)`: the new collection, and the object and fields removed. -/
def Remove (c : Collection α str) (id : List UInt8) :
    Collection α str × Option (Object α × List α) :=
  let (items, i) := c.items.delete id
  match i with
  | none => (c, none)
  | some item =>
    let c := { c with items }
    let c := if item.object.IsGeometry then
        { c with index := indexRemove c.index item, objects := c.objects - 1 }
      else { c with values := (c.values.delete (valueKey str item)).1, nobjects := c.nobjects - 1 }
    let fields := c.getFieldValues id
    let c := c.deleteFieldValues id
    let c := { c with weight := c.weight - fields.length * 8 }
    let c := { c with weight := c.weight - (item.object.Weight + item.id.length) }
    let c := { c with points := c.points - item.object.PositionCount }
    (c, some (item.object, fields))

def Get (c : Collection α str) (id : List UInt8) : Option (Object α × List α) :=
  (c.items.get id).map fun item => (item.object, c.getFieldValues id)

/-- `SetField(id, field, value)`: the object, its fields and whether the value changed. -/
def SetField (c : Collection α str) (id field : List UInt8) (value : α) :
    Collection α str × Option (Object α × List α × Bool) :=
  match c.items.get id with
  | none => (c, none)
  | some item =>
    let (c, updated) := c.setField item.id field value
    (c, some (item.object, c.getFieldValues id, updated))

/-- `SetFields(id, in_fields, in_values)`: the object, its fields and how many values
changed. -/
def SetFields (c : Collection α str) (id : List UInt8) (in_fields : List (List UInt8))
    (in_values : List α) : Collection α str × Option (Object α × List α × Nat) :=
  match c.items.get id with
  | none => (c, none)
  | some item =>
    let (c, updatedCount) := (in_fields.zip in_values).foldl
      (fun (cn : Collection α str × Nat) fv =>
        let (c, updated) := cn.1.setField item.id fv.1 fv.2
        (c, if updated then cn.2 + 1 else cn.2)) (c, 0)
    (c, some (item.object, c.getFieldValues id, updatedCount))


/-! ### What each operation does to each field -/

section Spec

variable (c : Collection α str) (id : List UInt8) (obj : Object α)

theorem replaceItem_items :
    (c.replaceItem id obj).1.items = (c.items.replaceOrInsert ⟨c.alloc, id, obj⟩).1 := by
  cases h : c.items.get id <;> simp [replaceItem, removeOld, insertNew, h] <;> split_ifs <;> rfl

theorem replaceItem_alloc : (c.replaceItem id obj).1.alloc = c.alloc + 1 := by
  cases h : c.items.get id <;> simp [replaceItem, removeOld, insertNew, h] <;> split_ifs <;> rfl

theorem replaceItem_fieldValues : (c.replaceItem id obj).1.fieldValues = c.fieldValues := by
  cases h : c.items.get id <;> simp [replaceItem, removeOld, insertNew, h] <;> split_ifs <;> rfl

theorem replaceItem_oldFields :
    (c.replaceItem id obj).2.2 = (c.items.get id).elim [] fun _ => c.getFieldValues id := by
  cases h : c.items.get id <;> simp [replaceItem, h, getFieldValues]

/-- The index loses the old item's entry and gains the new one's when the NEW object is a
geometry, and is left alone otherwise. -/
theorem replaceItem_index :
    (c.replaceItem id obj).1.index = if obj.IsGeometry then
      (c.items.get id).elim c.index (indexRemove c.index) ++ [(⟨c.alloc, id, obj⟩ : itemT α).entry]
    else c.index := by
  cases h : c.items.get id <;> simp [replaceItem, removeOld, insertNew, h] <;> split_ifs <;> simp

/-- The values B-tree loses the old item and gains the new one when the NEW object is not a
geometry, and is left alone otherwise. -/
theorem replaceItem_values :
    (c.replaceItem id obj).1.values = if obj.IsGeometry then c.values else
      (((c.items.get id).elim c.values fun o => c.values.erase (valueKey str o)).replaceOrInsert
        ⟨c.alloc, id, obj⟩).1 := by
  cases h : c.items.get id <;> simp [replaceItem, removeOld, insertNew, h] <;> split_ifs <;> simp

theorem replaceItem_objects :
    (c.replaceItem id obj).1.objects = if obj.IsGeometry then
      c.objects - (if (c.items.get id).isSome then 1 else 0) + 1 else c.objects := by
  cases h : c.items.get id <;> simp [replaceItem, removeOld, insertNew, h] <;> split_ifs <;> simp

theorem replaceItem_nobjects :
    (c.replaceItem id obj).1.nobjects = if obj.IsGeometry then c.nobjects else
      c.nobjects - (if (c.items.get id).isSome then 1 else 0) + 1 := by
  cases h : c.items.get id <;> simp [replaceItem, removeOld, insertNew, h] <;> split_ifs <;> simp

theorem replaceItem_points :
    (c.replaceItem id obj).1.points = c.points -
      (c.items.get id).elim 0 (fun o => (o.object.PositionCount : Int)) + obj.PositionCount := by
  cases h : c.items.get id <;> simp [replaceItem, removeOld, insertNew, h] <;> split_ifs <;> simp

/-- The old item's field values are taken off the weight and put back for the new item. -/
theorem replaceItem_weight :
    (c.replaceItem id obj).1.weight = c.weight -
      (c.items.get id).elim 0 (fun o => ((o.object.Weight + o.id.length : Nat) : Int)) +
        ((obj.Weight + id.length : Nat) : Int) := by
  cases h : c.items.get id <;> simp [replaceItem, removeOld, insertNew, getFieldValues, h] <;>
    split_ifs <;> simp <;> omega

theorem Remove_of_get_none (h : c.items.get id = none) : c.Remove id = (c, none) := by
  simp [Remove, h]

/-- `Remove` of a stored item, field by field: it leaves the container its OWN object's type
names. -/
theorem Remove_of_get_some {item : itemT α} (h : c.items.get id = some item) :
    c.Remove id = ({ c with
      items := c.items.erase id
      index := if item.object.IsGeometry then indexRemove c.index item else c.index
      values := if item.object.IsGeometry then c.values else c.values.erase (valueKey str item)
      objects := if item.object.IsGeometry then c.objects - 1 else c.objects
      nobjects := if item.object.IsGeometry then c.nobjects else c.nobjects - 1
      fieldValues := c.fieldValues.erase id
      weight := c.weight - (c.getFieldValues id).length * 8 -
        ((item.object.Weight + item.id.length : Nat) : Int)
      points := c.points - item.object.PositionCount }, some (item.object, c.getFieldValues id)) := by
  cases hg : item.object.IsGeometry <;>
    simp [Remove, h, hg, deleteFieldValues, getFieldValues]

/-- A step that changes at most the field map, the field values of `id` (to some `vs`) and
the weight they carry: what `setField` does. -/
structure FieldStep (c c' : Collection α str) (id : List UInt8) : Prop where
  items : c'.items = c.items
  values : c'.values = c.values
  index : c'.index = c.index
  points : c'.points = c.points
  objects : c'.objects = c.objects
  nobjects : c'.nobjects = c.nobjects
  alloc : c'.alloc = c.alloc
  fieldValues : ∃ vs : List α, c'.fieldValues = (c.fieldValues.replaceOrInsert (id, vs)).1 ∧
    c'.weight = c.weight - (c.getFieldValues id).length * 8 + vs.length * 8

theorem setField_spec (field : List UInt8) (value : α) :
    FieldStep c (c.setField id field value).1 id := by
  cases h : c.fieldMap.get field <;> simp only [setField, h] <;>
    exact ⟨rfl, rfl, rfl, rfl, rfl, rfl, rfl, _, rfl, by simp [setFieldValues, getFieldValues]⟩

end Spec

end Ops

end Collection
