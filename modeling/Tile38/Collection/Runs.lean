import Tile38.Collection.Invariant

/-!
# Runs of collection calls

The calls of a collection form a machine over `Op`. What it stores by id refines a finite map
from ids to objects, whatever the calls (`Get_run`): the object of an id is the one of the
last `ReplaceOrInsert` of that id, unless a `Remove` came after. The representation invariant
holds after every run from `New` whose replacements keep the kind of the object they replace
(`consistent_run`), and fails after the run that replaces a `String` by a geometry
(`replaceOrInsert_kind_change`).
-/

open Geojson

namespace Collection

universe u
variable {α : Type u} {str : Object α → List UInt8}

/-- A call on a collection. -/
inductive Op (α : Type u) where
  | replaceOrInsert (id : List UInt8) (obj : Object α) (fields : Option (List (List UInt8)))
      (values : List α)
  | remove (id : List UInt8)
  | setField (id field : List UInt8) (value : α)
  | setFields (id : List UInt8) (fields : List (List UInt8)) (values : List α)

variable [Zero α] [LinearOrder α]

/-- The collection after a call. -/
def Op.exec : Op α → Collection α str → Collection α str
  | .replaceOrInsert id obj fields values, c => (c.ReplaceOrInsert id obj fields values).1
  | .remove id, c => (c.Remove id).1
  | .setField id field value, c => (c.SetField id field value).1
  | .setFields id fields values, c => (c.SetFields id fields values).1

/-- The call does not change the kind (geometry or not) of the object stored under its id. -/
def Op.KeepsKind : Op α → Collection α str → Prop
  | .replaceOrInsert id obj _ _, c =>
    ∀ o, c.items.get id = some o → o.object.IsGeometry = obj.IsGeometry
  | _, _ => True

/-! ### The stored objects refine a finite map -/

section Items

variable {c : Collection α str} {id : List UInt8}

theorem foldl_setField_items (key : List UInt8) (fvs : List (List UInt8 × α)) :
    ∀ c : Collection α str, (fvs.foldl (fun c fv => (c.setField key fv.1 fv.2).1) c).items = c.items := by
  induction fvs with
  | nil => intro c; rfl
  | cons fv fvs ih =>
    intro c
    rw [List.foldl_cons, ih, (c.setField_spec key fv.1 fv.2).items]

theorem applyFields_items (c : Collection α str) (id : List UInt8) (newFields : List α)
    (fields : Option (List (List UInt8))) (values : List α) :
    (c.applyFields id newFields fields values).1.items = c.items := by
  cases fields with
  | none =>
    unfold Collection.applyFields
    split_ifs <;> rfl
  | some fields => exact foldl_setField_items id _ c

theorem ReplaceOrInsert_items (c : Collection α str) (id : List UInt8) (obj : Object α)
    (fields : Option (List (List UInt8))) (values : List α) :
    (c.ReplaceOrInsert id obj fields values).1.items = (c.items.replaceOrInsert ⟨c.alloc, id, obj⟩).1 := by
  rw [ReplaceOrInsert_fst, applyFields_items, replaceItem_items]

theorem Remove_items (c : Collection α str) (id : List UInt8) :
    (c.Remove id).1.items = c.items.erase id := by
  cases h : c.items.get id with
  | none =>
    rw [Remove_of_get_none c id h]
    exact (KeyedSet.mk.injEq _ _ _ _).mpr (items_erase_of_get_none h).symm
  | some item => rw [Remove_of_get_some c id h]

theorem SetField_items (c : Collection α str) (id field : List UInt8) (value : α) :
    (c.SetField id field value).1.items = c.items := by
  unfold Collection.SetField
  cases c.items.get id with
  | none => rfl
  | some item => exact (c.setField_spec item.id field value).items

theorem SetFields_items (c : Collection α str) (id : List UInt8) (in_fields : List (List UInt8))
    (in_values : List α) : (c.SetFields id in_fields in_values).1.items = c.items := by
  unfold Collection.SetFields
  cases c.items.get id with
  | none => rfl
  | some item =>
    simp only
    rw [foldl_setFields_fst, foldl_setField_items]

end Items

/-! ### The representation invariant over runs -/

theorem Consistent.exec {c : Collection α str} (hc : Consistent c) (o : Op α)
    (hk : o.KeepsKind c) : Consistent (o.exec c) := by
  cases o with
  | replaceOrInsert id obj fields values => exact hc.ReplaceOrInsert hk fields values
  | remove id => exact hc.Remove id
  | setField id field value => exact hc.SetField id field value
  | setFields id fields values => exact hc.SetFields id fields values

/-- From `New`, every run whose replacements keep the kind of what they replace leaves the
index, the values B-tree and the counters in agreement with the items. -/
theorem consistent_run (ops : List (Op α))
    (hok : Simulation.Allowed Op.KeepsKind Op.exec ops (New : Collection α str)) :
    Consistent (Simulation.arun Op.exec ops (New : Collection α str)) :=
  Simulation.arun_invariant _ _ _ (fun o _ hc hk => hc.exec o hk) ops New consistent_New hok

/-- The id `"a"` set to a point, given the field `"s"`, moved to another point and removed. -/
theorem consistent_run_moves :
    Simulation.Allowed Op.KeepsKind Op.exec
        [.replaceOrInsert [97] (.simplePoint 0 0) none [], .setField [97] [115] 1,
          .replaceOrInsert [97] (.simplePoint 1 1) none [], .remove [97]]
        (New : Collection ℚ fun _ => []) ∧
      Consistent (Simulation.arun Op.exec
        [.replaceOrInsert [97] (.simplePoint 0 0) none [], .setField [97] [115] 1,
          .replaceOrInsert [97] (.simplePoint 1 1) none [], .remove [97]]
        (New : Collection ℚ fun _ => [])) := by
  have hok : Simulation.Allowed Op.KeepsKind Op.exec
      [.replaceOrInsert [97] (.simplePoint 0 0) none [], .setField [97] [115] 1,
        .replaceOrInsert [97] (.simplePoint 1 1) none [], .remove [97]]
      (New : Collection ℚ fun _ => []) := by
    refine ⟨fun _ h => ?_, trivial, fun o h => ?_, trivial, trivial⟩
    · rw [show (New : Collection ℚ fun _ => []).items.get [97] = none from rfl] at h
      cases h
    have hget : (Op.exec (.setField [97] [115] 1) (Op.exec (.replaceOrInsert [97] (.simplePoint 0 0)
        none []) (New : Collection ℚ fun _ => []))).items.get [97] =
          some ⟨0, [97], .simplePoint 0 0⟩ := by
      with_unfolding_all rfl
    rw [hget] at h
    cases h
    rfl
  exact ⟨hok, consistent_run _ hok⟩

/-- The id `"a"` holding the `String` `"x"` and then the point `(0, 0)`: the collection answers
with the point, the values B-tree still holds the string, the counters say no geometry and one
string, and the invariant is broken. -/
theorem replaceOrInsert_kind_change (str : Object ℚ → List UInt8) :
    let c := Simulation.arun Op.exec
      [.replaceOrInsert [97] (.string [120]) none [], .replaceOrInsert [97] (.simplePoint 0 0) none []]
      (New : Collection ℚ str)
    (c.Get [97]).map Prod.fst = some (.simplePoint 0 0) ∧
      c.values.items.map (·.object) = [.string [120]] ∧ c.objects = 0 ∧ c.nobjects = 1 ∧
      ¬ Consistent c := by
  intro c
  have hobjects : c.objects = 0 := rfl
  have hgeom : (c.items.items.filter (·.object.IsGeometry)).length = 1 := rfl
  refine ⟨rfl, rfl, hobjects, rfl, fun hc => ?_⟩
  have := hc.objects_eq
  rw [hobjects, hgeom] at this
  exact absurd this (by decide)

end Collection
