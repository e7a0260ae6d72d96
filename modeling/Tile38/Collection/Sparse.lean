import Tile38.Collection.Search
import Tile38.Geo.Predicates
import Tile38.Lib.Iterate

/-!
# Sparse searches (collection.go `Nearby`, `Within`, `Intersects`; bbox.go `Sparse`)

With `sparse > 0` a search cuts its query box into `2^sparse` columns and rows and searches the
cells one after another, meaning to report one object of each. In a cell the callback hands a
record that passes the query's test to the iterator and, when the iterator answers `true`
(go on), stops the cell's search. That answer is also `geoSearch`'s, so `keepon` becomes false
and the loop over the cells breaks. With an iterator that always goes on, a sparse search thus
reports the first record of all its cells' candidates, and no other (`sparse_reports_first`).
A query by object or circle that finds nothing in a cell searches the cell again with the
test against the cell itself, so the candidates include records the query does not report.

The functions of circles (`BBoxesFromCenter`, `Nearby`, `WithinCircle`, `IntersectsCircle`),
computed on the sphere, are taken as given (`Circle`). Only the X and Y of a box are read by
`geoSearch` and by the tests against a box, so the Z bounds only travel along; the test
`minZ == -Inf && maxZ == +Inf` of a query by object is false for the numbers of `α`.
-/

open Iter

namespace Geojson

universe u
variable {α : Type u}

section Sparse

variable [Field α] [LinearOrder α]

/-- The values `start, start + size, …` below `stop`: the loop
`for v := start; v < stop; v += size`, run at most `n` times. -/
def sparseSteps (start size stop : α) : Nat → List α
  | 0 => []
  | n + 1 => if start < stop then start :: sparseSteps (start + size) size stop n else []

/-- `BBox.Sparse(amount)`: the box cut into `2^amount` columns and as many rows, row by row.
A box whose `Max` is below its `Min` on an axis gives no cell. -/
def BBox.Sparse (b : BBox α) (amount : UInt8) : List (BBox α) :=
  if amount = 0 then [b]
  else
    let split : Nat := 1 <<< amount.toNat
    let xsize : α :=
      -- crosses the prime meridian
      if b.Max.X < b.Min.X then (b.Min.X - b.Max.X) / split else (b.Max.X - b.Min.X) / split
    let ysize : α :=
      -- crosses the equator
      if b.Max.Y < b.Min.Y then (b.Min.Y - b.Max.Y) / split else (b.Max.Y - b.Min.Y) / split
    (sparseSteps b.Min.Y ysize b.Max.Y split).flatMap fun y =>
      (sparseSteps b.Min.X xsize b.Max.X split).map fun x =>
        ⟨⟨x, y, b.Min.Z⟩, ⟨x + xsize, y + ysize, b.Max.Z⟩⟩

/-- The box with the Z bounds `minZ`, `maxZ`. -/
def BBox.withZ (b : BBox α) (minZ maxZ : α) : BBox α :=
  ⟨⟨b.Min.X, b.Min.Y, minZ⟩, ⟨b.Max.X, b.Max.Y, maxZ⟩⟩

end Sparse

end Geojson

namespace Collection

open Geojson

universe u
variable {α : Type u} {str : Object α → List UInt8}

/-- The functions of a query around a point, computed on the sphere in floats, which the model
takes as given. -/
structure Circle (α : Type u) where
  BBoxesFromCenter : α → α → α → BBox α
  Nearby : Object α → Position α → α → Bool
  WithinCircle : Object α → Position α → α → Bool
  IntersectsCircle : Object α → Position α → α → Bool

section GeoSearch

variable [LinearOrder α]

/-- `geoSearch(bbox, f)` with a callback that may stop the search: the index hands over the
records of `Store.geoSearch` in turn. -/
def Store.geoSearchWith (s : Store α str) (bbox : BBox α)
    (f : List UInt8 × Object α × List α → List (List UInt8 × Object α × List α) × Bool) :
    List (List UInt8 × Object α × List α) × Bool :=
  forEach f (s.geoSearch bbox)

theorem Store.firstOnly_geoSearchWith_stop (s : Store α str) (bbox : BBox α)
    (p : List UInt8 × Object α × List α → Bool) :
    FirstOnly (s.geoSearchWith bbox (select p fun _ => false)) :=
  FirstOnly.forEach fun r _ => firstOnly_select_stop p r

theorem Store.geoSearchWith_stop (s : Store α str) (bbox : BBox α)
    (p : List UInt8 × Object α × List α → Bool) :
    (s.geoSearchWith bbox (select p fun _ => false)).1 = ((s.geoSearch bbox).filter p).take 1 :=
  forEach_select_stop p _

/-- The search of one cell of a sparse `Within` or `Intersects`: with the exact test, if there
is one, and then, unless that stopped it, with the test against the cell (`inBBox`). A record
the iterator goes on after stops the cell. -/
def Store.sparseCell (s : Store α str) (exact : Option (Object α → Bool))
    (inBBox : Object α → BBox α → Bool) (iterator : List UInt8 × Object α × List α → Bool)
    (cell : BBox α) : List (List UInt8 × Object α × List α) × Bool :=
  seq
    (match exact with
      | some test => s.geoSearchWith cell (select (fun r => test r.2.1) fun r => !iterator r)
      -- `keepon` is still true from the cell before
      | none => ([], true))
    (s.geoSearchWith cell (select (fun r => inBBox r.2.1 cell) fun r => !iterator r))

/-- `Within` and `Intersects` once the query box and its cells are known. -/
def Store.areaSearch (s : Store α str) (sparse : UInt8) (bbox : BBox α) (cells : List (BBox α))
    (exact : Option (Object α → Bool)) (inBBox : Object α → BBox α → Bool)
    (iterator : List UInt8 × Object α × List α → Bool) :
    List (List UInt8 × Object α × List α) × Bool :=
  if 0 < sparse then forEach (s.sparseCell exact inBBox iterator) cells
  else
    match exact with
    | some test => s.geoSearchWith bbox (select (fun r => test r.2.1) iterator)
    | none => s.geoSearchWith bbox (select (fun r => inBBox r.2.1 bbox) iterator)

/-! ### What the searches report when the iterator always goes on -/

/-- The records a sparse `Within` or `Intersects` would hand over if no record stopped a cell:
in each cell those that pass the exact test, then those that pass the test against the cell. -/
def Store.sparseCandidates (s : Store α str) (cells : List (BBox α))
    (exact : Option (Object α → Bool)) (inBBox : Object α → BBox α → Bool) :
    List (List UInt8 × Object α × List α) :=
  cells.flatMap fun cell =>
    (match exact with
      | some test => (s.geoSearch cell).filter fun r => test r.2.1
      | none => []) ++ (s.geoSearch cell).filter fun r => inBBox r.2.1 cell

/-- With an iterator that always goes on, a cell's search stops at its first record, and the
exact pass comes before the pass on the cell. -/
theorem Store.sparseCell_firstOnly (s : Store α str) (exact : Option (Object α → Bool))
    (inBBox : Object α → BBox α → Bool) (cell : BBox α) :
    FirstOnly (s.sparseCell exact inBBox (fun _ => true) cell) ∧
      (s.sparseCell exact inBBox (fun _ => true) cell).1 =
        (s.sparseCandidates [cell] exact inBBox).take 1 := by
  have hcell := s.firstOnly_geoSearchWith_stop cell fun r => inBBox r.2.1 cell
  cases exact with
  | none =>
    have hnone : FirstOnly (([], true) : List (List UInt8 × Object α × List α) × Bool) :=
      ⟨by simp, rfl⟩
    simp only [Store.sparseCell, Bool.not_true, Store.sparseCandidates, List.flatMap_singleton,
      List.nil_append]
    refine ⟨hnone.seq hcell, ?_⟩
    rw [seq_fst_of_firstOnly hnone hcell, List.nil_append, s.geoSearchWith_stop, List.take_take,
      Nat.min_self]
  | some test =>
    have hexact := s.firstOnly_geoSearchWith_stop cell fun r => test r.2.1
    simp only [Store.sparseCell, Bool.not_true, Store.sparseCandidates, List.flatMap_singleton]
    refine ⟨hexact.seq hcell, ?_⟩
    rw [seq_fst_of_firstOnly hexact hcell, s.geoSearchWith_stop, s.geoSearchWith_stop,
      take_one_append_take_one]

/-- A sparse search hands over the first of its candidates only: the search of the cell that
finds one is stopped by it, and so is the loop over the cells. -/
theorem Store.areaSearch_sparse (s : Store α str) {sparse : UInt8} (hs : 0 < sparse)
    (bbox : BBox α) (cells : List (BBox α)) (exact : Option (Object α → Bool))
    (inBBox : Object α → BBox α → Bool) :
    (s.areaSearch sparse bbox cells exact inBBox fun _ => true).1 =
      (s.sparseCandidates cells exact inBBox).take 1 := by
  simp only [Store.areaSearch, if_pos hs]
  have hcand : s.sparseCandidates cells exact inBBox =
      cells.flatMap fun cell => s.sparseCandidates [cell] exact inBBox := by
    simp only [Store.sparseCandidates, List.flatMap_singleton]
  rw [forEach_fst_of_firstOnly fun cell _ => (s.sparseCell_firstOnly exact inBBox cell).1,
    List.flatMap_congr fun cell _ => (s.sparseCell_firstOnly exact inBBox cell).2,
    take_one_flatMap_take_one, hcand]

end GeoSearch

section Search

variable [Field α] [LinearOrder α]

/-- `Nearby(sparse, lat, lon, meters, minZ, maxZ, iterator)`: the records handed to the
iterator and the answer. In a cell of a sparse search, a record the iterator goes on after
stops the cell. -/
def Store.Nearby (g : Circle α) (s : Store α str) (sparse : UInt8) (lat lon meters minZ maxZ : α)
    (iterator : List UInt8 × Object α × List α → Bool) :
    List (List UInt8 × Object α × List α) × Bool :=
  let center : Position α := ⟨lon, lat, 0⟩
  let bbox := g.BBoxesFromCenter lat lon meters
  let bboxes := bbox.Sparse sparse
  if 0 < sparse then
    forEach (fun bbox => s.geoSearchWith (bbox.withZ minZ maxZ)
      (select (fun r => g.Nearby r.2.1 center meters) fun r => !iterator r)) bboxes
  else
    s.geoSearchWith (bbox.withZ minZ maxZ)
      (select (fun r => g.Nearby r.2.1 center meters) iterator)

/-- The query box of `Within` and `Intersects`: the object's box, the box around the circle, or
the given box. -/
def queryBBox (g : Circle α) (obj : Option (Object α))
    (minLat minLon maxLat maxLon lat lon meters minZ maxZ : α) : BBox α :=
  match obj with
  | some obj => obj.CalculatedBBox
  | none =>
    if meters ≠ -1 then g.BBoxesFromCenter lat lon meters
    else ⟨⟨minLon, minLat, minZ⟩, ⟨maxLon, maxLat, maxZ⟩⟩

/-- The test of the query object (`o.Within(obj)`, `o.Intersects(obj)`) or of the circle, if the
query has one. -/
def exactTest (objTest : Object α → Object α → Bool)
    (circleTest : Object α → Position α → α → Bool) (obj : Option (Object α))
    (center : Position α) (meters : α) : Option (Object α → Bool) :=
  match obj with
  | some obj => some fun o => objTest o obj
  | none => if meters ≠ -1 then some fun o => circleTest o center meters else none

/-- `Within(sparse, obj, minLat, minLon, maxLat, maxLon, lat, lon, meters, minZ, maxZ,
iterator)`. -/
def Store.Within (g : Circle α) (s : Store α str) (sparse : UInt8) (obj : Option (Object α))
    (minLat minLon maxLat maxLon lat lon meters minZ maxZ : α)
    (iterator : List UInt8 × Object α × List α → Bool) :
    List (List UInt8 × Object α × List α) × Bool :=
  let center : Position α := ⟨lon, lat, 0⟩
  let bbox := queryBBox g obj minLat minLon maxLat maxLon lat lon meters minZ maxZ
  s.areaSearch sparse bbox (bbox.Sparse sparse)
    (exactTest Object.Within g.WithinCircle obj center meters) Object.WithinBBox iterator

/-- The cells of `Intersects`, cut in its own loop: as `Sparse`, with
`xpart = (Max.X - Min.X) / split` whatever the order of the bounds, and the Z bounds of the
query. -/
def intersectsCells (bbox : BBox α) (sparse : UInt8) (minZ maxZ : α) : List (BBox α) :=
  let split : Nat := 1 <<< sparse.toNat
  let xpart : α := (bbox.Max.X - bbox.Min.X) / split
  let ypart : α := (bbox.Max.Y - bbox.Min.Y) / split
  (sparseSteps bbox.Min.Y ypart bbox.Max.Y split).flatMap fun y =>
    (sparseSteps bbox.Min.X xpart bbox.Max.X split).map fun x =>
      ⟨⟨x, y, minZ⟩, ⟨x + xpart, y + ypart, maxZ⟩⟩

/-- `Intersects(sparse, obj, minLat, minLon, maxLat, maxLon, lat, lon, meters, minZ, maxZ,
iterator)`. -/
def Store.Intersects (g : Circle α) (s : Store α str) (sparse : UInt8) (obj : Option (Object α))
    (minLat minLon maxLat maxLon lat lon meters minZ maxZ : α)
    (iterator : List UInt8 × Object α × List α → Bool) :
    List (List UInt8 × Object α × List α) × Bool :=
  let center : Position α := ⟨lon, lat, 0⟩
  let bbox := queryBBox g obj minLat minLon maxLat maxLon lat lon meters minZ maxZ
  s.areaSearch sparse bbox (intersectsCells bbox sparse minZ maxZ)
    (exactTest Object.Intersects g.IntersectsCircle obj center meters) Object.IntersectsBBox
    iterator

/-- A sparse `Nearby` hands over the first record of all its cells that is near the point. -/
theorem Store.Nearby_sparse (g : Circle α) (s : Store α str) {sparse : UInt8} (hs : 0 < sparse)
    (lat lon meters minZ maxZ : α) :
    (s.Nearby g sparse lat lon meters minZ maxZ fun _ => true).1 =
      (((g.BBoxesFromCenter lat lon meters).Sparse sparse).flatMap fun cell =>
        (s.geoSearch (cell.withZ minZ maxZ)).filter fun r => g.Nearby r.2.1 ⟨lon, lat, 0⟩ meters).take 1 := by
  simp only [Store.Nearby, if_pos hs, Bool.not_true]
  rw [forEach_fst_of_firstOnly fun cell _ => s.firstOnly_geoSearchWith_stop _ _,
    List.flatMap_congr fun cell _ => s.geoSearchWith_stop _ _, take_one_flatMap_take_one]

/-- With an iterator that always goes on, a sparse `Within`, `Intersects` or `Nearby` hands over
the first of its candidates only, however many cells hold one. -/
theorem sparse_reports_first (g : Circle α) (s : Store α str) {sparse : UInt8} (hs : 0 < sparse)
    (obj : Option (Object α)) (minLat minLon maxLat maxLon lat lon meters minZ maxZ : α) :
    let center : Position α := ⟨lon, lat, 0⟩
    let bbox := queryBBox g obj minLat minLon maxLat maxLon lat lon meters minZ maxZ
    (s.Within g sparse obj minLat minLon maxLat maxLon lat lon meters minZ maxZ fun _ => true).1 =
        (s.sparseCandidates (bbox.Sparse sparse)
          (exactTest Object.Within g.WithinCircle obj center meters) Object.WithinBBox).take 1 ∧
      (s.Intersects g sparse obj minLat minLon maxLat maxLon lat lon meters minZ maxZ
          fun _ => true).1 =
        (s.sparseCandidates (intersectsCells bbox sparse minZ maxZ)
          (exactTest Object.Intersects g.IntersectsCircle obj center meters)
          Object.IntersectsBBox).take 1 ∧
      (s.Nearby g sparse lat lon meters minZ maxZ fun _ => true).1 =
        (((g.BBoxesFromCenter lat lon meters).Sparse sparse).flatMap fun cell =>
          (s.geoSearch (cell.withZ minZ maxZ)).filter fun r =>
            g.Nearby r.2.1 center meters).take 1 :=
  ⟨s.areaSearch_sparse hs _ _ _ _, s.areaSearch_sparse hs _ _ _ _, s.Nearby_sparse g hs _ _ _ _ _⟩

/-- The points `"a"` at `(1, 1)` and `"b"` at `(3, 1)` lie in different cells of the box
`[0, 4]²` cut by `SPARSE 1`; the plain search reports both, the sparse one only `"a"`. -/
theorem sparse_reports_first_two_points :
    let s : Store ℚ fun _ => [] :=
      (Store.New.ReplaceOrInsert [97] (.simplePoint 1 1) none []).ReplaceOrInsert [98]
        (.simplePoint 3 1) none []
    let g : Circle ℚ := ⟨fun _ _ _ => ⟨⟨0, 0, 0⟩, ⟨0, 0, 0⟩⟩, fun _ _ _ => false,
      fun _ _ _ => false, fun _ _ _ => false⟩
    (0 : UInt8) < 1 ∧
      (s.Within g 0 none 0 0 4 4 0 0 (-1) 0 0 fun _ => true).1.map (·.1) = [[97], [98]] ∧
      (s.Within g 1 none 0 0 4 4 0 0 (-1) 0 0 fun _ => true).1.map (·.1) = [[97]] := by
  intro s g
  refine ⟨by decide, by with_unfolding_all decide, ?_⟩
  rw [(sparse_reports_first g s (by decide) none 0 0 4 4 0 0 (-1) 0 0).1]
  with_unfolding_all decide

end Search

end Collection
