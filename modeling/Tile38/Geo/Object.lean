import Tile38.Geo.Poly

/-!
# GeoJSON objects (pkg/geojson)

The nine GeoJSON types and `String` behind the `Object` interface, with the fields the spatial
predicates read: the coordinates, the bbox pointer and whether the bbox was given in the input
(`bboxDefined`). The `fill*` functions build an object from parsed coordinates as `ObjectJSON`
does: without a `bbox` member the pointer is set to the calculated box (only the exterior ring
of a polygon counts) and `bboxDefined` stays false, and a `Point` with `Z == 0` and no `bbox`
becomes a `SimplePoint`, whose bbox pointer is nil.

The bbox methods (`CalculatedBBox`, `WithinBBox`, `IntersectsBBox`) and the counts a
collection keeps (`PositionCount`, `Weight`) are defined here; `Within` and `Intersects` follow
in `Geo.Predicates`. JSON text is not parsed here: the fill functions start from the
coordinates `fillLevelNMap` reads.
-/

namespace Geojson

open Poly

universe u
variable {α : Type u}

/-- `geojson.Position`, the type `poly.Point` under another name. -/
abbrev Position (α : Type u) := Poly.Point α

/-- `geojson.BBox`. -/
structure BBox (α : Type u) where
  Min : Position α
  Max : Position α
  deriving DecidableEq, Repr

/-- `sizeofPosition`: three float64 coordinates. -/
def sizeofPosition : Nat := 24

/-- `geojson.Polygon`; its methods take it apart from `Object` because the pins of `Within`
and `Intersects` receive one. -/
structure Polygon (α : Type u) where
  Coordinates : List (List (Position α))
  BBox : Option (Geojson.BBox α)
  bboxDefined : Bool
  deriving DecidableEq, Repr

/-- The `Object` interface: one constructor per implementing type, named by the type
constants of `object.go`. -/
inductive Object (α : Type u) where
  | point (Coordinates : Position α) (BBox : Option (Geojson.BBox α)) (bboxDefined : Bool)
  | simplePoint (X Y : α)
  | multiPoint (Coordinates : List (Position α)) (BBox : Option (Geojson.BBox α))
      (bboxDefined : Bool)
  | lineString (Coordinates : List (Position α)) (BBox : Option (Geojson.BBox α))
      (bboxDefined : Bool)
  | multiLineString (Coordinates : List (List (Position α))) (BBox : Option (Geojson.BBox α))
      (bboxDefined : Bool)
  | polygon (v : Polygon α)
  | multiPolygon (Coordinates : List (List (List (Position α)))) (BBox : Option (Geojson.BBox α))
      (bboxDefined : Bool) (polygons : List (Polygon α))
  | geometryCollection (Geometries : List (Object α)) (BBox : Option (Geojson.BBox α))
      (bboxDefined : Bool)
  | feature (Geometry : Object α) (BBox : Option (Geojson.BBox α)) (bboxDefined : Bool)
      (idprops : List UInt8)
  | featureCollection (Features : List (Object α)) (BBox : Option (Geojson.BBox α))
      (bboxDefined : Bool)
  | string (s : List UInt8)

namespace Object

def bboxPtr : Object α → Option (Geojson.BBox α)
  | point _ b _ | multiPoint _ b _ | lineString _ b _ | multiLineString _ b _ => b
  | multiPolygon _ b _ _ | geometryCollection _ b _ | feature _ b _ _ | featureCollection _ b _ => b
  | polygon v => v.BBox
  | simplePoint _ _ | string _ => none

def IsBBoxDefined : Object α → Bool
  | point _ _ d | multiPoint _ _ d | lineString _ _ d | multiLineString _ _ d => d
  | multiPolygon _ _ d _ | geometryCollection _ _ d | feature _ _ d _ | featureCollection _ _ d => d
  | polygon v => v.bboxDefined
  | simplePoint _ _ | string _ => false

/-- `IsGeometry()`: every type but `String`. -/
def IsGeometry : Object α → Bool
  | string _ => false
  | _ => true

end Object

/-! ### Bounding boxes -/

section Order

variable [Zero α] [LinearOrder α]

/-- The zero value `BBox{}`. -/
def BBox.zero : Geojson.BBox α := ⟨⟨0, 0, 0⟩, ⟨0, 0, 0⟩⟩

/-- `rectBBox(bbox)`: the rectangle of a box, with zero `Z`. -/
def rectBBox (bbox : Geojson.BBox α) : Poly.Rect α :=
  ⟨⟨bbox.Min.X, bbox.Min.Y, 0⟩, ⟨bbox.Max.X, bbox.Max.Y, 0⟩⟩

/-- One step of `positionBBox` after the first position: each bound moves out to the
position. -/
def widen (bbox : Geojson.BBox α) (p : Position α) : Geojson.BBox α :=
  ⟨⟨if p.X < bbox.Min.X then p.X else bbox.Min.X, if p.Y < bbox.Min.Y then p.Y else bbox.Min.Y,
      bbox.Min.Z⟩,
    ⟨if p.X > bbox.Max.X then p.X else bbox.Max.X, if p.Y > bbox.Max.Y then p.Y else bbox.Max.Y,
      bbox.Max.Z⟩⟩

/-- `positionBBox(i, bbox, ps)`: the count of positions seen so far and their box; the first
position seen sets the box. -/
def positionBBox : Nat → Geojson.BBox α → List (Position α) → Nat × Geojson.BBox α
  | i, bbox, [] => (i, bbox)
  | i, bbox, p :: ps => positionBBox (i + 1) (if i = 0 then ⟨p, p⟩ else widen bbox p) ps

def BBox.union (b bbox : Geojson.BBox α) : Geojson.BBox α :=
  ⟨⟨if bbox.Min.X < b.Min.X then bbox.Min.X else b.Min.X,
      if bbox.Min.Y < b.Min.Y then bbox.Min.Y else b.Min.Y, b.Min.Z⟩,
    ⟨if bbox.Max.X > b.Max.X then bbox.Max.X else b.Max.X,
      if bbox.Max.Y > b.Max.Y then bbox.Max.Y else b.Max.Y, b.Max.Z⟩⟩

/-- The loop of `calculatedBBox` and of the collections' `CalculatedBBox`: the first box, then
the union with each later one. -/
def unionAll : List (Geojson.BBox α) → Geojson.BBox α
  | [] => BBox.zero
  | b :: bs => bs.foldl BBox.union b

def level1CalculatedBBox (coordinates : Position α) : Option (Geojson.BBox α) → Geojson.BBox α
  | some b => b
  | none => ⟨coordinates, coordinates⟩

def level2CalculatedBBox (coordinates : List (Position α)) :
    Option (Geojson.BBox α) → Geojson.BBox α
  | some b => b
  | none => (positionBBox 0 BBox.zero coordinates).2

/-- The ring loop of `level3CalculatedBBox`; a polygon stops after its exterior ring. -/
def level3Loop (isPolygon : Bool) : Nat → Geojson.BBox α → List (List (Position α)) →
    Geojson.BBox α
  | _, bbox, [] => bbox
  | i, bbox, ps :: rest =>
    if isPolygon then (positionBBox i bbox ps).2
    else level3Loop isPolygon (positionBBox i bbox ps).1 (positionBBox i bbox ps).2 rest

def level3CalculatedBBox (coordinates : List (List (Position α))) (bbox : Option (Geojson.BBox α))
    (isPolygon : Bool) : Geojson.BBox α :=
  match bbox with
  | some b => b
  | none => level3Loop isPolygon 0 BBox.zero coordinates

def Polygon.CalculatedBBox (g : Polygon α) : Geojson.BBox α :=
  level3CalculatedBBox g.Coordinates g.BBox true

/-- `calculatedBBox(polygons, bbox)` of a multipolygon. -/
def calculatedBBox (polygons : List (Polygon α)) : Option (Geojson.BBox α) → Geojson.BBox α
  | some b => b
  | none => unionAll (polygons.map Polygon.CalculatedBBox)

/-- `polyExteriorHoles(positions)`: the first ring and the others. -/
def polyExteriorHoles (positions : List (List (Position α))) : Poly.Polygon α × List (Poly.Polygon α) :=
  (positions.headD [], positions.tail)

end Order

namespace Object

variable [Zero α] [LinearOrder α]

mutual

def CalculatedBBox : Object α → Geojson.BBox α
  | point c b _ => level1CalculatedBBox c b
  | simplePoint x y => ⟨⟨x, y, 0⟩, ⟨x, y, 0⟩⟩
  | multiPoint cs b _ | lineString cs b _ => level2CalculatedBBox cs b
  | multiLineString css b _ => level3CalculatedBBox css b false
  | polygon v => v.CalculatedBBox
  | multiPolygon _ b _ polygons => calculatedBBox polygons b
  | geometryCollection gs b _ | featureCollection gs b _ =>
    match b with
    | some bb => bb
    | none => unionAll (CalculatedBBoxList gs)
  | feature geometry b _ _ =>
    match b with
    | some bb => bb
    | none => geometry.CalculatedBBox
  | string _ => BBox.zero

/-- The members' boxes, in order. -/
def CalculatedBBoxList : List (Object α) → List (Geojson.BBox α)
  | [] => []
  | g :: gs => g.CalculatedBBox :: CalculatedBBoxList gs

end

end Object

/-! ### Counts kept by a collection -/

namespace Object

/-- `level2PositionCount`, `level3PositionCount` and `level4PositionCount`: the positions,
and two more for a bbox pointer. -/
def withBBoxCount (b : Option (Geojson.BBox α)) (n : Nat) : Nat :=
  if b.isSome then 2 + n else n

mutual

def PositionCount : Object α → Nat
  | point _ b _ => if b.isSome then 3 else 1
  | simplePoint _ _ => 1
  | multiPoint cs b _ | lineString cs b _ => withBBoxCount b cs.length
  | multiLineString css b _ => withBBoxCount b (css.map List.length).sum
  | polygon v => withBBoxCount v.BBox (v.Coordinates.map List.length).sum
  | multiPolygon cs b _ _ => withBBoxCount b (cs.map fun p => (p.map List.length).sum).sum
  | geometryCollection gs b _ | featureCollection gs b _ => withBBoxCount b (PositionCountList gs)
  | feature geometry b _ _ => withBBoxCount b geometry.PositionCount
  | string _ => 0

/-- The members' positions, summed. -/
def PositionCountList : List (Object α) → Nat
  | [] => 0
  | g :: gs => g.PositionCount + PositionCountList gs

end

mutual

/-- `Weight()`: the in-memory size. -/
def Weight : Object α → Nat
  | simplePoint _ _ => 2 * 8
  | geometryCollection gs _ _ | featureCollection gs _ _ => WeightList gs
  | feature geometry b _ idprops =>
    withBBoxCount b geometry.PositionCount * sizeofPosition + idprops.length
  | string s => s.length
  | g => g.PositionCount * sizeofPosition

/-- The members' weights, summed. -/
def WeightList : List (Object α) → Nat
  | [] => 0
  | g :: gs => g.Weight + WeightList gs

end

end Object

/-! ### Building objects: the `fill*` functions -/

/-- The validation errors of the fill functions. -/
inductive GeoError where
  | errLineStringInvalidCoordinates
  | errMustBeALinearRing
  deriving DecidableEq, Repr

/-- The texts of the errors. -/
def GeoError.Error : GeoError → String
  | .errLineStringInvalidCoordinates => "Coordinates must be an array of two or more positions"
  | .errMustBeALinearRing =>
    "Polygon must have at least 4 positions and the first and last position must be the same"

section Fill

variable [Zero α] [LinearOrder α]

def isLinearRing (ps : List (Position α)) : Prop :=
  4 ≤ ps.length ∧ ps.head? = ps.getLast?

instance (ps : List (Position α)) : Decidable (isLinearRing ps) :=
  inferInstanceAs (Decidable (_ ∧ _))

/-- The bbox fields of a filled object: the given box, or the calculated one when the input
had no `bbox` member. -/
def fillBBoxFields (bbox : Option (Geojson.BBox α)) (calculated : Geojson.BBox α) :
    Option (Geojson.BBox α) × Bool :=
  (some (bbox.getD calculated), bbox.isSome)

/-- `fillPoint`. -/
def fillPoint (coordinates : Position α) (bbox : Option (Geojson.BBox α)) : Object α :=
  .point coordinates (fillBBoxFields bbox (level1CalculatedBBox coordinates none)).1 bbox.isSome

/-- `fillSimplePointOrPoint`: a point with zero `Z` and no bbox is a `SimplePoint`. -/
def fillSimplePointOrPoint (coordinates : Position α) (bbox : Option (Geojson.BBox α)) :
    Object α :=
  if coordinates.Z = 0 ∧ bbox = none then .simplePoint coordinates.X coordinates.Y
  else fillPoint coordinates bbox

/-- `fillMultiPoint`. -/
def fillMultiPoint (coordinates : List (Position α)) (bbox : Option (Geojson.BBox α)) :
    Object α :=
  .multiPoint coordinates (fillBBoxFields bbox (level2CalculatedBBox coordinates none)).1
    bbox.isSome

/-- `fillLineString`: at least two positions. -/
def fillLineString (coordinates : List (Position α)) (bbox : Option (Geojson.BBox α)) :
    Except GeoError (Object α) :=
  if coordinates.length < 2 then .error .errLineStringInvalidCoordinates
  else .ok (.lineString coordinates (fillBBoxFields bbox (level2CalculatedBBox coordinates none)).1
    bbox.isSome)

/-- A line read without a `bbox` member has at least two positions and its calculated box as
the bbox pointer. -/
theorem fillLineString_none {coordinates : List (Position α)} {g : Object α}
    (h : fillLineString coordinates none = .ok g) :
    g = .lineString coordinates (some (level2CalculatedBBox coordinates none)) false ∧
      2 ≤ coordinates.length := by
  unfold fillLineString at h
  split_ifs at h with hlt
  cases h
  exact ⟨rfl, by omega⟩

/-- `fillMultiLineString`: every line has at least two positions. -/
def fillMultiLineString (coordinates : List (List (Position α))) (bbox : Option (Geojson.BBox α)) :
    Except GeoError (Object α) :=
  if coordinates.any (fun ls => ls.length < 2) then .error .errLineStringInvalidCoordinates
  else .ok (.multiLineString coordinates
    (fillBBoxFields bbox (level3CalculatedBBox coordinates none false)).1 bbox.isSome)

/-- `fillPolygon`: at least one ring, and every ring a linear ring. -/
def fillPolygon (coordinates : List (List (Position α))) (bbox : Option (Geojson.BBox α)) :
    Except GeoError (Polygon α) :=
  if coordinates = [] then .error .errMustBeALinearRing
  else if coordinates.any (fun ps => !decide (isLinearRing ps)) then .error .errMustBeALinearRing
  else .ok ⟨coordinates, (fillBBoxFields bbox (level3CalculatedBBox coordinates none true)).1,
    bbox.isSome⟩

/-- A polygon read without a `bbox` member carries its rings, its calculated box as the bbox
pointer, and no defined bbox. -/
theorem fillPolygon_none {coordinates : List (List (Position α))} {q : Polygon α}
    (h : fillPolygon coordinates none = .ok q) :
    q.Coordinates = coordinates ∧ q.BBox = some (level3CalculatedBBox coordinates none true) ∧
      q.bboxDefined = false ∧ coordinates ≠ [] := by
  unfold fillPolygon at h
  split_ifs at h with hnil hring
  cases h
  exact ⟨rfl, rfl, rfl, hnil⟩

/-- `fillMultiPolygon`: each member filled as a polygon without bbox, the first error
stopping the loop. -/
def fillMultiPolygon (coordinates : List (List (List (Position α)))) (bbox : Option (Geojson.BBox α)) :
    Except GeoError (Object α) :=
  match coordinates.mapM (fun ps => fillPolygon ps none) with
  | .error e => .error e
  | .ok polygons =>
    .ok (.multiPolygon coordinates (fillBBoxFields bbox (calculatedBBox polygons none)).1
      bbox.isSome polygons)

/-- `fillGeometryCollectionMap` once the members are read. -/
def fillGeometryCollection (geometries : List (Object α)) (bbox : Option (Geojson.BBox α)) :
    Object α :=
  .geometryCollection geometries
    (fillBBoxFields bbox (unionAll (geometries.map Object.CalculatedBBox))).1 bbox.isSome

/-- `fillFeatureMap` once the geometry is read; `idprops` packs the raw id and properties. -/
def fillFeature (geometry : Object α) (bbox : Option (Geojson.BBox α)) (idprops : List UInt8) :
    Object α :=
  .feature geometry (fillBBoxFields bbox geometry.CalculatedBBox).1 bbox.isSome idprops

/-- `fillFeatureCollectionMap` once the features are read. -/
def fillFeatureCollection (features : List (Object α)) (bbox : Option (Geojson.BBox α)) :
    Object α :=
  .featureCollection features
    (fillBBoxFields bbox (unionAll (features.map Object.CalculatedBBox))).1 bbox.isSome

end Fill

/-! ### Against a rectangle: `WithinBBox` and `IntersectsBBox` -/

section BBoxTests

variable [Field α] [LinearOrder α]

/-- The test of a defined bbox: the object's box inside (`within`) or meeting the rectangle. -/
def bboxTest (within : Bool) (calculated bbox : Geojson.BBox α) : Bool :=
  if within then (rectBBox calculated).InsideRect (rectBBox bbox)
  else (rectBBox calculated).IntersectsRect (rectBBox bbox)

/-- `Polygon.WithinBBox(bbox)`: with holes, the rectangle (or the point it degenerates to)
must lie inside the polygon; without, the exterior ring inside the rectangle. -/
def Polygon.WithinBBox (g : Polygon α) (bbox : Geojson.BBox α) : Bool :=
  if g.bboxDefined then bboxTest true g.CalculatedBBox bbox
  else if g.Coordinates = [] then false
  else if (match g.BBox with
      | some b => !(rectBBox b).IntersectsRect (rectBBox bbox)
      | none => false) then false
  else
    let rbbox := rectBBox bbox
    let (ext, holes) := polyExteriorHoles g.Coordinates
    if holes ≠ [] then
      (if rbbox.Max = rbbox.Min then rbbox.Min.Inside ext holes else rbbox.Inside ext holes)
    else ext.InsideRect rbbox

def Polygon.IntersectsBBox (g : Polygon α) (bbox : Geojson.BBox α) : Bool :=
  if g.bboxDefined then bboxTest false g.CalculatedBBox bbox
  else if g.Coordinates = [] then false
  else if (match g.BBox with
      | some b => !(rectBBox b).IntersectsRect (rectBBox bbox)
      | none => false) then false
  else
    let rbbox := rectBBox bbox
    let (ext, holes) := polyExteriorHoles g.Coordinates
    if holes ≠ [] then
      (if rbbox.Max = rbbox.Min then rbbox.Min.Intersects ext holes
        else rbbox.Intersects ext holes)
    else ext.IntersectsRect rbbox

/-- `MultiPolygon.getPolygon(index)`: the filled member, or a bare polygon past them. -/
def getPolygon (coordinates : List (List (List (Position α)))) (polygons : List (Polygon α))
    (index : Nat) : Polygon α :=
  if h : index < polygons.length then polygons[index] else ⟨coordinates.getD index [], none, false⟩

namespace Object

mutual

/-- `WithinBBox(bbox)`: the object lies inside the rectangle. -/
def WithinBBox : Object α → Geojson.BBox α → Bool
  | point c b d, bbox =>
    if d then bboxTest true (level1CalculatedBBox c b) bbox else c.InsideRect (rectBBox bbox)
  | simplePoint x y, bbox => Poly.Point.InsideRect ⟨x, y, 0⟩ (rectBBox bbox)
  | multiPoint cs b d, bbox =>
    if d then bboxTest true (level2CalculatedBBox cs b) bbox
    else cs ≠ [] && cs.all (·.InsideRect (rectBBox bbox))
  | lineString cs b d, bbox =>
    if d then bboxTest true (level2CalculatedBBox cs b) bbox
    else Poly.Polygon.InsideRect cs (rectBBox bbox)
  | multiLineString css b d, bbox =>
    if d then bboxTest true (level3CalculatedBBox css b false) bbox
    else css ≠ [] && css.all (fun ls => ls ≠ [] && ls.all (·.InsideRect (rectBBox bbox)))
  | polygon v, bbox => v.WithinBBox bbox
  | multiPolygon cs b d polygons, bbox =>
    if d then bboxTest true (calculatedBBox polygons b) bbox
    else cs ≠ [] && (List.range cs.length).all fun i => (getPolygon cs polygons i).WithinBBox bbox
  | geometryCollection gs b d, bbox =>
    if d then bboxTest true (CalculatedBBox (geometryCollection gs b d)) bbox
    else gs ≠ [] && WithinBBoxList gs bbox
  | featureCollection fs b d, bbox =>
    if d then bboxTest true (CalculatedBBox (featureCollection fs b d)) bbox
    else fs ≠ [] && WithinBBoxList fs bbox
  | feature geometry b d idprops, bbox =>
    if d then bboxTest true (CalculatedBBox (feature geometry b d idprops)) bbox
    else geometry.WithinBBox bbox
  | string _, _ => false

/-- Every member lies inside the rectangle. -/
def WithinBBoxList : List (Object α) → Geojson.BBox α → Bool
  | [], _ => true
  | g :: gs, bbox => g.WithinBBox bbox && WithinBBoxList gs bbox

end

mutual

/-- `IntersectsBBox(bbox)`: the object meets the rectangle. -/
def IntersectsBBox : Object α → Geojson.BBox α → Bool
  | point c b d, bbox =>
    if d then bboxTest false (level1CalculatedBBox c b) bbox else c.InsideRect (rectBBox bbox)
  | simplePoint x y, bbox => Poly.Point.InsideRect ⟨x, y, 0⟩ (rectBBox bbox)
  | multiPoint cs b d, bbox =>
    if d then bboxTest false (level2CalculatedBBox cs b) bbox
    else cs.any (·.InsideRect (rectBBox bbox))
  | lineString cs b d, bbox =>
    if d then bboxTest false (level2CalculatedBBox cs b) bbox
    else Poly.Polygon.IntersectsRect cs (rectBBox bbox)
  | multiLineString css b d, bbox =>
    if d then bboxTest false (level3CalculatedBBox css b false) bbox
    else css.any (fun ls => Poly.Polygon.IntersectsRect ls (rectBBox bbox))
  | polygon v, bbox => v.IntersectsBBox bbox
  | multiPolygon cs b d polygons, bbox =>
    if d then bboxTest false (calculatedBBox polygons b) bbox
    else (List.range cs.length).any fun i => (getPolygon cs polygons i).IntersectsBBox bbox
  | geometryCollection gs b d, bbox =>
    if d then bboxTest false (CalculatedBBox (geometryCollection gs b d)) bbox
    else IntersectsBBoxList gs bbox
  | featureCollection fs b d, bbox =>
    if d then bboxTest false (CalculatedBBox (featureCollection fs b d)) bbox
    else IntersectsBBoxList fs bbox
  | feature geometry b d idprops, bbox =>
    if d then bboxTest false (CalculatedBBox (feature geometry b d idprops)) bbox
    else geometry.IntersectsBBox bbox
  | string _, _ => false

/-- Some member meets the rectangle. -/
def IntersectsBBoxList : List (Object α) → Geojson.BBox α → Bool
  | [], _ => false
  | g :: gs, bbox => g.IntersectsBBox bbox || IntersectsBBoxList gs bbox

end

end Object

/-- `BBox.center()`: the middle of the box, at `Z = 0`. -/
def BBox.center (b : Geojson.BBox α) : Position α :=
  ⟨(b.Max.X - b.Min.X) / 2 + b.Min.X, (b.Max.Y - b.Min.Y) / 2 + b.Min.Y, 0⟩

/-- `CalculatedPoint()`: a point's own position when it has no bbox pointer, the origin for a
`String`, and otherwise the center of the calculated box. -/
def Object.CalculatedPoint : Object α → Position α
  | .point c b d => if b.isNone then c else (Object.point c b d).CalculatedBBox.center
  | .simplePoint x y => ⟨x, y, 0⟩
  | .string _ => ⟨0, 0, 0⟩
  | o => o.CalculatedBBox.center

end BBoxTests

end Geojson
