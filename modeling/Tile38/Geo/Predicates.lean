import Tile38.Geo.Object
import Mathlib.Algebra.Field.Rat
import Mathlib.Algebra.Order.Ring.Unbundled.Rat

/-!
# `Within` and `Intersects` (object.go and the types' methods)

Every type's `Within(o)` is `withinObjectShared(g, o, pin)` with a `pin` of its own that tests
the receiver against one polygon of `o`; `Intersects` likewise. The shared function first
tests the receiver against `o`'s bbox pointer (and answers true at once when `o`'s bbox was
given in the input), then dispatches on the type of `o`: points and boxes by bbox tests, the
multi-types and collections by recursive calls on their members, polygons through `pin`. Some
calls change roles: `MultiPolygon`'s pins call `v.Within(g)` with a polygon `v` of `o` as the
receiver, `intersectsObjectShared` answers a `LineString` `o` with `o.Intersects(g)`, and a
`MultiPoint` `o` with `Point.Intersects(g)`.

The recursion is well founded on `4·(size g + size o)`, plus `2` when `o` is a `LineString`
and `g` is not (the role change for lines), plus `1` when `g` is a `MultiPolygon` (its pin
calls back with a polygon receiver). The shared functions and the pins receive the recursive
call as an argument together with the bound on the measure, as the Go closures do.
-/

namespace Geojson

open Poly

universe u
variable {α : Type u}

namespace Object

/-! ### The measure -/

mutual

/-- The size of an object for the recursion: one for each value, plus its members. -/
def size : Object α → Nat
  | multiPoint cs _ _ => 1 + cs.length
  | multiLineString css _ _ => 1 + css.length
  | multiPolygon cs _ _ _ => 1 + cs.length
  | geometryCollection gs _ _ => 1 + sizeList gs
  | featureCollection fs _ _ => 1 + sizeList fs
  | feature geometry _ _ _ => 1 + geometry.size
  | _ => 1

/-- The members' sizes, summed. -/
def sizeList : List (Object α) → Nat
  | [] => 0
  | g :: gs => g.size + sizeList gs

end

/-- The type assertion `g.(LineString)`: the coordinates of a `LineString`. -/
def asLineString : Object α → Option (List (Position α))
  | lineString cs _ _ => some cs
  | _ => none

/-- Whether the receiver is a `String`. -/
def isString : Object α → Bool
  | string _ => true
  | _ => false

/-- Whether the receiver is a `MultiPolygon`. -/
def isMultiPolygon : Object α → Bool
  | multiPolygon _ _ _ _ => true
  | _ => false

/-- The measure of `g.Within(o)`. -/
def withinMeasure (g o : Object α) : Nat :=
  4 * (g.size + o.size) + (if g.isMultiPolygon then 1 else 0)

/-- The measure of `g.Intersects(o)`. -/
def intersectsMeasure (g o : Object α) : Nat :=
  4 * (g.size + o.size) + (if o.asLineString.isSome && g.asLineString.isNone then 2 else 0) +
    (if g.isMultiPolygon then 1 else 0)

theorem size_pos (g : Object α) : 0 < g.size := by
  cases g <;> first | exact Nat.one_pos | exact Nat.lt_add_right _ Nat.one_pos

theorem size_lt_of_mem {g : Object α} {gs : List (Object α)} (h : g ∈ gs) :
    g.size < 1 + sizeList gs := by
  induction gs with
  | nil => cases h
  | cons x gs ih =>
    rcases List.mem_cons.mp h with rfl | h
    · simp only [sizeList]
      omega
    · have := ih h
      simp only [sizeList]
      omega

/-! ### Decrease of the recursive calls

Both measures are four times the sizes plus at most three, so a call on objects of smaller
total size decreases them whatever the roles; only the role changes need their own lemma. -/

section Measure

variable {g o : Object α}

theorem withinMeasure_bounds (g o : Object α) :
    4 * (g.size + o.size) ≤ withinMeasure g o ∧ withinMeasure g o ≤ 4 * (g.size + o.size) + 1 := by
  unfold withinMeasure
  split_ifs <;> omega

theorem intersectsMeasure_bounds (g o : Object α) :
    4 * (g.size + o.size) ≤ intersectsMeasure g o ∧
      intersectsMeasure g o ≤ 4 * (g.size + o.size) + 3 := by
  unfold intersectsMeasure
  split_ifs <;> omega

theorem withinMeasure_lt_of_size_lt {g' o' : Object α}
    (h : g'.size + o'.size < g.size + o.size) : withinMeasure g' o' < withinMeasure g o := by
  have := withinMeasure_bounds g o
  have := withinMeasure_bounds g' o'
  omega

theorem intersectsMeasure_lt_of_size_lt {g' o' : Object α}
    (h : g'.size + o'.size < g.size + o.size) : intersectsMeasure g' o' < intersectsMeasure g o := by
  have := intersectsMeasure_bounds g o
  have := intersectsMeasure_bounds g' o'
  omega

theorem size_point_lt {c : Position α} {cs : List (Position α)} (hc : c ∈ cs)
    (b : Option (Geojson.BBox α)) (d : Bool) : (point c none false).size < (multiPoint cs b d).size := by
  have := List.length_pos_of_mem hc
  show 1 < 1 + cs.length
  omega

theorem size_lineString_lt {ls : List (Position α)} {css : List (List (Position α))}
    (h : ls ∈ css) (b : Option (Geojson.BBox α)) (d : Bool) :
    (lineString ls none false).size < (multiLineString css b d).size := by
  have := List.length_pos_of_mem h
  show 1 < 1 + css.length
  omega

theorem size_geometry_lt (geometry : Object α) (b : Option (Geojson.BBox α)) (d : Bool)
    (ip : List UInt8) : geometry.size < (feature geometry b d ip).size := by
  show geometry.size < 1 + geometry.size
  omega

theorem size_lt_geometryCollection {f : Object α} {gs : List (Object α)} (h : f ∈ gs)
    (b : Option (Geojson.BBox α)) (d : Bool) : f.size < (geometryCollection gs b d).size :=
  size_lt_of_mem h

theorem size_lt_featureCollection {f : Object α} {fs : List (Object α)} (h : f ∈ fs)
    (b : Option (Geojson.BBox α)) (d : Bool) : f.size < (featureCollection fs b d).size :=
  size_lt_of_mem h

/-- The pin of a `MultiPolygon` calls back with a polygon of the query as the receiver and the
multipolygon as the query: the sizes may grow, the `MultiPolygon` bonus pays for it. -/
theorem withinMeasure_swap_lt (v : Polygon α) (cs : List (List (List (Position α))))
    (b : Option (Geojson.BBox α)) (d : Bool) (ps : List (Polygon α)) :
    withinMeasure (polygon v) (multiPolygon cs b d ps) < withinMeasure (multiPolygon cs b d ps) o := by
  have := size_pos o
  show 4 * (1 + (1 + cs.length)) + 0 < 4 * (1 + cs.length + o.size) + 1
  omega

theorem intersectsMeasure_swap_lt (v : Polygon α) (cs : List (List (List (Position α))))
    (b : Option (Geojson.BBox α)) (d : Bool) (ps : List (Polygon α)) :
    intersectsMeasure (polygon v) (multiPolygon cs b d ps) <
      intersectsMeasure (multiPolygon cs b d ps) o := by
  have := size_pos o
  -- the bonus for a line query depends on `o`: it only adds to the right side
  show 4 * (1 + (1 + cs.length)) + 0 + 0 < 4 * (1 + cs.length + o.size) + _ + 1
  omega

/-- A `LineString` query answered by the line as the receiver: the sizes stay, the bonus for a
line query against another receiver is spent. -/
theorem intersectsMeasure_lineString_swap_lt {cs : List (Position α)} (b : Option (Geojson.BBox α))
    (d : Bool) (hg : g.asLineString = none) :
    intersectsMeasure (lineString cs b d) g < intersectsMeasure g (lineString cs b d) := by
  unfold intersectsMeasure
  rw [hg]
  show 4 * (1 + g.size) + 0 + 0 < 4 * (g.size + 1) + 2 + _
  omega

end Measure

/-! ### Within -/

variable [Field α] [LinearOrder α]

/-- The type switch of `withinObjectShared`, after the bbox prefilter. -/
def withinDispatch (g o : Object α) (pin : Polygon α → Bool)
    (within : (g' o' : Object α) → withinMeasure g' o' < withinMeasure g o → Bool) : Bool :=
  match o, within with
  | point c b d, _ => g.WithinBBox (point c b d).CalculatedBBox
  | simplePoint x y, _ => g.WithinBBox (simplePoint x y).CalculatedBBox
  | multiPoint cs b d, within =>
    cs.attach.any fun c => within g (point c.1 none false) (withinMeasure_lt_of_size_lt (Nat.add_lt_add_left (size_point_lt c.2 b d) _))
  | lineString cs _ _, _ =>
    if cs = [] then false
    else
      match g with
      | simplePoint x y => Poly.Point.IntersectsLineString ⟨x, y, 0⟩ cs
      | point c _ _ => c.IntersectsLineString cs
      -- the loop runs over the line's own positions, not the receiver's
      | multiPoint _ _ _ => if cs = [] then false else cs.all (·.IntersectsLineString cs)
      | _ => false
  | multiLineString css b d, within =>
    css.attach.any fun ls => within g (lineString ls.1 none false)
      (withinMeasure_lt_of_size_lt (Nat.add_lt_add_left (size_lineString_lt ls.2 b d) _))
  | polygon v, _ => if v.Coordinates = [] then false else pin v
  | multiPolygon cs _ _ polygons, _ =>
    (List.range cs.length).any fun i => pin (getPolygon cs polygons i)
  | feature geometry b d ip, within => within g geometry (withinMeasure_lt_of_size_lt (Nat.add_lt_add_left (size_geometry_lt geometry b d ip) _))
  | featureCollection fs b d, within =>
    if fs = [] then false
    else fs.attach.all fun f => within g f.1 (withinMeasure_lt_of_size_lt (Nat.add_lt_add_left (size_lt_featureCollection f.2 b d) _))
  | geometryCollection gs b d, within =>
    if gs = [] then false
    else gs.attach.all fun f =>
      within g f.1 (withinMeasure_lt_of_size_lt (Nat.add_lt_add_left (size_lt_geometryCollection f.2 b d) _))
  | string _, _ => false

def withinObjectShared (g o : Object α) (pin : Polygon α → Bool)
    (within : (g' o' : Object α) → withinMeasure g' o' < withinMeasure g o → Bool) : Bool :=
  match o.bboxPtr with
  | some bbp =>
    if !g.WithinBBox bbp then false
    else if o.IsBBoxDefined then true
    else withinDispatch g o pin within
  | none => withinDispatch g o pin within

/-- The receiver's pin for `Within`: the receiver against one polygon `v` of the query `o`. -/
def withinPin (g o : Object α)
    (within : (g' o' : Object α) → withinMeasure g' o' < withinMeasure g o → Bool)
    (v : Polygon α) : Bool :=
  match g, within with
  | point c _ _, _ => c.Inside (polyExteriorHoles v.Coordinates).1 (polyExteriorHoles v.Coordinates).2
  | simplePoint x y, _ =>
    Poly.Point.Inside ⟨x, y, 0⟩ (polyExteriorHoles v.Coordinates).1 (polyExteriorHoles v.Coordinates).2
  | multiPoint cs _ _, _ =>
    if cs = [] then false
    else cs.all (·.Inside (polyExteriorHoles v.Coordinates).1 (polyExteriorHoles v.Coordinates).2)
  | lineString cs _ _, _ =>
    Poly.Polygon.Inside cs (polyExteriorHoles v.Coordinates).1 (polyExteriorHoles v.Coordinates).2
  | multiLineString css _ _, _ =>
    if css = [] then false
    else css.all fun ls =>
      Poly.Polygon.Inside ls (polyExteriorHoles v.Coordinates).1 (polyExteriorHoles v.Coordinates).2
  | polygon w, _ =>
    if w.Coordinates = [] then false
    else Poly.Polygon.Inside (w.Coordinates.headD []) (polyExteriorHoles v.Coordinates).1
      (polyExteriorHoles v.Coordinates).2
  | multiPolygon cs b d ps, within =>
    -- `v.Within(g)`: the polygon of the query as the receiver
    if cs = [] then false else within (polygon v) (multiPolygon cs b d ps) (withinMeasure_swap_lt v cs b d ps)
  | geometryCollection gs b d, within =>
    if gs = [] then false
    else gs.attach.all fun x => within x.1 o
      (withinMeasure_lt_of_size_lt (Nat.add_lt_add_right (size_lt_geometryCollection x.2 b d) _))
  | feature geometry b d ip, within =>
    within geometry o (withinMeasure_lt_of_size_lt (Nat.add_lt_add_right (size_geometry_lt geometry b d ip) _))
  | featureCollection fs b d, within =>
    if fs = [] then false
    else fs.attach.all fun x => within x.1 o
      (withinMeasure_lt_of_size_lt (Nat.add_lt_add_right (size_lt_featureCollection x.2 b d) _))
  | string _, _ => false

/-- `g.Within(o)`: the object lies inside `o`. A `String` is within nothing. -/
def Within (g o : Object α) : Bool :=
  if g.isString then false
  else withinObjectShared g o (withinPin g o fun g' o' _ => Within g' o') fun g' o' _ => Within g' o'
termination_by withinMeasure g o

/-! ### Intersects -/

/-- The type switch of `intersectsObjectShared`, after the bbox prefilter. -/
def intersectsDispatch (g o : Object α) (pin : Polygon α → Bool)
    (intersects : (g' o' : Object α) → intersectsMeasure g' o' < intersectsMeasure g o → Bool) :
    Bool :=
  match o, intersects with
  | point c b d, _ => g.IntersectsBBox (point c b d).CalculatedBBox
  | simplePoint x y, _ => g.IntersectsBBox (simplePoint x y).CalculatedBBox
  | multiPoint cs b d, intersects =>
    -- `Point{Coordinates: c}.Intersects(g)`: the point of the query as the receiver
    cs.attach.any fun c => intersects (point c.1 none false) g (intersectsMeasure_lt_of_size_lt (by have := size_point_lt c.2 b d; omega))
  | lineString cs b d, intersects =>
    match h : g.asLineString with
    | some gcs => Poly.Polygon.LineStringIntersectsLineString gcs cs
    | none => intersects (lineString cs b d) g (intersectsMeasure_lineString_swap_lt b d h)
  | multiLineString css b d, intersects =>
    css.attach.any fun ls => intersects g (lineString ls.1 none false)
      (intersectsMeasure_lt_of_size_lt (Nat.add_lt_add_left (size_lineString_lt ls.2 b d) _))
  | polygon v, _ => if v.Coordinates = [] then false else pin v
  | multiPolygon cs _ _ _, _ => cs.any fun coords => pin ⟨coords, none, false⟩
  | feature geometry b d ip, intersects =>
    intersects g geometry (intersectsMeasure_lt_of_size_lt (Nat.add_lt_add_left (size_geometry_lt geometry b d ip) _))
  | featureCollection fs b d, intersects =>
    if fs = [] then false
    else fs.attach.any fun f => intersects g f.1
      (intersectsMeasure_lt_of_size_lt
        (Nat.add_lt_add_left (size_lt_featureCollection f.2 b d) _))
  | geometryCollection gs b d, intersects =>
    if gs = [] then false
    else gs.attach.any fun f => intersects g f.1
      (intersectsMeasure_lt_of_size_lt
        (Nat.add_lt_add_left (size_lt_geometryCollection f.2 b d) _))
  | string _, _ => false

def intersectsObjectShared (g o : Object α) (pin : Polygon α → Bool)
    (intersects : (g' o' : Object α) → intersectsMeasure g' o' < intersectsMeasure g o → Bool) :
    Bool :=
  match o.bboxPtr with
  | some bbp =>
    if !g.IntersectsBBox bbp then false
    else if o.IsBBoxDefined then true
    else intersectsDispatch g o pin intersects
  | none => intersectsDispatch g o pin intersects

/-- The receiver's pin for `Intersects`. `MultiPoint`'s pin answers true after its loop finds
no point inside, as the source does. -/
def intersectsPin (g o : Object α)
    (intersects : (g' o' : Object α) → intersectsMeasure g' o' < intersectsMeasure g o → Bool)
    (v : Polygon α) : Bool :=
  match g, intersects with
  | point c _ _, _ =>
    c.Intersects (polyExteriorHoles v.Coordinates).1 (polyExteriorHoles v.Coordinates).2
  | simplePoint x y, _ =>
    Poly.Point.Intersects ⟨x, y, 0⟩ (polyExteriorHoles v.Coordinates).1
      (polyExteriorHoles v.Coordinates).2
  | multiPoint cs _ _, _ =>
    if cs = [] then false
    else if cs.any (·.Intersects (polyExteriorHoles v.Coordinates).1
      (polyExteriorHoles v.Coordinates).2) then true
    else true
  | lineString cs _ _, _ =>
    Poly.Polygon.LineStringIntersects cs (polyExteriorHoles v.Coordinates).1
      (polyExteriorHoles v.Coordinates).2
  | multiLineString css _ _, _ =>
    if css = [] then false
    else css.any fun ls =>
      Poly.Polygon.Intersects ls (polyExteriorHoles v.Coordinates).1
        (polyExteriorHoles v.Coordinates).2
  | polygon w, _ =>
    if w.Coordinates = [] then false
    else Poly.Polygon.Intersects (w.Coordinates.headD []) (polyExteriorHoles v.Coordinates).1
      (polyExteriorHoles v.Coordinates).2
  | multiPolygon cs b d ps, intersects =>
    -- `v.Intersects(g)`: the polygon of the query as the receiver
    if cs = [] then false
    else intersects (polygon v) (multiPolygon cs b d ps) (intersectsMeasure_swap_lt v cs b d ps)
  | geometryCollection gs b d, intersects =>
    if gs = [] then false
    else gs.attach.any fun x => intersects x.1 o
      (intersectsMeasure_lt_of_size_lt
        (Nat.add_lt_add_right (size_lt_geometryCollection x.2 b d) _))
  | feature geometry b d ip, intersects =>
    intersects geometry o (intersectsMeasure_lt_of_size_lt
      (Nat.add_lt_add_right (size_geometry_lt geometry b d ip) _))
  | featureCollection fs b d, intersects =>
    if fs = [] then false
    else fs.attach.any fun x => intersects x.1 o
      (intersectsMeasure_lt_of_size_lt
        (Nat.add_lt_add_right (size_lt_featureCollection x.2 b d) _))
  | string _, _ => false

/-- `g.Intersects(o)`: the object meets `o`. A `String` meets nothing. -/
def Intersects (g o : Object α) : Bool :=
  if g.isString then false
  else intersectsObjectShared g o (intersectsPin g o fun g' o' _ => Intersects g' o')
    fun g' o' _ => Intersects g' o'
termination_by intersectsMeasure g o

/-! ### The dispatch, one equation per path

`Within` and `Intersects` are never unfolded past these lemmas: each states one path through
the shared function and a pin. -/

section Spec

variable {g o : Object α}

/-- `Within` unfolded once; the lemmas below go through this one. -/
theorem Within_eq (g o : Object α) :
    Within g o = if g.isString then false
      else withinObjectShared g o (withinPin g o fun g' o' _ => Within g' o')
        fun g' o' _ => Within g' o' := by
  rw [Within]

theorem Intersects_eq (g o : Object α) :
    Intersects g o = if g.isString then false
      else intersectsObjectShared g o (intersectsPin g o fun g' o' _ => Intersects g' o')
        fun g' o' _ => Intersects g' o' := by
  rw [Intersects]

theorem Within_of_not_string (hg : g.isString = false) :
    Within g o = withinObjectShared g o (withinPin g o fun g' o' _ => Within g' o')
      fun g' o' _ => Within g' o' := by
  rw [Within_eq, hg]
  rfl

theorem Intersects_of_not_string (hg : g.isString = false) :
    Intersects g o = intersectsObjectShared g o (intersectsPin g o fun g' o' _ => Intersects g' o')
      fun g' o' _ => Intersects g' o' := by
  rw [Intersects_eq, hg]
  rfl

/-- `withinObjectShared` behind a bbox pointer: the receiver's box test, then the defined bbox
or the type switch. -/
theorem withinObjectShared_of_bboxPtr {b : Geojson.BBox α} (hb : o.bboxPtr = some b)
    (pin : Polygon α → Bool)
    (within : (g' o' : Object α) → withinMeasure g' o' < withinMeasure g o → Bool) :
    withinObjectShared g o pin within =
      (g.WithinBBox b && (o.IsBBoxDefined || withinDispatch g o pin within)) := by
  unfold withinObjectShared
  rw [hb]
  dsimp only
  cases g.WithinBBox b <;> cases o.IsBBoxDefined <;> rfl

theorem intersectsObjectShared_of_bboxPtr {b : Geojson.BBox α} (hb : o.bboxPtr = some b)
    (pin : Polygon α → Bool)
    (intersects : (g' o' : Object α) → intersectsMeasure g' o' < intersectsMeasure g o → Bool) :
    intersectsObjectShared g o pin intersects =
      (g.IntersectsBBox b && (o.IsBBoxDefined || intersectsDispatch g o pin intersects)) := by
  unfold intersectsObjectShared
  rw [hb]
  dsimp only
  cases g.IntersectsBBox b <;> cases o.IsBBoxDefined <;> rfl

theorem withinDispatch_polygon {v : Polygon α} (hv : v.Coordinates ≠ []) (pin : Polygon α → Bool)
    (within : (g' o' : Object α) → withinMeasure g' o' < withinMeasure g (polygon v) → Bool) :
    withinDispatch g (polygon v) pin within = pin v :=
  if_neg hv

theorem intersectsDispatch_polygon {v : Polygon α} (hv : v.Coordinates ≠ [])
    (pin : Polygon α → Bool)
    (intersects : (g' o' : Object α) → intersectsMeasure g' o' < intersectsMeasure g (polygon v) →
      Bool) :
    intersectsDispatch g (polygon v) pin intersects = pin v :=
  if_neg hv

/-- The bbox prefilter of `Within`: a receiver within `o` lies within `o`'s bbox pointer. -/
theorem WithinBBox_of_Within {b : Geojson.BBox α} (h : Within g o = true)
    (hb : o.bboxPtr = some b) : g.WithinBBox b = true := by
  cases hg : g.isString with
  | true =>
    rw [Within_eq, if_pos hg] at h
    cases h
  | false =>
    rw [Within_of_not_string hg, withinObjectShared_of_bboxPtr hb, Bool.and_eq_true] at h
    exact h.1

section PolygonQuery

/-! A polygon query as `fillPolygon` reads it without a `bbox` member: a bbox pointer, no
defined bbox, at least one ring. -/

variable {q : Polygon α} {b : Geojson.BBox α}

theorem Within_polygon (hg : g.isString = false) (hb : q.BBox = some b)
    (hd : q.bboxDefined = false) (hc : q.Coordinates ≠ []) :
    Within g (polygon q) =
      (g.WithinBBox b && withinPin g (polygon q) (fun g' o' _ => Within g' o') q) := by
  have hd' : (polygon q).IsBBoxDefined = false := hd
  rw [Within_of_not_string hg, withinObjectShared_of_bboxPtr (o := polygon q) hb,
    withinDispatch_polygon hc, hd', Bool.false_or]

theorem Intersects_polygon (hg : g.isString = false) (hb : q.BBox = some b)
    (hd : q.bboxDefined = false) (hc : q.Coordinates ≠ []) :
    Intersects g (polygon q) =
      (g.IntersectsBBox b && intersectsPin g (polygon q) (fun g' o' _ => Intersects g' o') q) := by
  have hd' : (polygon q).IsBBoxDefined = false := hd
  rw [Intersects_of_not_string hg, intersectsObjectShared_of_bboxPtr (o := polygon q) hb,
    intersectsDispatch_polygon hc, hd', Bool.false_or]

variable (hb : q.BBox = some b) (hd : q.bboxDefined = false) (hc : q.Coordinates ≠ [])
include hb hd hc

theorem Within_simplePoint_polygon (x y : α) :
    Within (simplePoint x y) (polygon q) = ((simplePoint x y).WithinBBox b &&
      Poly.Point.Inside ⟨x, y, 0⟩ (polyExteriorHoles q.Coordinates).1
        (polyExteriorHoles q.Coordinates).2) :=
  Within_polygon rfl hb hd hc

/-- A line is within a polygon when its box is and each of its vertices is inside: the edges
between the vertices are never tested. -/
theorem Within_lineString_polygon (cs : List (Position α)) (bb : Option (Geojson.BBox α))
    (d : Bool) :
    Within (lineString cs bb d) (polygon q) = ((lineString cs bb d).WithinBBox b &&
      Poly.Polygon.Inside cs (polyExteriorHoles q.Coordinates).1
        (polyExteriorHoles q.Coordinates).2) :=
  Within_polygon rfl hb hd hc

theorem Intersects_simplePoint_polygon (x y : α) :
    Intersects (simplePoint x y) (polygon q) = ((simplePoint x y).IntersectsBBox b &&
      Poly.Point.Intersects ⟨x, y, 0⟩ (polyExteriorHoles q.Coordinates).1
        (polyExteriorHoles q.Coordinates).2) :=
  Intersects_polygon rfl hb hd hc

/-- A non-empty multipoint meets a polygon exactly when its box does: whether a point of it
lies inside is computed and then ignored. -/
theorem Intersects_multiPoint_polygon (cs : List (Position α)) (bb : Option (Geojson.BBox α))
    (d : Bool) :
    Intersects (multiPoint cs bb d) (polygon q) =
      ((multiPoint cs bb d).IntersectsBBox b && !cs.isEmpty) := by
  rw [Intersects_polygon rfl hb hd hc]
  cases cs with
  | nil => simp [intersectsPin]
  | cons c cs => simp [intersectsPin]

end PolygonQuery

/-- The triangle `(0,0), (4,0), (0,4)` and the point `(3, 3)` outside it, inside its box: as a
multipoint it meets the triangle, as a point it does not. -/
theorem multiPoint_intersects_outside :
    (do
      let q ← fillPolygon ([[⟨0, 0, 0⟩, ⟨4, 0, 0⟩, ⟨0, 4, 0⟩, ⟨0, 0, 0⟩]] : List (List (Position ℚ))) none
      pure (Intersects (fillMultiPoint [⟨3, 3, 0⟩] none) (polygon q),
        Intersects (fillSimplePointOrPoint ⟨3, 3, 0⟩ none) (polygon q)) :
        Except GeoError (Bool × Bool)) = .ok (true, false) := by
  obtain ⟨q, hq⟩ : ∃ q, fillPolygon ([[⟨0, 0, 0⟩, ⟨4, 0, 0⟩, ⟨0, 4, 0⟩, ⟨0, 0, 0⟩]] :
      List (List (Position ℚ))) none = .ok q := ⟨_, rfl⟩
  have hp : fillSimplePointOrPoint (⟨3, 3, 0⟩ : Position ℚ) none = simplePoint 3 3 := rfl
  obtain ⟨hqc, hqb, hqd, hne⟩ := fillPolygon_none hq
  rw [hq]
  simp only [bind, Except.bind, pure, Except.pure, hp, fillMultiPoint]
  rw [Intersects_multiPoint_polygon hqb hqd (hqc ▸ hne),
    Intersects_simplePoint_polygon hqb hqd (hqc ▸ hne), hqc]
  with_unfolding_all decide

/-- A point within a line query: the box test, then the point on one of the line's edges. -/
theorem Within_simplePoint_lineString {x y : α} {cs : List (Position α)} {b : Geojson.BBox α}
    (hc : cs ≠ []) :
    Within (simplePoint x y) (lineString cs (some b) false) =
      ((simplePoint x y).WithinBBox b && Poly.Point.IntersectsLineString ⟨x, y, 0⟩ cs) := by
  rw [Within_of_not_string rfl, withinObjectShared_of_bboxPtr rfl]
  exact congrArg _ (if_neg hc)

/-- The U-shaped polygon with its notch between `x = 2` and `x = 6` above `y = 2`: the point
`(4, 6)` lies on the line from `(1, 6)` to `(7, 6)`, the line is within the polygon, and the
point is not. -/
theorem lineString_within_notch :
    (do
      let g ← fillLineString ([⟨1, 6, 0⟩, ⟨7, 6, 0⟩] : List (Position ℚ)) none
      let q ← fillPolygon [[⟨0, 0, 0⟩, ⟨8, 0, 0⟩, ⟨8, 8, 0⟩, ⟨6, 8, 0⟩, ⟨6, 2, 0⟩, ⟨2, 2, 0⟩,
        ⟨2, 8, 0⟩, ⟨0, 8, 0⟩, ⟨0, 0, 0⟩]] none
      let p := fillSimplePointOrPoint ⟨4, 6, 0⟩ none
      pure (Within p g, Within g (polygon q), Within p (polygon q)) :
        Except GeoError (Bool × Bool × Bool)) = .ok (true, true, false) := by
  obtain ⟨g, hg⟩ : ∃ g, fillLineString ([⟨1, 6, 0⟩, ⟨7, 6, 0⟩] : List (Position ℚ)) none = .ok g :=
    ⟨_, rfl⟩
  obtain ⟨q, hq⟩ : ∃ q, fillPolygon ([[⟨0, 0, 0⟩, ⟨8, 0, 0⟩, ⟨8, 8, 0⟩, ⟨6, 8, 0⟩, ⟨6, 2, 0⟩,
      ⟨2, 2, 0⟩, ⟨2, 8, 0⟩, ⟨0, 8, 0⟩, ⟨0, 0, 0⟩]] : List (List (Position ℚ))) none = .ok q :=
    ⟨_, rfl⟩
  have hp : fillSimplePointOrPoint (⟨4, 6, 0⟩ : Position ℚ) none = simplePoint 4 6 := rfl
  obtain ⟨rfl, -⟩ := fillLineString_none hg
  obtain ⟨hqc, hqb, hqd, hne⟩ := fillPolygon_none hq
  rw [hg, hq]
  simp only [bind, Except.bind, pure, Except.pure, hp]
  rw [Within_simplePoint_lineString (List.cons_ne_nil _ _),
    Within_lineString_polygon hqb hqd (hqc ▸ hne), Within_simplePoint_polygon hqb hqd (hqc ▸ hne), hqc]
  with_unfolding_all decide

end Spec

end Object

end Geojson
