import Tile38.Geo.Predicates
import Mathlib.Analysis.Convex.Segment
import Mathlib.Tactic.FieldSimp
import Mathlib.Tactic.Linarith
import Mathlib.Tactic.NormNum
import Mathlib.Tactic.Ring

/-!
# How `Within` and `Intersects` relate (object.go, poly/inside.go, poly/intersects.go)

A reader expects four laws of the two predicates: a receiver within a query meets it; meeting
is symmetric; against a polygon query both follow the query's region, in both directions; and
wrapping a single point, line or polygon in a multi-type changes nothing. The paths of the code
that decide them are stated here once, for every receiver and query of their types, and show
where the laws break:

* `doesIntersects` answers false for a shape of two or more points whose vertices all lie in one
  hole ring or on it, whatever its edges cross (`doesIntersects_of_inside_hole`), while
  `Polygon.Inside` counts a vertex on a hole's boundary as inside the polygon;
* `Polygon.Inside` refuses every shape whose ring encloses a hole of the query
  (`Inside_of_hole_inside`), even a line whose own points keep out of the hole;
* a polygon receiver meets a multipoint query when one of its points, as the receiver, meets
  the polygon (`Intersects_polygon_multiPoint`), the other way round from
  `Intersects_multiPoint_polygon`;
* a multipolygon is within a polygon when the polygon is within the multipolygon
  (`Within_multiPolygon_polygon`).
* a polygon with holes is within a rectangle when the rectangle is inside the polygon, the
  other way round from a polygon without holes (`WithinBBox_holes_below`).

After each path stand the smallest objects `ObjectJSON` builds (no `bbox` member) on which it
breaks a law.

Under all of them lies `lineintersects`, the test of two segments. It is not the test of closed
segments against Mathlib's `segment` (`lineintersects_misses_meeting`): when `c` lies on the
line through `a` and `b` it looks at `c` alone, so two segments from one point are reported
apart unless the second's start lies beyond `b`, which makes the answer depend on the order of
the segments, and collinear segments that overlap are reported apart when `c` lies beyond `b`.
-/

namespace Poly

universe u
variable {α : Type u} [Field α] [LinearOrder α]

/-- Two or more points whose edges cross none of the exterior's and whose vertices all lie in
one hole ring (its boundary counting as inside) are reported as missing the polygon: the hole
test comes before any test against the exterior, and no edge is tested against the hole. -/
theorem doesIntersects_of_inside_hole {shape exterior hole : Polygon α}
    {holes : List (Polygon α)} (isLineString : Bool) (hs : 2 ≤ shape.length)
    (he : 2 ≤ exterior.length) (hcross : edgesIntersect shape exterior = false)
    (hmem : hole ∈ holes) (hin : shape.Inside hole [] = true) :
    shape.doesIntersects isLineString exterior holes = false := by
  have hany : holes.any (fun h => shape.Inside h []) = true :=
    List.any_eq_true.mpr ⟨hole, hmem, hin⟩
  rcases shape with _ | ⟨s₁, _ | ⟨s₂, ss⟩⟩
  · simp at hs
  · simp at hs
  rcases exterior with _ | ⟨e₁, _ | ⟨e₂, es⟩⟩
  · simp at he
  · simp at he
  simp [Polygon.doesIntersects, hcross, hany]

/-- A shape around a hole of the polygon, every vertex of the hole inside the shape's ring, is
never inside the polygon. -/
theorem Inside_of_hole_inside {shape exterior hole : Polygon α} {holes : List (Polygon α)}
    (hmem : hole ∈ holes) (hin : hole.all (·.Inside shape []) = true) :
    shape.Inside exterior holes = false := by
  have hany : holes.any (fun h => h.all (·.Inside shape [])) = true :=
    List.any_eq_true.mpr ⟨hole, hmem, hin⟩
  simp [Polygon.Inside, hany]

/-! ### `lineintersects` against segments that meet -/

section Segments

variable [IsStrictOrderedRing α]

/-- The closed segments `[a, b]` and `[c, d]` have a common point. -/
def SegmentsMeet (a b c d : Point α) : Prop :=
  (segment α (a.X, a.Y) (b.X, b.Y) ∩ segment α (c.X, c.Y) (d.X, d.Y)).Nonempty

theorem not_apart_same_start (p q r : α) :
    ¬(if p > q then (if p > r then q > p ∨ p < r else q > r ∨ p < p)
      else (if p > r then p > p ∨ q < r else p > r ∨ q < p)) := by
  split_ifs <;> rintro (h | h) <;> linarith

/-- Two segments from one point `a`: the boxes overlap, `a` is on the line through `a` and
`b`, and the collinear test asks whether `a` lies beyond `b` on an axis. -/
theorem lineintersects_same_start (a b d : Point α) :
    lineintersects a b a d = decide (b.X < a.X ∨ b.Y < a.Y) := by
  simp only [lineintersects, if_neg (not_apart_same_start a.Y b.Y d.Y),
    if_neg (not_apart_same_start a.X b.X d.X), sub_self, zero_mul, if_true]
  simp [not_le]

/-- Three collinear points on a horizontal line, `c` beyond `b`: the collinear test looks at `c`
only, which lies outside `[a, b]`, although `[c, d]` reaches back into it. -/
theorem lineintersects_collinear_beyond {a b c d : Point α} (hb : b.Y = a.Y) (hc : c.Y = a.Y)
    (hd : d.Y = a.Y) (had : a.X < d.X) (hdb : d.X ≤ b.X) (hbc : b.X < c.X) :
    lineintersects a b c d = false := by
  have hX : ¬(if a.X > b.X then (if c.X > d.X then b.X > c.X ∨ a.X < d.X else b.X > d.X ∨ a.X < c.X)
      else (if c.X > d.X then a.X > c.X ∨ b.X < d.X else a.X > d.X ∨ b.X < c.X)) := by
    rw [if_neg (by linarith), if_pos (by linarith)]
    rintro (h | h) <;> linarith
  have hca : ¬c.X - a.X ≤ 0 := by linarith
  have hcb : ¬c.X - b.X ≤ 0 := by linarith
  simp [lineintersects, hX, hb, hc, hd, hca, hcb]

theorem segmentsMeet_collinear_beyond {a b c d : Point α} (hb : b.Y = a.Y) (hc : c.Y = a.Y)
    (hd : d.Y = a.Y) (hdb : d.X ≤ b.X) (hbc : b.X < c.X) : SegmentsMeet a b c d := by
  refine ⟨(b.X, a.Y), ⟨0, 1, le_rfl, zero_le_one, by ring, by simp [hb]⟩, ?_⟩
  have hcd : 0 < c.X - d.X := by linarith
  refine ⟨(b.X - d.X) / (c.X - d.X), (c.X - b.X) / (c.X - d.X), div_nonneg (by linarith) hcd.le,
    div_nonneg (by linarith) hcd.le, by field_simp; ring, ?_⟩
  rw [hc, hd]
  ext
  · simp only [Prod.smul_mk, Prod.mk_add_mk, smul_eq_mul]
    field_simp
    ring
  · simp only [Prod.smul_mk, Prod.mk_add_mk, smul_eq_mul]
    field_simp
    ring

/-- `lineintersects` is not the test of closed segments: segments from one point `a` are
reported apart when `b` is not below `a` on either axis, and the answer depends on the order of
the segments; collinear segments that overlap are reported apart when `c` lies beyond `b`. -/
theorem lineintersects_misses_meeting :
    (∀ a b d : Point α, a.X ≤ b.X → a.Y ≤ b.Y →
      SegmentsMeet a b a d ∧ lineintersects a b a d = false ∧
        lineintersects a d a b = decide (d.X < a.X ∨ d.Y < a.Y)) ∧
    (∀ a b c d : Point α, b.Y = a.Y → c.Y = a.Y → d.Y = a.Y → a.X < d.X → d.X ≤ b.X →
      b.X < c.X → SegmentsMeet a b c d ∧ lineintersects a b c d = false) := by
  refine ⟨fun a b d hx hy => ⟨?_, ?_, lineintersects_same_start a d b⟩,
    fun a b c d hb hc hd had hdb hbc =>
      ⟨segmentsMeet_collinear_beyond hb hc hd hdb hbc,
        lineintersects_collinear_beyond hb hc hd had hdb hbc⟩⟩
  · exact ⟨(a.X, a.Y), left_mem_segment α _ _, left_mem_segment α _ _⟩
  · rw [lineintersects_same_start]
    simp [not_lt, hx, hy]

/-- The segments `[(0, 0), (2, 0)]` and `[(0, 0), (-1, 3)]` share `(0, 0)`: reported apart one
way round and meeting the other; `[(0, 0), (2, 0)]` and `[(3, 0), (1, 0)]` overlap on
`[1, 2]` and are reported apart. -/
theorem lineintersects_misses_meeting_origin :
    ((0 : ℚ) ≤ 2 ∧ (0 : ℚ) ≤ 0 ∧
      SegmentsMeet (⟨0, 0, 0⟩ : Point ℚ) ⟨2, 0, 0⟩ ⟨0, 0, 0⟩ ⟨-1, 3, 0⟩ ∧
      lineintersects (⟨0, 0, 0⟩ : Point ℚ) ⟨2, 0, 0⟩ ⟨0, 0, 0⟩ ⟨-1, 3, 0⟩ = false ∧
      lineintersects (⟨0, 0, 0⟩ : Point ℚ) ⟨-1, 3, 0⟩ ⟨0, 0, 0⟩ ⟨2, 0, 0⟩ = true) ∧
    ((0 : ℚ) < 1 ∧ (1 : ℚ) ≤ 2 ∧ (2 : ℚ) < 3 ∧
      SegmentsMeet (⟨0, 0, 0⟩ : Point ℚ) ⟨2, 0, 0⟩ ⟨3, 0, 0⟩ ⟨1, 0, 0⟩ ∧
      lineintersects (⟨0, 0, 0⟩ : Point ℚ) ⟨2, 0, 0⟩ ⟨3, 0, 0⟩ ⟨1, 0, 0⟩ = false) := by
  obtain ⟨h₁, h₂⟩ := lineintersects_misses_meeting (α := ℚ)
  obtain ⟨hm, hf, hs⟩ := h₁ ⟨0, 0, 0⟩ ⟨2, 0, 0⟩ ⟨-1, 3, 0⟩ (by norm_num) (by norm_num)
  refine ⟨⟨by norm_num, le_rfl, hm, hf, ?_⟩, ⟨by norm_num, by norm_num, by norm_num,
    h₂ ⟨0, 0, 0⟩ ⟨2, 0, 0⟩ ⟨3, 0, 0⟩ ⟨1, 0, 0⟩ rfl rfl rfl (by norm_num) (by norm_num)
      (by norm_num)⟩⟩
  rw [hs]
  decide

end Segments

end Poly

namespace Geojson

open Poly

universe u
variable {α : Type u}

namespace Object

variable [Field α] [LinearOrder α]

section PolygonQuery

/-! A polygon query as `fillPolygon` reads it without a `bbox` member. -/

variable {q : Geojson.Polygon α} {b : Geojson.BBox α} (hb : q.BBox = some b)
  (hd : q.bboxDefined = false) (hc : q.Coordinates ≠ [])
include hb hd hc

/-- A line meets a polygon when its box does and `LineStringIntersects` says so. -/
theorem Intersects_lineString_polygon (cs : List (Position α)) (bb : Option (Geojson.BBox α))
    (d : Bool) :
    Intersects (lineString cs bb d) (polygon q) = ((lineString cs bb d).IntersectsBBox b &&
      Poly.Polygon.LineStringIntersects cs (polyExteriorHoles q.Coordinates).1
        (polyExteriorHoles q.Coordinates).2) :=
  Intersects_polygon rfl hb hd hc

/-- A multipolygon is within a polygon when its box is and the polygon is within the
multipolygon: the pin calls `v.Within(g)` with the receiver and the query swapped. -/
theorem Within_multiPolygon_polygon (cs : List (List (List (Position α))))
    (bb : Option (Geojson.BBox α)) (d : Bool) (ps : List (Geojson.Polygon α)) (hcs : cs ≠ []) :
    Within (multiPolygon cs bb d ps) (polygon q) = ((multiPolygon cs bb d ps).WithinBBox b &&
      Within (polygon q) (multiPolygon cs bb d ps)) := by
  rw [Within_polygon rfl hb hd hc]
  simp [withinPin, hcs]

end PolygonQuery

/-- A polygon meets a multipoint query, read without a `bbox` member, when its box meets the
multipoint's and one of the points, as the receiver, meets the polygon. -/
theorem Intersects_polygon_multiPoint (w : Geojson.Polygon α) (cs : List (Position α))
    (bm : Geojson.BBox α) :
    Intersects (polygon w) (multiPoint cs (some bm) false) =
      ((polygon w).IntersectsBBox bm && cs.any fun c => Intersects (point c none false) (polygon w)) := by
  rw [Intersects_of_not_string rfl, intersectsObjectShared]
  simp only [bboxPtr, IsBBoxDefined, intersectsDispatch]
  cases (polygon w).IntersectsBBox bm <;> simp

/-! ### Within does not imply Intersects -/

/-- The square `[0, 10]²` with the hole `[4, 6]²`, and the line along the hole's lower edge:
the line is within the polygon, whose region holds the hole's boundary, and does not meet it. -/
theorem lineString_on_hole_within_not_intersects :
    (do
      let g ← fillLineString ([⟨4, 4, 0⟩, ⟨6, 4, 0⟩] : List (Position ℚ)) none
      let q ← fillPolygon [[⟨0, 0, 0⟩, ⟨10, 0, 0⟩, ⟨10, 10, 0⟩, ⟨0, 10, 0⟩, ⟨0, 0, 0⟩],
        [⟨4, 4, 0⟩, ⟨6, 4, 0⟩, ⟨6, 6, 0⟩, ⟨4, 6, 0⟩, ⟨4, 4, 0⟩]] none
      pure (Within g (polygon q), Intersects g (polygon q)) :
        Except GeoError (Bool × Bool)) = .ok (true, false) := by
  obtain ⟨g, hg⟩ : ∃ g, fillLineString ([⟨4, 4, 0⟩, ⟨6, 4, 0⟩] : List (Position ℚ)) none =
      .ok g := ⟨_, rfl⟩
  obtain ⟨q, hq⟩ : ∃ q, fillPolygon ([[⟨0, 0, 0⟩, ⟨10, 0, 0⟩, ⟨10, 10, 0⟩, ⟨0, 10, 0⟩, ⟨0, 0, 0⟩],
      [⟨4, 4, 0⟩, ⟨6, 4, 0⟩, ⟨6, 6, 0⟩, ⟨4, 6, 0⟩, ⟨4, 4, 0⟩]] : List (List (Position ℚ))) none =
      .ok q := ⟨_, rfl⟩
  obtain ⟨rfl, -⟩ := fillLineString_none hg
  obtain ⟨hqc, hqb, hqd, hne⟩ := fillPolygon_none hq
  rw [hg, hq]
  simp only [bind, Except.bind, pure, Except.pure]
  rw [Within_lineString_polygon hqb hqd (hqc ▸ hne),
    Intersects_lineString_polygon hqb hqd (hqc ▸ hne), hqc]
  simp only [polyExteriorHoles, List.headD_cons, List.tail_cons]
  -- both vertices lie on the hole's edge, which the hole test counts as inside the hole
  rw [Poly.Polygon.LineStringIntersects, doesIntersects_of_inside_hole true (by decide)
    (by decide) (by with_unfolding_all decide) (List.mem_singleton_self _) (by with_unfolding_all decide)]
  with_unfolding_all decide

/-! ### Intersects is not symmetric -/

/-- The triangle `(0,0), (4,0), (0,4)` and the multipoint of `(3, 3)`, outside the triangle and
inside its box: the multipoint meets the triangle, which does not meet the multipoint. -/
theorem multiPoint_triangle_intersects_one_way :
    (do
      let q ← fillPolygon ([[⟨0, 0, 0⟩, ⟨4, 0, 0⟩, ⟨0, 4, 0⟩, ⟨0, 0, 0⟩]] : List (List (Position ℚ)))
        none
      let g := fillMultiPoint [⟨3, 3, 0⟩] none
      pure (Intersects g (polygon q), Intersects (polygon q) g) :
        Except GeoError (Bool × Bool)) = .ok (true, false) := by
  have hq : fillPolygon ([[⟨0, 0, 0⟩, ⟨4, 0, 0⟩, ⟨0, 4, 0⟩, ⟨0, 0, 0⟩]] :
      List (List (Position ℚ))) none = .ok ⟨[[⟨0, 0, 0⟩, ⟨4, 0, 0⟩, ⟨0, 4, 0⟩, ⟨0, 0, 0⟩]],
        some (level3CalculatedBBox [[⟨0, 0, 0⟩, ⟨4, 0, 0⟩, ⟨0, 4, 0⟩, ⟨0, 0, 0⟩]] none true),
        false⟩ := rfl
  rw [hq]
  simp only [bind, Except.bind, pure, Except.pure, fillMultiPoint, fillBBoxFields,
    Option.getD_none, Option.isSome_none]
  rw [Intersects_multiPoint_polygon rfl rfl (List.cons_ne_nil _ _), Intersects_polygon_multiPoint]
  -- the triangle's box test against the point's box already fails
  with_unfolding_all decide

/-! ### Against a polygon query, Intersects is not complete -/

/-- The square `[0, 10]²` with a U-shaped hole whose arms rise on either side of the solid notch
`3 ≤ x ≤ 7, y ≥ 3`: the line from `(2, 6)` to `(8, 6)` crosses the notch at `(5, 6)`, a point
of the polygon, and its ends lie in the arms. The point `(5, 6)` is on the line and meets the
polygon; the line does not meet it. -/
theorem lineString_across_notch_not_intersects :
    (do
      let g ← fillLineString ([⟨2, 6, 0⟩, ⟨8, 6, 0⟩] : List (Position ℚ)) none
      let q ← fillPolygon [[⟨0, 0, 0⟩, ⟨10, 0, 0⟩, ⟨10, 10, 0⟩, ⟨0, 10, 0⟩, ⟨0, 0, 0⟩],
        [⟨1, 1, 0⟩, ⟨9, 1, 0⟩, ⟨9, 9, 0⟩, ⟨7, 9, 0⟩, ⟨7, 3, 0⟩, ⟨3, 3, 0⟩, ⟨3, 9, 0⟩,
          ⟨1, 9, 0⟩, ⟨1, 1, 0⟩]] none
      let p := fillSimplePointOrPoint ⟨5, 6, 0⟩ none
      pure (Within p g, Intersects p (polygon q), Intersects g (polygon q)) :
        Except GeoError (Bool × Bool × Bool)) = .ok (true, true, false) := by
  obtain ⟨g, hg⟩ : ∃ g, fillLineString ([⟨2, 6, 0⟩, ⟨8, 6, 0⟩] : List (Position ℚ)) none =
      .ok g := ⟨_, rfl⟩
  obtain ⟨q, hq⟩ : ∃ q, fillPolygon ([[⟨0, 0, 0⟩, ⟨10, 0, 0⟩, ⟨10, 10, 0⟩, ⟨0, 10, 0⟩, ⟨0, 0, 0⟩],
      [⟨1, 1, 0⟩, ⟨9, 1, 0⟩, ⟨9, 9, 0⟩, ⟨7, 9, 0⟩, ⟨7, 3, 0⟩, ⟨3, 3, 0⟩, ⟨3, 9, 0⟩, ⟨1, 9, 0⟩,
        ⟨1, 1, 0⟩]] : List (List (Position ℚ))) none = .ok q := ⟨_, rfl⟩
  have hp : fillSimplePointOrPoint (⟨5, 6, 0⟩ : Position ℚ) none = simplePoint 5 6 := rfl
  obtain ⟨rfl, -⟩ := fillLineString_none hg
  obtain ⟨hqc, hqb, hqd, hne⟩ := fillPolygon_none hq
  rw [hg, hq]
  simp only [bind, Except.bind, pure, Except.pure, hp]
  rw [Within_simplePoint_lineString (List.cons_ne_nil _ _),
    Intersects_simplePoint_polygon hqb hqd (hqc ▸ hne),
    Intersects_lineString_polygon hqb hqd (hqc ▸ hne), hqc]
  simp only [polyExteriorHoles, List.headD_cons, List.tail_cons]
  -- both ends lie in the hole's arms, so the hole test answers before the notch is seen
  rw [Poly.Polygon.LineStringIntersects, doesIntersects_of_inside_hole true (by decide)
    (by decide) (by with_unfolding_all decide) (List.mem_singleton_self _) (by with_unfolding_all decide)]
  with_unfolding_all decide

/-! ### Against a polygon query, Within is not complete -/

/-- The square `[0, 10]²` with the hole `[4, 6]²`, and the closed line around the hole along
`[3, 7]²`: every point of the line lies in the polygon, and the line is not within it, since
its ring encloses the hole. -/
theorem lineString_around_hole_not_within :
    (do
      let g ← fillLineString ([⟨3, 3, 0⟩, ⟨7, 3, 0⟩, ⟨7, 7, 0⟩, ⟨3, 7, 0⟩, ⟨3, 3, 0⟩] :
        List (Position ℚ)) none
      let q ← fillPolygon [[⟨0, 0, 0⟩, ⟨10, 0, 0⟩, ⟨10, 10, 0⟩, ⟨0, 10, 0⟩, ⟨0, 0, 0⟩],
        [⟨4, 4, 0⟩, ⟨6, 4, 0⟩, ⟨6, 6, 0⟩, ⟨4, 6, 0⟩, ⟨4, 4, 0⟩]] none
      pure (Within g (polygon q)) : Except GeoError Bool) = .ok false := by
  obtain ⟨g, hg⟩ : ∃ g, fillLineString ([⟨3, 3, 0⟩, ⟨7, 3, 0⟩, ⟨7, 7, 0⟩, ⟨3, 7, 0⟩, ⟨3, 3, 0⟩] :
      List (Position ℚ)) none = .ok g := ⟨_, rfl⟩
  obtain ⟨q, hq⟩ : ∃ q, fillPolygon ([[⟨0, 0, 0⟩, ⟨10, 0, 0⟩, ⟨10, 10, 0⟩, ⟨0, 10, 0⟩, ⟨0, 0, 0⟩],
      [⟨4, 4, 0⟩, ⟨6, 4, 0⟩, ⟨6, 6, 0⟩, ⟨4, 6, 0⟩, ⟨4, 4, 0⟩]] : List (List (Position ℚ))) none =
      .ok q := ⟨_, rfl⟩
  obtain ⟨rfl, -⟩ := fillLineString_none hg
  obtain ⟨hqc, hqb, hqd, hne⟩ := fillPolygon_none hq
  rw [hg, hq]
  simp only [bind, Except.bind, pure, Except.pure]
  rw [Within_lineString_polygon hqb hqd (hqc ▸ hne), hqc]
  simp only [polyExteriorHoles, List.headD_cons, List.tail_cons]
  -- the hole's corners lie inside the line's ring
  rw [Inside_of_hole_inside (List.mem_singleton_self _) (by with_unfolding_all decide), Bool.and_false]

/-! ### A multipolygon of one polygon is not that polygon -/

/-- The square `[1, 2]²` inside the square `[0, 4]²`: as a polygon it is within the larger
square, as a multipolygon of that one polygon it is not. -/
theorem multiPolygon_single_not_within :
    (do
      let p ← fillPolygon ([[⟨1, 1, 0⟩, ⟨2, 1, 0⟩, ⟨2, 2, 0⟩, ⟨1, 2, 0⟩, ⟨1, 1, 0⟩]] :
        List (List (Position ℚ))) none
      let w ← fillMultiPolygon [[[⟨1, 1, 0⟩, ⟨2, 1, 0⟩, ⟨2, 2, 0⟩, ⟨1, 2, 0⟩, ⟨1, 1, 0⟩]]] none
      let q ← fillPolygon [[⟨0, 0, 0⟩, ⟨4, 0, 0⟩, ⟨4, 4, 0⟩, ⟨0, 4, 0⟩, ⟨0, 0, 0⟩]] none
      pure (Within (polygon p) (polygon q), Within w (polygon q)) :
        Except GeoError (Bool × Bool)) = .ok (true, false) := by
  have hp : fillPolygon ([[⟨1, 1, 0⟩, ⟨2, 1, 0⟩, ⟨2, 2, 0⟩, ⟨1, 2, 0⟩, ⟨1, 1, 0⟩]] :
      List (List (Position ℚ))) none =
      .ok ⟨[[⟨1, 1, 0⟩, ⟨2, 1, 0⟩, ⟨2, 2, 0⟩, ⟨1, 2, 0⟩, ⟨1, 1, 0⟩]],
        some (level3CalculatedBBox [[⟨1, 1, 0⟩, ⟨2, 1, 0⟩, ⟨2, 2, 0⟩, ⟨1, 2, 0⟩, ⟨1, 1, 0⟩]] none
          true), false⟩ := rfl
  have hw : fillMultiPolygon ([[[⟨1, 1, 0⟩, ⟨2, 1, 0⟩, ⟨2, 2, 0⟩, ⟨1, 2, 0⟩, ⟨1, 1, 0⟩]]] :
      List (List (List (Position ℚ)))) none =
      .ok (multiPolygon [[[⟨1, 1, 0⟩, ⟨2, 1, 0⟩, ⟨2, 2, 0⟩, ⟨1, 2, 0⟩, ⟨1, 1, 0⟩]]]
        (some (calculatedBBox [⟨[[⟨1, 1, 0⟩, ⟨2, 1, 0⟩, ⟨2, 2, 0⟩, ⟨1, 2, 0⟩, ⟨1, 1, 0⟩]],
          some (level3CalculatedBBox [[⟨1, 1, 0⟩, ⟨2, 1, 0⟩, ⟨2, 2, 0⟩, ⟨1, 2, 0⟩, ⟨1, 1, 0⟩]]
            none true), false⟩] none)) false
        [⟨[[⟨1, 1, 0⟩, ⟨2, 1, 0⟩, ⟨2, 2, 0⟩, ⟨1, 2, 0⟩, ⟨1, 1, 0⟩]],
          some (level3CalculatedBBox [[⟨1, 1, 0⟩, ⟨2, 1, 0⟩, ⟨2, 2, 0⟩, ⟨1, 2, 0⟩, ⟨1, 1, 0⟩]]
            none true), false⟩]) := rfl
  have hq : fillPolygon ([[⟨0, 0, 0⟩, ⟨4, 0, 0⟩, ⟨4, 4, 0⟩, ⟨0, 4, 0⟩, ⟨0, 0, 0⟩]] :
      List (List (Position ℚ))) none =
      .ok ⟨[[⟨0, 0, 0⟩, ⟨4, 0, 0⟩, ⟨4, 4, 0⟩, ⟨0, 4, 0⟩, ⟨0, 0, 0⟩]],
        some (level3CalculatedBBox [[⟨0, 0, 0⟩, ⟨4, 0, 0⟩, ⟨4, 4, 0⟩, ⟨0, 4, 0⟩, ⟨0, 0, 0⟩]] none
          true), false⟩ := rfl
  rw [hp, hw, hq]
  simp only [bind, Except.bind, pure, Except.pure]
  rw [Within_polygon rfl rfl rfl (List.cons_ne_nil _ _),
    Within_multiPolygon_polygon rfl rfl (List.cons_ne_nil _ _) _ _ _ _ (List.cons_ne_nil _ _)]
  -- the swapped call asks whether the larger square lies within the small one's box
  rw [Bool.eq_false_iff.mpr fun h => absurd (WithinBBox_of_Within h rfl) (by with_unfolding_all decide)]
  with_unfolding_all decide

/-! ### IntersectsBBox of a line follows the closed ring -/

/-- A segment `[p_i, p_{i+1}]` of the open polyline through `cs` has a point in the closed
rectangle of `b`. -/
def PolylineMeetsBBox (cs : List (Position α)) (b : Geojson.BBox α) : Prop :=
  ∃ e ∈ cs.zip cs.tail, ∃ t : α, 0 ≤ t ∧ t ≤ 1 ∧
    b.Min.X ≤ e.1.X + t * (e.2.X - e.1.X) ∧ e.1.X + t * (e.2.X - e.1.X) ≤ b.Max.X ∧
    b.Min.Y ≤ e.1.Y + t * (e.2.Y - e.1.Y) ∧ e.1.Y + t * (e.2.Y - e.1.Y) ≤ b.Max.Y

/-- The L-shaped line `(0, 0), (10, 0), (10, 10)` and the box `[4, 6] × [3, 7]` beside the
diagonal: no segment of the line reaches the box, only the closing edge from `(10, 10)` back to
`(0, 0)` does, through `(5, 5)`; `IntersectsBBox` reports the box. -/
theorem lineString_closing_edge_intersectsBBox :
    (do
      let g ← fillLineString ([⟨0, 0, 0⟩, ⟨10, 0, 0⟩, ⟨10, 10, 0⟩] : List (Position ℚ)) none
      pure (g.IntersectsBBox ⟨⟨4, 3, 0⟩, ⟨6, 7, 0⟩⟩) : Except GeoError Bool) = .ok true ∧
    ¬PolylineMeetsBBox ([⟨0, 0, 0⟩, ⟨10, 0, 0⟩, ⟨10, 10, 0⟩] : List (Position ℚ))
      ⟨⟨4, 3, 0⟩, ⟨6, 7, 0⟩⟩ ∧
    PolylineMeetsBBox ([⟨0, 0, 0⟩, ⟨10, 0, 0⟩, ⟨10, 10, 0⟩, ⟨0, 0, 0⟩] : List (Position ℚ))
      ⟨⟨4, 3, 0⟩, ⟨6, 7, 0⟩⟩ := by
  refine ⟨by with_unfolding_all decide, ?_, ?_⟩
  · rintro ⟨e, he, t, ht0, ht1, hx0, hx1, hy0, hy1⟩
    simp only [List.tail_cons, List.zip_cons_cons, List.zip_nil_right, List.mem_cons,
      List.not_mem_nil, or_false] at he
    rcases he with rfl | rfl
    · norm_num at hy0
    · norm_num at hx1
  · refine ⟨(⟨10, 10, 0⟩, ⟨0, 0, 0⟩), by simp, 1 / 2, by norm_num, by norm_num, by norm_num,
      by norm_num, by norm_num, by norm_num⟩

/-! ### WithinBBox of a polygon with holes asks the other way round -/

/-- A polygon with a hole ring is within a rectangle only if the rectangle is inside the
polygon: a rectangle whose bottom edge runs below the whole exterior ring is refused, however
far it reaches around the ring. -/
theorem WithinBBox_holes_below {g : Geojson.Polygon α} {b : Geojson.BBox α}
    (hd : g.bboxDefined = false) (hholes : g.Coordinates.tail ≠ [])
    (hbelow : ∀ q ∈ g.Coordinates.headD [], b.Min.Y < q.Y) :
    Polygon.WithinBBox g b = false := by
  have hne : g.Coordinates ≠ [] := by rintro h; simp [h] at hholes
  have hrect : ∀ q ∈ g.Coordinates.headD [], (rectBBox b).Min.Y < q.Y := hbelow
  simp only [Polygon.WithinBBox, hd, hne, polyExteriorHoles, ne_eq, hholes, not_false_eq_true,
    if_true, Bool.false_eq_true, if_false]
  split_ifs with hptr hdeg
  · rfl
  · exact Poly.Point.Inside_of_below hrect _
  · exact Poly.Rect.Inside_of_below hrect _


/-- The square `[0, 10]²` with the hole `[4, 6]²`, read without a `bbox` member, and the
rectangle `[-1, 11]²`: every position of the exterior ring lies in the rectangle, and
`WithinBBox` refuses it. -/
theorem WithinBBox_holes_below_square :
    (do
      let g ← fillPolygon ([[⟨0, 0, 0⟩, ⟨10, 0, 0⟩, ⟨10, 10, 0⟩, ⟨0, 10, 0⟩, ⟨0, 0, 0⟩],
        [⟨4, 4, 0⟩, ⟨6, 4, 0⟩, ⟨6, 6, 0⟩, ⟨4, 6, 0⟩, ⟨4, 4, 0⟩]] : List (List (Position ℚ))) none
      pure ((g.Coordinates.headD []).all (·.InsideRect (rectBBox ⟨⟨-1, -1, 0⟩, ⟨11, 11, 0⟩⟩)),
        Polygon.WithinBBox g ⟨⟨-1, -1, 0⟩, ⟨11, 11, 0⟩⟩) : Except GeoError (Bool × Bool)) =
      .ok (true, false) := by
  obtain ⟨g, hg⟩ : ∃ g, fillPolygon ([[⟨0, 0, 0⟩, ⟨10, 0, 0⟩, ⟨10, 10, 0⟩, ⟨0, 10, 0⟩, ⟨0, 0, 0⟩],
      [⟨4, 4, 0⟩, ⟨6, 4, 0⟩, ⟨6, 6, 0⟩, ⟨4, 6, 0⟩, ⟨4, 4, 0⟩]] : List (List (Position ℚ))) none =
      .ok g := ⟨_, rfl⟩
  obtain ⟨hc, -, hd, -⟩ := fillPolygon_none hg
  rw [hg]
  simp only [bind, Except.bind, pure, Except.pure]
  rw [WithinBBox_holes_below hd (by simp [hc]) (by simp [hc]; norm_num), hc]
  with_unfolding_all decide

end Object

end Geojson
