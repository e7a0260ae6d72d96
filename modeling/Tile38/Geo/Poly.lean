import Tile38.Lib.Extended
import Mathlib.Data.List.Rotate

/-!
# Point-in-polygon and segment tests (pkg/geojson/poly)

The `poly` package tests points, rings and rectangles against a polygon given by an exterior
ring and hole rings. `raycast` decides, for one edge, whether the point lies on it (`on`) and
whether a ray from the point to `-X` crosses it (`in`, Go's field `in`); `insideshpext` walks
the edges `shape[i] → shape[(i+1) % n]` and returns early on an edge the point lies on. A ring
is inside a polygon when all of its vertices are, and no hole lies inside the ring: nothing
tests whether an edge of the ring leaves the polygon between two vertices.

Coordinates are read exactly over an ordered field. `raycast` divides by differences that may
be zero, read with `Extended.div`; its loop `for p.Y == a.Y || p.Y == b.Y` nudges `p.Y` up with
`Nextafter`, read as `p.Y + ε` (`Extended.Eps`).
-/

namespace Poly

open Extended

universe u
variable {α : Type u}

/-- `poly.Point`. -/
structure Point (α : Type u) where
  X : α
  Y : α
  Z : α
  deriving DecidableEq, Repr

/-- `poly.Rect`. -/
structure Rect (α : Type u) where
  Min : Point α
  Max : Point α
  deriving DecidableEq, Repr

/-- `poly.Polygon`, a series of points. -/
abbrev Polygon (α : Type u) := List (Point α)

/-- The edges `shape[i] → shape[(i+1) % len(shape)]` that the loops of the package walk. -/
def edges (shape : Polygon α) : List (Point α × Point α) :=
  shape.zip (shape.rotate 1)

section Order

variable [LinearOrder α]

def Point.InsideRect (p : Point α) (rect : Rect α) : Bool :=
  !(p.X < rect.Min.X || p.X > rect.Max.X) && !(p.Y < rect.Min.Y || p.Y > rect.Max.Y)

/-- `Polygon.InsideRect(rect)`: false for no points. -/
def Polygon.InsideRect (p : Polygon α) (rect : Poly.Rect α) : Bool :=
  p ≠ [] && p.all (·.InsideRect rect)

def Rect.IntersectsRect (r rect : Rect α) : Bool :=
  !(r.Min.Y > rect.Max.Y || r.Max.Y < rect.Min.Y) &&
    !(r.Min.X > rect.Max.X || r.Max.X < rect.Min.X)

def Rect.InsideRect (r rect : Rect α) : Bool :=
  !(r.Min.X < rect.Min.X || r.Max.X > rect.Max.X) &&
    !(r.Min.Y < rect.Min.Y || r.Max.Y > rect.Max.Y)

/-- One step of `Polygon.Rect()`: a point widens the box on each axis (the source widens the
maximum only when the point is not below the minimum). -/
def rectStep (bbox : Rect α) (p : Point α) : Rect α :=
  let minX := if p.X < bbox.Min.X then p.X else bbox.Min.X
  let maxX := if p.X < bbox.Min.X then bbox.Max.X else if p.X > bbox.Max.X then p.X else bbox.Max.X
  let minY := if p.Y < bbox.Min.Y then p.Y else bbox.Min.Y
  let maxY := if p.Y < bbox.Min.Y then bbox.Max.Y else if p.Y > bbox.Max.Y then p.Y else bbox.Max.Y
  ⟨⟨minX, minY, bbox.Min.Z⟩, ⟨maxX, maxY, bbox.Max.Z⟩⟩

/-- `Polygon.Rect()`: the bounding box of the points, the zero rectangle for none. -/
def Polygon.Rect [Zero α] : Polygon α → Poly.Rect α
  | [] => ⟨⟨0, 0, 0⟩, ⟨0, 0, 0⟩⟩
  | p :: ps => ps.foldl rectStep ⟨p, p⟩

end Order

section Field

variable [Field α] [LinearOrder α]

/-- `Rect.Polygon()`: the ring of the rectangle's corners. -/
def Rect.Polygon (r : Rect α) : Polygon α :=
  [⟨r.Min.X, r.Max.Y, 0⟩, ⟨r.Max.X, r.Max.Y, 0⟩, ⟨r.Max.X, r.Min.Y, 0⟩, ⟨r.Min.X, r.Min.Y, 0⟩,
    ⟨r.Min.X, r.Max.Y, 0⟩]

/-! ### raycast -/

/-- `rayres`; `inside` is the source's field `in`. -/
structure rayres where
  inside : Bool
  on : Bool
  deriving DecidableEq, Repr

/-- The nudge `for p.Y == a.Y || p.Y == b.Y { p.Y = Nextafter(p.Y, +Inf) }`, with the number of
rounds bounded (two always suffice: `nudge_ne`). -/
def nudge : Nat → Eps α → Eps α → Eps α → Eps α
  | 0, y, _, _ => y
  | n + 1, y, a, b => if y = a ∨ y = b then nudge n (Eps.nextUp y) a b else y

/-- The point lies on a horizontal edge: the block `if p.Y == b.Y` of a segment with
`a.Y == b.Y`. -/
def onHorizontal (p a b : Point α) : Prop :=
  a.Y = b.Y ∧ p.Y = b.Y ∧ (if a.X < b.X then p.X ≥ a.X ∧ p.X ≤ b.X else p.X ≥ b.X ∧ p.X ≤ a.X)

/-- The point lies on a vertical edge: the block `if a.X == b.X && p.X == b.X`. -/
def onVertical (p a b : Point α) : Prop :=
  a.X = b.X ∧ p.X = b.X ∧ (if a.Y < b.Y then p.Y ≥ a.Y ∧ p.Y ≤ b.Y else p.Y ≥ b.Y ∧ p.Y ≤ a.Y)

instance (p a b : Point α) : Decidable (onHorizontal p a b) :=
  inferInstanceAs (Decidable (_ ∧ _ ∧ _))

instance (p a b : Point α) : Decidable (onVertical p a b) :=
  inferInstanceAs (Decidable (_ ∧ _ ∧ _))

/-- The part of `raycast` after the nudge: where the ray from the nudged point crosses the
edge. -/
def rayCross (p a b : Point α) : rayres :=
  let py : Eps α := nudge 2 (p.Y : Eps α) a.Y b.Y
  if (if a.Y < b.Y then py < a.Y ∨ py > b.Y else py < b.Y ∨ py > a.Y) then ⟨false, false⟩
  else if a.X > b.X ∧ p.X > a.X then ⟨false, false⟩
  else if a.X > b.X ∧ p.X < b.X then ⟨true, false⟩
  else if ¬a.X > b.X ∧ p.X > b.X then ⟨false, false⟩
  else if ¬a.X > b.X ∧ p.X < a.X then ⟨true, false⟩
  else if (if a.Y < b.Y then
      (div (py - a.Y) (p.X - a.X : α)).ge (div (b.Y - a.Y : α) (b.X - a.X : α))
    else (div (py - b.Y) (p.X - b.X : α)).ge (div (a.Y - b.Y : α) (a.X - b.X : α))) then
    ⟨true, false⟩
  else ⟨false, false⟩

def raycast (p a b : Point α) : rayres :=
  -- outside the edge's span of Y
  if (a.Y < b.Y ∧ (p.Y < a.Y ∨ p.Y > b.Y)) ∨ (¬a.Y < b.Y ∧ a.Y > b.Y ∧ (p.Y < b.Y ∨ p.Y > a.Y))
  then ⟨false, false⟩
  else if a.Y = b.Y ∧ a.X = b.X then (if p = a then ⟨false, true⟩ else ⟨false, false⟩)
  else if onHorizontal p a b ∨ onVertical p a b ∨
      (div (p.X - a.X) (b.X - a.X)).beq (div (p.Y - a.Y) (b.Y - a.Y)) then ⟨false, true⟩
  else rayCross p a b

/-- The loop of `insideshpext` over the remaining edges, with the parity so far. -/
def insideLoop (p : Point α) (exterior : Bool) : List (Point α × Point α) → Bool → Bool
  | [], inn => inn
  | (a, b) :: es, inn =>
    if (raycast p a b).on then exterior
    else insideLoop p exterior es (if (raycast p a b).inside then !inn else inn)

/-- `insideshpext(p, shape, exterior)`: the parity of crossings, or `exterior` when the point
lies on an edge. -/
def insideshpext (p : Point α) (shape : Polygon α) (exterior : Bool) : Bool :=
  insideLoop p exterior (edges shape) false

def Point.Inside (p : Point α) (exterior : Polygon α) (holes : List (Polygon α)) : Bool :=
  insideshpext p exterior true && !holes.any (fun h => insideshpext p h false)

/-- `Polygon.Inside(exterior, holes)`: every vertex is inside, and no hole lies inside the
shape. A hole is tested with `hole.Inside(shape, nil)`, whose hole loop is empty. -/
def Polygon.Inside (shape exterior : Polygon α) (holes : List (Polygon α)) : Bool :=
  shape.all (·.Inside exterior holes) && !holes.any (fun hole => hole.all (·.Inside shape []))

def Rect.Inside (r : Rect α) (exterior : Poly.Polygon α) (holes : List (Poly.Polygon α)) :
    Bool :=
  r.Polygon.Inside exterior holes

/-! ### Intersection -/

/-- `lineintersects(a, b, c, d)`, the package's test of the segments `[a, b]` and `[c, d]`:
the boxes of the segments overlap, then either the segments are collinear and the source's
overlap test passes, or they are not parallel and the crossing parameters `t` and `u` lie in
`[0, 1]`. -/
def lineintersects (a b c d : Point α) : Bool :=
  -- do the bounding boxes intersect?
  let yApart :=
    if a.Y > b.Y then (if c.Y > d.Y then b.Y > c.Y ∨ a.Y < d.Y else b.Y > d.Y ∨ a.Y < c.Y)
    else (if c.Y > d.Y then a.Y > c.Y ∨ b.Y < d.Y else a.Y > d.Y ∨ b.Y < c.Y)
  let xApart :=
    if a.X > b.X then (if c.X > d.X then b.X > c.X ∨ a.X < d.X else b.X > d.X ∨ a.X < c.X)
    else (if c.X > d.X then a.X > c.X ∨ b.X < d.X else a.X > d.X ∨ b.X < c.X)
  if yApart then false
  else if xApart then false
  else
    let cmpx := c.X - a.X
    let cmpy := c.Y - a.Y
    let rx := b.X - a.X
    let ry := b.Y - a.Y
    let cmpxr := cmpx * ry - cmpy * rx
    if cmpxr = 0 then
      -- collinear: they meet when they overlap
      ((c.X - a.X ≤ 0) ≠ (c.X - b.X ≤ 0)) ∨ ((c.Y - a.Y ≤ 0) ≠ (c.Y - b.Y ≤ 0))
    else
      let sx := d.X - c.X
      let sy := d.Y - c.Y
      let cmpxs := cmpx * sy - cmpy * sx
      let rxs := rx * sy - ry * sx
      if rxs = 0 then false
      else
        let rxsr := 1 / rxs
        let t := cmpxs * rxsr
        let u := cmpxr * rxsr
        t ≥ 0 ∧ t ≤ 1 ∧ u ≥ 0 ∧ u ≤ 1

/-- Some edge of `shape` meets some edge of `exterior`: the double loop of
`LineStringIntersectsLineString` and `doesIntersects`. -/
def edgesIntersect (shape exterior : Polygon α) : Bool :=
  (edges shape).any fun e => (edges exterior).any fun f => lineintersects e.1 e.2 f.1 f.2

/-- `Point.IntersectsLineString(exterior)`: the point lies on an edge of the ring. -/
def Point.IntersectsLineString (p : Point α) (exterior : Polygon α) : Bool :=
  (edges exterior).any fun e => (raycast p e.1 e.2).on

def Point.Intersects (p : Point α) (exterior : Polygon α) (holes : List (Polygon α)) : Bool :=
  p.Inside exterior holes

def Polygon.doesIntersects (shape : Polygon α) (isLineString : Bool) (exterior : Polygon α)
    (holes : List (Polygon α)) : Bool :=
  match shape, exterior with
  | [], _ => false
  | [_], [] => false
  | [s], [e] => s.X = e.X ∧ s.Y = s.Y
  | [s], _ :: _ :: _ => s.Inside exterior holes
  | _ :: _ :: _, [] => false
  | _ :: _ :: _, [e] => e.Inside shape holes
  | _ :: _ :: _, _ :: _ :: _ =>
    if !(shape.Rect.IntersectsRect exterior.Rect) then false
    else if edgesIntersect shape exterior then true
    else if holes.any (fun hole => shape.Inside hole []) then false
    else if shape.Inside exterior [] then true
    else if !isLineString then exterior.Inside shape []
    else false

def Polygon.Intersects (shape exterior : Polygon α) (holes : List (Polygon α)) : Bool :=
  shape.doesIntersects false exterior holes

def Polygon.LineStringIntersects (shape exterior : Polygon α) (holes : List (Polygon α)) :
    Bool :=
  shape.doesIntersects true exterior holes

def Polygon.LineStringIntersectsLineString (shape exterior : Polygon α) : Bool :=
  edgesIntersect shape exterior

def Rect.Intersects (r : Rect α) (exterior : Poly.Polygon α) (holes : List (Poly.Polygon α)) :
    Bool :=
  r.Polygon.Intersects exterior holes

/-- Two rounds of the nudge always end the loop: from a number the first round moves off every
number, so the loop condition is false at the value `rayCross` uses. -/
theorem nudge_ne (y a b : α) :
    nudge 2 (y : Eps α) a b ≠ (a : Eps α) ∧ nudge 2 (y : Eps α) a b ≠ (b : Eps α) := by
  by_cases h : (y : Eps α) = a ∨ (y : Eps α) = b
  · have hstop : ¬(Eps.nextUp (y : Eps α) = a ∨ Eps.nextUp (y : Eps α) = b) := by
      rintro (h1 | h1) <;> exact Eps.nextUp_coe_ne _ _ h1
    simp only [nudge, if_pos h, if_neg hstop]
    exact ⟨Eps.nextUp_coe_ne y a, Eps.nextUp_coe_ne y b⟩
  · simp only [nudge, if_neg h]
    simp only [not_or] at h
    exact h

/-! ### A point below a ring -/

section Below

variable {p : Point α}

theorem nudge_of_ne {y a b : α} (ha : y ≠ a) (hb : y ≠ b) :
    nudge 2 (y : Eps α) a b = y := by
  have hne : ¬((y : Eps α) = a ∨ (y : Eps α) = b) := by
    rintro (h | h) <;> simp [Eps.ext_iff'] at h <;> contradiction
  simp only [nudge, if_neg hne]

theorem raycast_of_below {p a b : Point α} (ha : p.Y < a.Y) (hb : p.Y < b.Y) :
    raycast p a b = ⟨false, false⟩ := by
  rcases lt_trichotomy a.Y b.Y with hab | hab | hab
  · simp [raycast, hab, ha]
  · have hspan : ¬((a.Y < b.Y ∧ (p.Y < a.Y ∨ p.Y > b.Y)) ∨
        (¬a.Y < b.Y ∧ a.Y > b.Y ∧ (p.Y < b.Y ∨ p.Y > a.Y))) := by
      simp [hab]
    by_cases hx : a.X = b.X
    · have hpa : p ≠ a := fun h => (ne_of_lt ha) (congrArg Point.Y h)
      simp [raycast, hab, hx, hpa]
    · have hh : ¬onHorizontal p a b := fun h => (ne_of_lt hb) h.2.1
      have hv : ¬onVertical p a b := fun h => hx h.1
      have hdiv : (div (p.X - a.X) (b.X - a.X)).beq (div (p.Y - a.Y) (b.Y - a.Y)) = false := by
        -- a number against a division by zero
        rw [div_of_ne_zero _ (sub_ne_zero.mpr (Ne.symm hx)), hab, sub_self]
        simp only [div]
        split_ifs <;> rfl
      have hpy : nudge 2 (p.Y : Eps α) a.Y b.Y = p.Y := nudge_of_ne (ne_of_lt ha) (ne_of_lt hb)
      have hcross : rayCross p a b = ⟨false, false⟩ := by
        simp only [rayCross]
        rw [hpy]
        simp [hab, hb]
      rw [raycast, if_neg hspan, if_neg (fun h => hx h.2), if_neg (by simp [hh, hv, hdiv]), hcross]
  · simp [raycast, hab, not_lt_of_gt hab, hb]


theorem insideLoop_of_below {exterior : Bool} {es : List (Point α × Point α)}
    (h : ∀ e ∈ es, p.Y < e.1.Y ∧ p.Y < e.2.Y) (inn : Bool) :
    insideLoop p exterior es inn = inn := by
  induction es generalizing inn with
  | nil => rfl
  | cons e es ih =>
    obtain ⟨ha, hb⟩ := h e (by simp)
    rw [insideLoop, raycast_of_below ha hb]
    simpa using ih (fun e' he' => h e' (by simp [he'])) inn

theorem insideshpext_of_below {shape : Polygon α} (h : ∀ q ∈ shape, p.Y < q.Y)
    (exterior : Bool) : insideshpext p shape exterior = false := by
  apply insideLoop_of_below
  intro e he
  have hmem := List.of_mem_zip he
  exact ⟨h _ hmem.1, h _ (List.mem_rotate.mp hmem.2)⟩

theorem Point.Inside_of_below {exterior : Polygon α} (h : ∀ q ∈ exterior, p.Y < q.Y)
    (holes : List (Polygon α)) : p.Inside exterior holes = false := by
  simp [Point.Inside, insideshpext_of_below h]

/-- A rectangle whose bottom edge runs below every vertex of the exterior ring is not inside
the polygon: its corner `(Min.X, Min.Y)` is outside. -/
theorem Rect.Inside_of_below {r : Rect α} {exterior : Poly.Polygon α}
    (h : ∀ q ∈ exterior, r.Min.Y < q.Y) (holes : List (Poly.Polygon α)) :
    r.Inside exterior holes = false := by
  have hcorner : (⟨r.Min.X, r.Min.Y, 0⟩ : Point α) ∈ r.Polygon := by simp [Rect.Polygon]
  have hout := Point.Inside_of_below (p := ⟨r.Min.X, r.Min.Y, 0⟩) h holes
  simp only [Rect.Inside, Polygon.Inside, Bool.and_eq_false_iff]
  left
  exact List.all_eq_false.mpr ⟨_, hcorner, by simp [hout]⟩

end Below

/-- `Polygon.IntersectsRect(rect)`: false for no points, otherwise the polygon intersects the
rectangle's ring. -/
def Polygon.IntersectsRect (p : Polygon α) (rect : Poly.Rect α) : Bool :=
  p ≠ [] &&
    p.Intersects [rect.Min, ⟨rect.Min.X, rect.Max.Y, 0⟩, rect.Max, ⟨rect.Max.X, rect.Min.Y, 0⟩,
      rect.Min] []

end Field

end Poly
