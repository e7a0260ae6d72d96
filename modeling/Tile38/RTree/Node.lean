import Tile38.Lib.Box
import Mathlib.Order.WithBot
import Mathlib.Algebra.Order.Monoid.WithTop
import Mathlib.Algebra.Ring.Defs

/-!
# R-tree nodes (`pkg/index/rtree/base.go`)

The tree has `D = 2` axes and fan-out `M = 13`. A `treeNode` is a leaf, whose children are
`treeItem`s, or a branch, whose children are nodes; the Go code keeps one record type and a
`leaf` flag, and the constructor plays the flag's part here. A node's bounding box is the
Go pair `min, max`, where the sentinel `(+∞, −∞)` of an empty node is `⊥`: `extend` then is
`⊔` exactly, for every finite coordinate.

Coordinates are an arbitrary linear order with ring operations, standing for `float64`
restricted to finite values. The area and margin heuristics give `+∞` and `−∞` the values
IEEE arithmetic gives them on the sentinel, in `WithTop` and `WithBot`.
-/

namespace Rtree

universe u v

/-- A two-axis box, `[D]float64` corners. -/
abbrev Rect (α : Type u) := Box (Fin 2) α

/-- `treeItem`: an entry of a leaf. -/
structure TreeItem (α : Type u) (ι : Type v) where
  min : Fin 2 → α
  max : Fin 2 → α
  item : ι

/-- `treeNode`. The height of a leaf is set to 1 by `createNode`; splits copy it. -/
inductive TreeNode (α : Type u) (ι : Type v) where
  | leaf (bbox : WithBot (Rect α)) (height : Nat) (children : List (TreeItem α ι))
  | branch (bbox : WithBot (Rect α)) (height : Nat) (children : List (TreeNode α ι))

variable {α : Type u} {ι : Type v}

namespace TreeItem

def rect (t : TreeItem α ι) : Rect α := ⟨t.min, t.max⟩

end TreeItem

namespace TreeNode

def bbox : TreeNode α ι → WithBot (Rect α)
  | .leaf b _ _ => b
  | .branch b _ _ => b

def height : TreeNode α ι → Nat
  | .leaf _ h _ => h
  | .branch _ h _ => h

/-- `count`: the number of children. -/
def count : TreeNode α ι → Nat
  | .leaf _ _ items => items.length
  | .branch _ _ cs => cs.length

@[simp] theorem bbox_leaf (b : WithBot (Rect α)) (h : Nat) (items : List (TreeItem α ι)) :
    (leaf b h items).bbox = b := rfl
@[simp] theorem bbox_branch (b : WithBot (Rect α)) (h : Nat) (cs : List (TreeNode α ι)) :
    (branch b h cs).bbox = b := rfl
@[simp] theorem height_leaf (b : WithBot (Rect α)) (h : Nat) (items : List (TreeItem α ι)) :
    (leaf b h items).height = h := rfl
@[simp] theorem height_branch (b : WithBot (Rect α)) (h : Nat) (cs : List (TreeNode α ι)) :
    (branch b h cs).height = h := rfl
@[simp] theorem count_leaf (b : WithBot (Rect α)) (h : Nat) (items : List (TreeItem α ι)) :
    (leaf b h items).count = items.length := rfl
@[simp] theorem count_branch (b : WithBot (Rect α)) (h : Nat) (cs : List (TreeNode α ι)) :
    (branch b h cs).count = cs.length := rfl

/-- `createNode(nil)`: an empty leaf of height 1. -/
def empty : TreeNode α ι := .leaf ⊥ 1 []

/-- The same node with its box replaced, as the in-place box updates do. -/
def setBBox (b : WithBot (Rect α)) : TreeNode α ι → TreeNode α ι
  | .leaf _ h items => .leaf b h items
  | .branch _ h cs => .branch b h cs

@[simp] theorem setBBox_bbox (b : WithBot (Rect α)) (n : TreeNode α ι) :
    (n.setBBox b).bbox = b := by cases n <;> rfl
@[simp] theorem setBBox_height (b : WithBot (Rect α)) (n : TreeNode α ι) :
    (n.setBBox b).height = n.height := by cases n <;> rfl
@[simp] theorem setBBox_count (b : WithBot (Rect α)) (n : TreeNode α ι) :
    (n.setBBox b).count = n.count := by cases n <;> rfl

/-- `childCount`: the number of items below a node. -/
def childCount : TreeNode α ι → Nat
  | .leaf _ _ items => items.length
  | .branch _ _ cs => childCountList cs
where
  childCountList : List (TreeNode α ι) → Nat
    | [] => 0
    | c :: cs => c.childCount + childCountList cs

end TreeNode

/-- `findItem`: the index of the first child carrying `item`. -/
def findItem [DecidableEq ι] (item : ι) (items : List (TreeItem α ι)) : Option Nat :=
  items.findIdx? fun t => t.item = item

section Boxes

variable [LinearOrder α]

/-- `distBBox(node, k, p, nil)`: the hull of the boxes of children `k ≤ i < p`. -/
def distBBox {β : Type*} (box : β → WithBot (Rect α)) (cs : List β) (k p : Nat) :
    WithBot (Rect α) :=
  ((cs.drop k).take (p - k)).foldl (fun acc c => acc ⊔ box c) ⊥

/-- `calcBBox`: the hull of all children. -/
def calcBBox {β : Type*} (box : β → WithBot (Rect α)) (cs : List β) : WithBot (Rect α) :=
  distBBox box cs 0 cs.length

/-- The box a child contributes: an item its rectangle, a node its bounding box. -/
def itemBox (t : TreeItem α ι) : WithBot (Rect α) := t.rect

def nodeBox (n : TreeNode α ι) : WithBot (Rect α) := n.bbox

section Hull

variable {β : Type*} (box : β → WithBot (Rect α))

theorem foldl_sup (cs : List β) (a : WithBot (Rect α)) :
    cs.foldl (fun acc c => acc ⊔ box c) a = a ⊔ calcBBox box cs := by
  induction cs generalizing a with
  | nil => simp [calcBBox, distBBox]
  | cons c cs ih =>
    have hc : calcBBox box (c :: cs) = box c ⊔ calcBBox box cs := by
      simp only [calcBBox, distBBox, List.drop_zero, Nat.sub_zero, List.take_length,
        List.foldl_cons, bot_sup_eq]
      exact (ih (box c)).trans (by simp [calcBBox, distBBox])
    rw [List.foldl_cons, ih, hc, sup_assoc]

@[simp] theorem calcBBox_nil : calcBBox box ([] : List β) = ⊥ := rfl

@[simp] theorem calcBBox_cons (c : β) (cs : List β) :
    calcBBox box (c :: cs) = box c ⊔ calcBBox box cs := by
  have h := foldl_sup box cs (box c)
  simp only [calcBBox, distBBox, List.drop_zero, Nat.sub_zero, List.take_length,
    List.foldl_cons, bot_sup_eq] at h ⊢
  exact h.trans (by simp)

theorem calcBBox_append (l₁ l₂ : List β) :
    calcBBox box (l₁ ++ l₂) = calcBBox box l₁ ⊔ calcBBox box l₂ := by
  induction l₁ with
  | nil => simp
  | cons c l ih => simp [ih, sup_assoc]

theorem calcBBox_le_iff {cs : List β} {b : WithBot (Rect α)} :
    calcBBox box cs ≤ b ↔ ∀ c ∈ cs, box c ≤ b := by
  induction cs with
  | nil => simp
  | cons c cs ih => simp [ih, sup_le_iff]

theorem le_calcBBox {cs : List β} {c : β} (hc : c ∈ cs) : box c ≤ calcBBox box cs :=
  calcBBox_le_iff box |>.mp le_rfl c hc

theorem calcBBox_perm {l₁ l₂ : List β} (h : l₁.Perm l₂) : calcBBox box l₁ = calcBBox box l₂ :=
  le_antisymm ((calcBBox_le_iff box).mpr fun _ hc => le_calcBBox box (h.subset hc))
    ((calcBBox_le_iff box).mpr fun _ hc => le_calcBBox box (h.symm.subset hc))

end Hull

/-- The result of `overlaps`. -/
inductive Overlap where
  | not
  | intersects
  | contains
  deriving DecidableEq

/-- One axis of `node.overlaps(b)`: `b` lies apart from the query box `node` on axis `i`. -/
def apartOn (node b : Rect α) (i : Fin 2) : Bool := b.lo i > node.hi i || b.hi i < node.lo i

/-- `b` sticks out of the query box on axis `i`. -/
def outsideOn (node b : Rect α) (i : Fin 2) : Bool := node.lo i > b.lo i || b.hi i > node.hi i

/-- The loop of `overlaps` over the remaining axes. -/
def overlapsAxes (node b : Rect α) : List (Fin 2) → Overlap
  | [] => .contains
  | i :: is =>
    if apartOn node b i then .not
    else if outsideOn node b i then (if is.any (apartOn node b) then .not else .intersects)
    else overlapsAxes node b is

/-- `node.overlaps(b)` for the query box `node`; the empty sentinel is apart from it. -/
def overlaps (node : Rect α) : WithBot (Rect α) → Overlap
  | ⊥ => .not
  | (b : Rect α) => overlapsAxes node b [0, 1]

/-- `node.contains(b)`: the node's box, possibly empty, contains `b`. -/
def contains (node : WithBot (Rect α)) (b : Rect α) : Prop := (b : WithBot (Rect α)) ≤ node

instance (node : WithBot (Rect α)) (b : Rect α) : Decidable (contains node b) :=
  inferInstanceAs (Decidable ((b : WithBot (Rect α)) ≤ node))

/-- `node.intersects(b)` for a node box, possibly empty, and a finite box. -/
def intersects (node : WithBot (Rect α)) (b : Rect α) : Prop :=
  match node with
  | ⊥ => False
  | (n : Rect α) => Box.Meets n b

instance (node : WithBot (Rect α)) (b : Rect α) : Decidable (intersects node b) := by
  cases node <;> unfold intersects <;> infer_instance

end Boxes

section Measures

variable [LinearOrder α] [CommRing α]

/-- The area of a finite box. -/
def boxArea (b : Rect α) : α := (b.hi 0 - b.lo 0) * (b.hi 1 - b.lo 1)

/-- `area`; the sentinel's area is `(−∞ − ∞)·(−∞ − ∞) = +∞`. -/
def area : WithBot (Rect α) → WithTop α
  | ⊥ => ⊤
  | (b : Rect α) => (boxArea b : α)

/-- `margin`; the sentinel's margin is `−∞`. -/
def margin : WithBot (Rect α) → WithBot α
  | ⊥ => ⊥
  | (b : Rect α) => ((b.hi 0 - b.lo 0) + (b.hi 1 - b.lo 1) : α)

/-- One axis of `intersectionArea`, zero when the boxes are apart. -/
def intersectionAxis (a b : Rect α) (i : Fin 2) : α :=
  if min (a.hi i) (b.hi i) > max (a.lo i) (b.lo i) then
    min (a.hi i) (b.hi i) - max (a.lo i) (b.lo i)
  else 0

/-- `intersectionArea`; the sentinel meets nothing, so its axes contribute 0. -/
def intersectionArea : WithBot (Rect α) → WithBot (Rect α) → α
  | (a : Rect α), (b : Rect α) => intersectionAxis a b 0 * intersectionAxis a b 1
  | _, _ => 0

/-- `bbox.enlargedArea(child) - child.area()` in `chooseSubtree`, for a finite `bbox`:
`−∞` for an empty child, whose area is `+∞`. -/
def enlargement (bbox : Rect α) : WithBot (Rect α) → WithBot (WithTop α)
  | ⊥ => ⊥
  | (c : Rect α) => ((boxArea (bbox ⊔ c) - boxArea c : α) : WithTop α)

end Measures

end Rtree
