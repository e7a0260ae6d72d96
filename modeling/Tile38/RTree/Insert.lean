import Tile38.RTree.Node
import Tile38.RTree.SortByAxis

/-!
# Insertion (`pkg/index/rtree/base.go`)

`insert` walks `chooseSubtree` down to the insertion level, appends the entry, extends the
box, then splits every overflowing node on the way back up; a split root becomes the child
of a new root (`splitRoot`). The Go code keeps the walk in a slice `insertPath` and updates
the nodes on it in place; here the walk is a recursion whose result is the updated node and
the node split off it, which the caller appends to its children exactly where the Go code
writes `children[count]`. `none` marks the places where the Go code panics or would store
an item in a branch: they are unreachable from `New` (see `Invariant`).
-/

namespace Rtree

universe u v
variable {α : Type u} {ι : Type v}

/-- Two is not zero. As the instance for the axes `Fin 2`, it makes each axis literal of a
definition below refer to this one fact instead of to an auxiliary lemma of its own. -/
theorem two_neZero : NeZero 2 := ⟨by decide⟩

attribute [local instance] two_neZero

/-- `M`: the fan-out constant. -/
def M : Nat := 13

/-- `maxEntries = int(math.Max(4, float64(M)))`. -/
def maxEntries : Nat := max 4 M

/-- `minEntries = int(math.Max(2, math.Ceil(float64(maxEntries)*0.4)))`: the ceiling of
`2·maxEntries/5`. -/
def minEntries : Nat := max 2 ((2 * maxEntries + 4) / 5)

example : maxEntries = 13 ∧ minEntries = 6 := by decide

/-- What `insert` places: an item, or a whole node when bulk loading (`isNode`). -/
inductive Entry (α : Type u) (ι : Type v) where
  | item (t : TreeItem α ι)
  | node (n : TreeNode α ι)

/-- `RTree`: the root. The `reuse` buffers of the Go record hold no state between calls. -/
structure RTree (α : Type u) (ι : Type v) where
  data : TreeNode α ι

def RTree.New : RTree α ι := ⟨.empty⟩

section Insert

variable [LinearOrder α] [CommRing α]

/-- One turn of `chooseSubtree`'s loop over the children: the state is `minEnlargement`,
`minArea` and the index of `targetNode`. -/
def chooseStep (bbox : Rect α) (st : WithBot (WithTop α) × WithTop α × Option Nat)
    (c : TreeNode α ι × Nat) : WithBot (WithTop α) × WithTop α × Option Nat :=
  let a := area c.1.bbox
  let enl := enlargement bbox c.1.bbox
  if enl < st.1 then (enl, if a < st.2.1 then a else st.2.1, some c.2)
  else if enl = st.1 then (if a < st.2.1 then (st.1, a, some c.2) else st)
  else st

/-- The child `chooseSubtree` descends into: `targetNode`, else `children[0]`. An empty
branch yields `none`: the Go walk then dereferences `nil` or re-enters the previous target. -/
def chooseChild (bbox : Rect α) (cs : List (TreeNode α ι)) : Option Nat :=
  match (cs.zipIdx.foldl (chooseStep bbox) (⊤, ⊤, none)).2.2 with
  | some j => some j
  | none => if 0 < cs.length then some 0 else none

variable {β : Type*} (box : β → WithBot (Rect α)) (key : Fin 2 → β → WithTop α)

/-- The box of child `i`; the Go code never reads past `count` here. -/
def boxAt (cs : List β) (i : Nat) : WithBot (Rect α) :=
  match cs[i]? with
  | some c => box c
  | none => ⊥

/-- `allDistMargin(node, m, M, axis)`: sorts the children on `axis` and sums the margins of
the split distributions. Its second loop extends `leftBBox` and adds `rightBBox.margin()`,
as written in the Go code. -/
def allDistMargin (cs : List β) (m M : Nat) (axis : Fin 2) : List β × WithBot α :=
  let cs := sortByAxis (key axis) cs
  let rightBBox := distBBox box cs (M - m) M
  let first := (List.range' m (M - m - m)).foldl
    (fun (acc : WithBot (Rect α) × WithBot α) i =>
      (acc.1 ⊔ boxAt box cs i, acc.2 + margin (acc.1 ⊔ boxAt box cs i)))
    (distBBox box cs 0 m, margin (distBBox box cs 0 m) + margin rightBBox)
  (cs, (List.range' m (M - m - m)).foldl (fun acc _ => acc + margin rightBBox) first.2)

/-- `chooseSplitAxis`: measure both axes, then sort on the one with the smaller margin. -/
def chooseSplitAxis (cs : List β) (m M : Nat) : List β :=
  let r0 := allDistMargin box key cs m M 0
  let r1 := allDistMargin box key r0.1 m M 1
  sortByAxis (key (if r1.2 < r0.2 then 1 else 0)) r1.1

/-- One turn of `chooseSplitIndex`: state `minOverlap`, `minArea`, `index`. -/
def splitIndexStep (cs : List β) (M : Nat) (st : WithTop α × WithTop α × Nat) (i : Nat) :
    WithTop α × WithTop α × Nat :=
  let bbox1 := distBBox box cs 0 i
  let bbox2 := distBBox box cs i M
  let overlap : WithTop α := (intersectionArea bbox1 bbox2 : α)
  let a := area bbox1 + area bbox2
  if overlap < st.1 then (overlap, if a < st.2.1 then a else st.2.1, i)
  else if overlap = st.1 then (if a < st.2.1 then (st.1, a, i) else st)
  else st

/-- `chooseSplitIndex`: the cut with least overlap, then least area, for `m ≤ i ≤ M - m`. -/
def chooseSplitIndex (cs : List β) (m M : Nat) : Nat :=
  ((List.range' m (M + 1 - m - m)).foldl (splitIndexStep box cs M) (⊤, ⊤, 0)).2.2

/-- Sort, then cut: the children the node keeps and those `newNode` takes. -/
def splitChildren (cs : List β) : List β × List β :=
  let sorted := chooseSplitAxis box key cs minEntries cs.length
  let k := chooseSplitIndex box sorted minEntries cs.length
  (sorted.take k, sorted.drop k)

end Insert

section Keys

variable [LinearOrder α]

/-- `min[axis]` of an item. -/
def itemKey (axis : Fin 2) (t : TreeItem α ι) : WithTop α := (t.min axis : α)

/-- `min[axis]` of a node; `+∞` on the empty sentinel. -/
def nodeKey (axis : Fin 2) (n : TreeNode α ι) : WithTop α :=
  match n.bbox with
  | ⊥ => ⊤
  | (b : Rect α) => (b.lo axis : α)

end Keys

section Insert

variable [LinearOrder α] [CommRing α]

/-- `split` at one level: the node keeps the first `splitIndex` children and a new node of
the same height and kind takes the rest; both boxes are recomputed. -/
def splitNode : TreeNode α ι → TreeNode α ι × TreeNode α ι
  | .leaf _ h items =>
    let p := splitChildren itemBox itemKey items
    (.leaf (calcBBox itemBox p.1) h p.1, .leaf (calcBBox itemBox p.2) h p.2)
  | .branch _ h cs =>
    let p := splitChildren nodeBox nodeKey cs
    (.branch (calcBBox nodeBox p.1) h p.1, .branch (calcBBox nodeBox p.2) h p.2)

/-- The test of `insert`'s loop at one level: split a node with more than `maxEntries`
children. -/
def splitIfFull (n : TreeNode α ι) : TreeNode α ι × Option (TreeNode α ι) :=
  if maxEntries < n.count then ((splitNode n).1, some (splitNode n).2) else (n, none)

/-- `splitRoot`: a new root one level higher above the two halves. -/
def splitRoot (node newNode : TreeNode α ι) : TreeNode α ι :=
  .branch (calcBBox nodeBox [node, newNode]) (node.height + 1) [node, newNode]

mutual

/-- `insert` below a node at `depth`, for an entry with box `bbox` at depth `level`.
A node that does not split is extended by `bbox` (`node.extend` at the bottom,
`adjustParentBBoxes` above); one that splits has both halves recomputed, so extending it
first changes nothing. -/
def insertAt (bbox : Rect α) (e : Entry α ι) (level : Nat) :
    Nat → TreeNode α ι → Option (TreeNode α ι × Option (TreeNode α ι))
  | depth, .leaf b h items =>
    if depth = level then
      match e with
      | .item t => some (splitIfFull (.leaf (b ⊔ bbox) h (items ++ [t])))
      | .node _ => none
    else none
  | depth, .branch b h cs =>
    if depth = level then
      match e with
      | .node n => some (splitIfFull (.branch (b ⊔ bbox) h (cs ++ [n])))
      | .item _ => none
    else
      match chooseChild bbox cs with
      | none => none
      | some j =>
        match insertChild bbox e level depth j cs with
        | none => none
        | some (cs', none) => some (.branch (b ⊔ bbox) h cs', none)
        | some (cs', some s) => some (splitIfFull (.branch (b ⊔ bbox) h (cs' ++ [s])))

/-- Descend into child `j` of a branch at `depth`: the children with child `j` updated,
and the node split off it. -/
def insertChild (bbox : Rect α) (e : Entry α ι) (level depth : Nat) :
    Nat → List (TreeNode α ι) → Option (List (TreeNode α ι) × Option (TreeNode α ι))
  | _, [] => none
  | 0, c :: cs =>
    match insertAt bbox e level (depth + 1) c with
    | none => none
    | some (c', s) => some (c' :: cs, s)
  | j + 1, c :: cs =>
    match insertChild bbox e level depth j cs with
    | none => none
    | some (cs', s) => some (c :: cs', s)

end

/-- `insert(bbox, item, level, isNode)` on the whole tree. -/
def insert (bbox : Rect α) (e : Entry α ι) (level : Nat) (tr : RTree α ι) :
    Option (RTree α ι) :=
  match insertAt bbox e level 0 tr.data with
  | none => none
  | some (root, none) => some ⟨root⟩
  | some (root, some s) => some ⟨splitRoot root s⟩

/-- `Insert(min, max, item)`: an item goes to the leaf level `height - 1`. -/
def RTree.Insert (min max : Fin 2 → α) (item : ι) (tr : RTree α ι) : Option (RTree α ι) :=
  insert ⟨min, max⟩ (.item ⟨min, max, item⟩) (tr.data.height - 1) tr

end Insert

end Rtree
