import Tile38.RTree.Insert

/-!
# Removal (`pkg/index/rtree/base.go`)

`remove` walks the tree depth first with an explicit stack of nodes and child indexes: it
searches every leaf it reaches with `findItem`, enters a branch only when the branch's box
contains the target box, and goes right and up otherwise. At the first leaf holding the item
it cuts the item out and calls `condense` on the stack, which from the bottom up cuts out
emptied nodes and recomputes the boxes of the others; an emptied root becomes a fresh empty
leaf. The walk is written here as the recursion its stack implements.
-/

namespace Rtree

universe u v
variable {α : Type u} {ι : Type v} [LinearOrder α] [DecidableEq ι]

/-- `condense` at one node of the path: an emptied node keeps its stale box, since its parent
cuts it out; any other node gets its box recomputed. -/
def condenseNode : TreeNode α ι → TreeNode α ι
  | .leaf b h items => if items.length = 0 then .leaf b h items else .leaf (calcBBox itemBox items) h items
  | .branch b h cs => if cs.length = 0 then .branch b h cs else .branch (calcBBox nodeBox cs) h cs

mutual

/-- `remove`'s walk below a node. `some` is the node after the removal and its `condense`,
`none` means the walk found no child carrying `item` below it. -/
def removeAt (bbox : Rect α) (item : ι) : TreeNode α ι → Option (TreeNode α ι)
  | .leaf b h items =>
    match findItem item items with
    | none => none
    | some k => some (condenseNode (.leaf b h (items.eraseIdx k)))
  | .branch b h cs =>
    if contains b bbox then
      match removeChildren bbox item cs with
      | none => none
      | some cs' => some (condenseNode (.branch b h cs'))
    else none

/-- The walk over the children of an entered branch, left to right; an emptied child is cut
out as `condense` does (`copy(siblings[index:], siblings[index+1:])`). -/
def removeChildren (bbox : Rect α) (item : ι) :
    List (TreeNode α ι) → Option (List (TreeNode α ι))
  | [] => none
  | c :: cs =>
    match removeAt bbox item c with
    | some c' => some (if c'.count = 0 then cs else c' :: cs)
    | none =>
      match removeChildren bbox item cs with
      | none => none
      | some cs' => some (c :: cs')

end

/-- `remove(bbox, item)`: nothing changes when the walk does not find the item. -/
def remove (bbox : Rect α) (item : ι) (tr : RTree α ι) : RTree α ι :=
  match removeAt bbox item tr.data with
  | none => tr
  | some root => if root.count = 0 then ⟨.empty⟩ else ⟨root⟩

def RTree.Remove (min max : Fin 2 → α) (item : ι) (tr : RTree α ι) : RTree α ι :=
  remove ⟨min, max⟩ item tr

end Rtree
