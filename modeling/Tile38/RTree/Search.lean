import Tile38.RTree.Insert

/-!
# Queries (`pkg/index/rtree/base.go`)

`Search`, `Scan`, `Count` and `Bounds`. The Go iterator is a closure `func(item) bool`
that may keep state; it is a state transformer `σ → ι → σ × Bool` here, and a query returns
the final state with the Go result (`false` once the iterator asked to stop).
-/

namespace Rtree

universe u v w
variable {α : Type u} {ι : Type v} {σ : Type w}

/-- The loop over a leaf's children in `scan`. -/
def scanItems (iter : σ → ι → σ × Bool) : List (TreeItem α ι) → σ → σ × Bool
  | [], s => (s, true)
  | t :: ts, s =>
    match iter s t.item with
    | (s', true) => scanItems iter ts s'
    | (s', false) => (s', false)

mutual

/-- `scan`: every item below a node, left to right. -/
def scan (iter : σ → ι → σ × Bool) : TreeNode α ι → σ → σ × Bool
  | .leaf _ _ items, s => scanItems iter items s
  | .branch _ _ cs, s => scanChildren iter cs s

def scanChildren (iter : σ → ι → σ × Bool) : List (TreeNode α ι) → σ → σ × Bool
  | [], s => (s, true)
  | c :: cs, s =>
    match scan iter c s with
    | (s', true) => scanChildren iter cs s'
    | (s', false) => (s', false)

end

section Search

variable [LinearOrder α]

/-- The loop over a leaf's children in `search`: items whose box meets the query. -/
def searchItems (iter : σ → ι → σ × Bool) (bbox : Rect α) :
    List (TreeItem α ι) → σ → σ × Bool
  | [], s => (s, true)
  | t :: ts, s =>
    if Box.Meets bbox t.rect then
      match iter s t.item with
      | (s', true) => searchItems iter bbox ts s'
      | (s', false) => (s', false)
    else searchItems iter bbox ts s

mutual

/-- `search`: a branch child is searched when it `intersects` the query and scanned whole when
the query `contains` it. -/
def search (iter : σ → ι → σ × Bool) (bbox : Rect α) : TreeNode α ι → σ → σ × Bool
  | .leaf _ _ items, s => searchItems iter bbox items s
  | .branch _ _ cs, s => searchChildren iter bbox cs s

def searchChildren (iter : σ → ι → σ × Bool) (bbox : Rect α) :
    List (TreeNode α ι) → σ → σ × Bool
  | [], s => (s, true)
  | c :: cs, s =>
    match overlaps bbox c.bbox with
    | .intersects =>
      match search iter bbox c s with
      | (s', true) => searchChildren iter bbox cs s'
      | (s', false) => (s', false)
    | .contains =>
      match scan iter c s with
      | (s', true) => searchChildren iter bbox cs s'
      | (s', false) => (s', false)
    | .not => searchChildren iter bbox cs s

end

/-- `Search(min, max, iter)`: nothing is visited when the root's box misses the query. -/
def RTree.Search (min max : Fin 2 → α) (iter : σ → ι → σ × Bool) (tr : RTree α ι) (s : σ) :
    σ × Bool :=
  if intersects tr.data.bbox ⟨min, max⟩ then search iter ⟨min, max⟩ tr.data s else (s, true)

end Search

def RTree.Scan (iter : σ → ι → σ × Bool) (tr : RTree α ι) (s : σ) : σ × Bool :=
  scan iter tr.data s

def RTree.Count (tr : RTree α ι) : Nat := tr.data.childCount

/-- `Bounds()`: the root's box when it has children, zero corners otherwise. A root with
children and the empty sentinel would give `(+∞, −∞)`, that is `⊥`. -/
def RTree.Bounds [Zero α] (tr : RTree α ι) : WithBot (Rect α) :=
  if 0 < tr.data.count then tr.data.bbox else ((⟨0, 0⟩ : Rect α) : WithBot (Rect α))

end Rtree
