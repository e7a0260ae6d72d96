import Tile38.Lib.PriorityQueue
import Tile38.Lib.Iterate
import Tile38.RTree.Capacity
import Mathlib.Data.Multiset.Bind
import Mathlib.Tactic.Linarith
import Mathlib.Tactic.Ring

/-!
# Nearest neighbours (`pkg/index/rtree/knn.go`)

`KNN` walks the tree best first. One priority queue holds the children of the nodes expanded
so far, items and nodes together, each with its box distance to the query; the items at the
head of the queue are reported, and then the nearest node is expanded. The queue is
`tinyqueue`, a binary heap ordered by `Less`, that is by `dist`; here it is any queue with the
laws of a min-heap (`PQueue.PriorityQueue`).

A node's box holds every rectangle below it, so its distance bounds theirs from below
(`LowerBound`): for `boxDistRect` always, for `boxDistPoint` when the rectangles are proper.
The walk keeps an invariant (`Walk`): what it reported and what the queue stands for are the
tree's items, the report is sorted, and nothing pending is nearer than what was reported. The
order of the items does not depend on the iterator: every iterator is handed them in one order,
nearest first, each with its distance, up to the one at which it stops (`RTree.KNN_foldWhile`),
and an iterator that never stops is handed every item once (`RTree.KNN_sorted`).

Distances are `WithTop α`: the sentinel box `(+Inf, -Inf)` of an empty node is at `+Inf`.
-/

namespace Rtree

open PQueue Iter

universe u v w x
variable {α : Type u} {ι : Type v} {σ : Type w}

/-- Two is at least two. As the instance for the numeral, it makes each `2` of a definition
below refer to this one fact instead of to an auxiliary lemma of its own. -/
theorem two_atLeastTwo : Nat.AtLeastTwo 2 := ⟨Nat.le_refl 2⟩

attribute [local instance] two_atLeastTwo

/-! ### Box distances -/

section Dist

variable [LinearOrder α] [CommRing α]

def axisDist (k min max : α) : α :=
  if k < min then min - k
  else if k ≤ max then 0
  else k - max

def boxDistPoint (point : Fin 2 → α) (childBox : Rect α) : α :=
  (List.finRange 2).foldl (fun dist i =>
    let d := axisDist (point i) (childBox.lo i) (childBox.hi i)
    dist + d * d) 0

def boxDistRect (a b : Rect α) : α :=
  (List.finRange 2).foldl (fun dist i =>
    let min := if a.lo i > b.lo i then a.lo i else b.lo i
    let max := if a.hi i < b.hi i then a.hi i else b.hi i
    let squared := min - max
    if squared > 0 then dist + squared * squared else dist) 0

end Dist

/-- The distance of a child node's box; the sentinel `(+Inf, -Inf)` of an empty node is at
`+Inf` under both distances. -/
def nodeDist [LinearOrder α] (dist : Rect α → α) : WithBot (Rect α) → WithTop α
  | ⊥ => ⊤
  | (b : Rect α) => (dist b : α)

section Query

variable [Field α] [LinearOrder α]

/-- The distance `KNN` orders by: `boxDistRect` to the query box or, when the box is a point
(`isBox` false), `boxDistPoint` to `knnPoint`, its centre. -/
def queryDist (min max : Fin 2 → α) : Rect α → α :=
  let knnPoint : Fin 2 → α := fun i => (min i + max i) / 2
  let isBox := (List.finRange 2).any fun i => min i != max i
  if isBox then boxDistRect ⟨min, max⟩ else boxDistPoint knnPoint

end Query

/-! ### Distances to a box that holds a rectangle -/

section LowerBound

/-- `dist` does not grow from a rectangle of `ts` to a box that holds it: a node's box is no
farther than the rectangles below it. -/
def LowerBound [LinearOrder α] (dist : Rect α → α) (ts : List (TreeItem α ι)) : Prop :=
  ∀ t ∈ ts, ∀ b : Rect α, t.rect ≤ b → dist b ≤ dist t.rect

theorem LowerBound.mono [LinearOrder α] {dist : Rect α → α} {ts ts' : List (TreeItem α ι)}
    (h : LowerBound dist ts) (hsub : ∀ t ∈ ts', t ∈ ts) : LowerBound dist ts' :=
  fun t ht => h t (hsub t ht)

variable [LinearOrder α] [CommRing α] [IsStrictOrderedRing α]

/-- The squared positive part, what an axis adds to `boxDistRect`. -/
def posSq (x : α) : α := if x > 0 then x * x else 0

theorem posSq_mono {x y : α} (h : x ≤ y) : posSq x ≤ posSq y := by
  unfold posSq
  split_ifs with hx hy hy
  · exact mul_self_le_mul_self hx.le h
  · exact absurd (hx.trans_le h) hy
  · exact mul_self_nonneg y
  · exact le_rfl

omit [IsStrictOrderedRing α] in
theorem boxDistRect_eq (a b : Rect α) :
    boxDistRect a b = posSq (max (a.lo 0) (b.lo 0) - min (a.hi 0) (b.hi 0)) +
      posSq (max (a.lo 1) (b.lo 1) - min (a.hi 1) (b.hi 1)) := by
  -- the Go selections are `max` and `min`
  have hmax : ∀ x y : α, (if x > y then x else y) = max x y := fun x y => by
    split_ifs with h
    · exact (max_eq_left h.le).symm
    · exact (max_eq_right (not_lt.mp h)).symm
  have hmin : ∀ x y : α, (if x < y then x else y) = min x y := fun x y => by
    split_ifs with h
    · exact (min_eq_left h.le).symm
    · exact (min_eq_right (not_lt.mp h)).symm
  simp only [boxDistRect]
  rw [show List.finRange 2 = [0, 1] from rfl]
  simp only [List.foldl_cons, List.foldl_nil, hmax, hmin, posSq]
  split_ifs <;> ring

theorem boxDistRect_le_of_le (a : Rect α) {b B : Rect α} (h : b ≤ B) :
    boxDistRect a B ≤ boxDistRect a b := by
  have hax : ∀ i, max (a.lo i) (B.lo i) - min (a.hi i) (B.hi i) ≤
      max (a.lo i) (b.lo i) - min (a.hi i) (b.hi i) := fun i =>
    sub_le_sub (max_le_max le_rfl (h.1 i)) (min_le_min le_rfl (h.2 i))
  rw [boxDistRect_eq, boxDistRect_eq]
  exact add_le_add (posSq_mono (hax 0)) (posSq_mono (hax 1))

theorem axisDist_nonneg (k min max : α) : 0 ≤ axisDist k min max := by
  unfold axisDist
  split_ifs <;> linarith

theorem axisDist_le_of_le {k lo hi lo' hi' : α} (hp : lo' ≤ hi') (hlo : lo ≤ lo')
    (hhi : hi' ≤ hi) : axisDist k lo hi ≤ axisDist k lo' hi' := by
  unfold axisDist
  split_ifs <;> linarith

omit [IsStrictOrderedRing α] in
theorem boxDistPoint_eq (p : Fin 2 → α) (b : Rect α) :
    boxDistPoint p b = axisDist (p 0) (b.lo 0) (b.hi 0) * axisDist (p 0) (b.lo 0) (b.hi 0) +
      axisDist (p 1) (b.lo 1) (b.hi 1) * axisDist (p 1) (b.lo 1) (b.hi 1) := by
  simp only [boxDistPoint]
  rw [show List.finRange 2 = [0, 1] from rfl]
  simp only [List.foldl_cons, List.foldl_nil, zero_add]

theorem boxDistPoint_le_of_le (p : Fin 2 → α) {b B : Rect α} (hp : b.Proper) (h : b ≤ B) :
    boxDistPoint p B ≤ boxDistPoint p b := by
  have hax : ∀ i, axisDist (p i) (B.lo i) (B.hi i) * axisDist (p i) (B.lo i) (B.hi i) ≤
      axisDist (p i) (b.lo i) (b.hi i) * axisDist (p i) (b.lo i) (b.hi i) := fun i =>
    mul_self_le_mul_self (axisDist_nonneg _ _ _) (axisDist_le_of_le (hp i) (h.1 i) (h.2 i))
  rw [boxDistPoint_eq, boxDistPoint_eq]
  exact add_le_add (hax 0) (hax 1)

theorem lowerBound_boxDistRect (a : Rect α) (ts : List (TreeItem α ι)) :
    LowerBound (boxDistRect a) ts :=
  fun _ _ _ h => boxDistRect_le_of_le a h

theorem lowerBound_boxDistPoint (p : Fin 2 → α) {ts : List (TreeItem α ι)}
    (hp : ∀ t ∈ ts, t.rect.Proper) : LowerBound (boxDistPoint p) ts :=
  fun t ht _ h => boxDistPoint_le_of_le p (hp t ht) h

end LowerBound

theorem lowerBound_queryDist [Field α] [LinearOrder α] [IsStrictOrderedRing α]
    (min max : Fin 2 → α) {ts : List (TreeItem α ι)}
    (hp : (∀ i, min i = max i) → ∀ t ∈ ts, t.rect.Proper) :
    LowerBound (queryDist min max) ts := by
  dsimp only [queryDist]
  split_ifs with hbox
  · exact lowerBound_boxDistRect _ ts
  · have hpt : ∀ i, min i = max i := by
      simp only [Bool.not_eq_true, List.any_eq_false, bne_iff_ne, ne_eq, not_not] at hbox
      exact fun i => hbox i (List.mem_finRange i)
    exact lowerBound_boxDistPoint _ (hp hpt)

/-! ### The walk -/

/-- `queueItem`: a child waiting in the queue with its distance. The Go record points at a
`treeNode` that is an item cast as one when `isItem` is set; the `Entry` says which. -/
structure QueueItem (α : Type u) (ι : Type v) where
  node : Entry α ι
  dist : WithTop α

section Walk

variable [LinearOrder α]

/-- The queue items for a node's children, as the loop over `node.children` pushes them with
`isItem: node.leaf`. -/
def children (dist : Rect α → α) : TreeNode α ι → List (QueueItem α ι)
  | .leaf _ _ ts => ts.map fun t => ⟨.item t, (dist t.rect : α)⟩
  | .branch _ _ cs => cs.map fun c => ⟨.node c, nodeDist dist c.bbox⟩

mutual

/-- The nodes and items of a subtree. -/
def TreeNode.size : TreeNode α ι → Nat
  | .leaf _ _ ts => ts.length + 1
  | .branch _ _ cs => TreeNode.sizeList cs + 1

def TreeNode.sizeList : List (TreeNode α ι) → Nat
  | [] => 0
  | c :: cs => c.size + TreeNode.sizeList cs

end

/-- What a queued element weighs in the walk's measure. -/
def QueueItem.size : QueueItem α ι → Nat
  | ⟨.item _, _⟩ => 1
  | ⟨.node n, _⟩ => n.size

omit [LinearOrder α] in
theorem sizeList_eq (cs : List (TreeNode α ι)) :
    TreeNode.sizeList cs = (cs.map TreeNode.size).sum := by
  induction cs with
  | nil => simp [TreeNode.sizeList]
  | cons c cs ih => simp [TreeNode.sizeList, ih]

theorem sum_size_children (dist : Rect α → α) (n : TreeNode α ι) :
    ((children dist n).map QueueItem.size).sum + 1 = n.size := by
  cases n with
  | leaf b h ts => simp [children, QueueItem.size, TreeNode.size, Function.comp_def]
  | branch b h cs => simp [children, QueueItem.size, TreeNode.size, sizeList_eq, Function.comp_def]

variable {Q : Type x} (P : PriorityQueue Q (QueueItem α ι) QueueItem.dist)

/-- The walk's measure on a queue. -/
def weight (q : Q) : Nat := ((P.elems q).map QueueItem.size).sum

theorem weight_le_of_le {q q' : Q} (h : P.elems q' ≤ P.elems q) : weight P q' ≤ weight P q := by
  obtain ⟨u, hu⟩ := Multiset.le_iff_exists_add.mp h
  rw [weight, weight, hu, Multiset.map_add, Multiset.sum_add]
  exact Nat.le_add_right _ _

theorem weight_pop {q q' : Q} {e : QueueItem α ι} (hp : P.pop q = some (e, q')) :
    weight P q = e.size + weight P q' := by
  rw [weight, weight, P.elems_pop hp, Multiset.map_cons, Multiset.sum_cons]

theorem weight_pushAll_children (dist : Rect α → α) (n : TreeNode α ι) (q : Q) :
    weight P (P.pushAll (children dist n) q) + 1 = n.size + weight P q := by
  rw [weight, weight, P.elems_pushAll, Multiset.map_add, Multiset.sum_add, Multiset.map_coe,
    Multiset.sum_coe, ← sum_size_children dist n]
  omega

set_option linter.unusedVariables false in
/-- The loop `for queue.Len() > 0 && queue.Peek().isItem`: while the element `Pop` would take,
the one `Peek` shows, is an item, it is popped and handed to `iter`. -/
def drain (iter : σ → ι → WithTop α → σ × Bool) (q : Q) (s : σ) : σ × Bool × Q :=
  match hp : P.pop q with
  | some (⟨.item t, d⟩, q') =>
    match iter s t.item d with
    | (s', true) => drain iter q' s'
    | (s', false) => (s', false, q')
  | _ => (s, true, q)
termination_by Multiset.card (P.elems q)
decreasing_by exact P.card_lt_of_pop hp

theorem drain_of_pop_item (iter : σ → ι → WithTop α → σ × Bool) {q q' : Q} {t : TreeItem α ι}
    {d : WithTop α} (hp : P.pop q = some (⟨.item t, d⟩, q')) (s : σ) :
    drain P iter q s =
      match iter s t.item d with
      | (s', true) => drain P iter q' s'
      | (s', false) => (s', false, q') := by
  rw [drain]
  split <;> simp_all

theorem drain_of_not_item (iter : σ → ι → WithTop α → σ × Bool) {q : Q}
    (hp : ∀ t d q', P.pop q ≠ some (⟨.item t, d⟩, q')) (s : σ) : drain P iter q s = (s, true, q) := by
  rw [drain]
  split
  · rename_i t d q' hq
    exact absurd hq (hp t d q')
  · rfl

theorem elems_drain_le (iter : σ → ι → WithTop α → σ × Bool) (q : Q) (s : σ) :
    P.elems (drain P iter q s).2.2 ≤ P.elems q := by
  induction hc : Multiset.card (P.elems q) using Nat.strong_induction_on generalizing q s with
  | _ c ih =>
  by_cases hp : ∃ t d q', P.pop q = some (⟨.item t, d⟩, q')
  · obtain ⟨t, d, q', hp⟩ := hp
    rw [drain_of_pop_item P iter hp]
    split
    · exact (ih _ (hc ▸ P.card_lt_of_pop hp) q' _ rfl).trans (P.elems_le_of_pop hp)
    · exact P.elems_le_of_pop hp
  · simp only [not_exists] at hp
    rw [drain_of_not_item P iter hp]

/-- The measure falls from one turn of the walk to the next: the expanded node leaves the queue
for its children, the drained items leave it, and the next node is taken out. -/
theorem weight_next_lt (dist : Rect α → α) {q q' q'' : Q} {node n : TreeNode α ι}
    {d : WithTop α} (hle : P.elems q' ≤ P.elems (P.pushAll (children dist node) q))
    (hp : P.pop q' = some (⟨.node n, d⟩, q'')) : weight P q'' + n.size < weight P q + node.size := by
  have h₁ := weight_le_of_le P hle
  have h₂ := weight_pop P hp
  have h₃ := weight_pushAll_children P dist node q
  simp only [QueueItem.size] at h₂
  omega

set_option linter.unusedVariables false in
/-- The loop `for node != nil`: the node's children are pushed, the items at the head of the
queue reported, and the nearest node taken out; the walk ends with the queue. -/
def knnLoop (dist : Rect α → α) (iter : σ → ι → WithTop α → σ × Bool) (q : Q)
    (node : TreeNode α ι) (s : σ) : σ × Bool :=
  match hd : drain P iter (P.pushAll (children dist node) q) s with
  | (s', false, _) => (s', false)
  | (s', true, q') =>
    match hp : P.pop q' with
    | some (⟨.node n, _⟩, q'') => knnLoop dist iter q'' n s'
    | _ => (s', true)
termination_by weight P q + node.size
decreasing_by
  have hle := elems_drain_le P iter (P.pushAll (children dist node) q) s
  rw [hd] at hle
  exact weight_next_lt P dist hle hp

theorem knnLoop_of_pop_node (dist : Rect α → α) (iter : σ → ι → WithTop α → σ × Bool)
    {q q' q'' : Q} {node n : TreeNode α ι} {d : WithTop α} {s s' : σ}
    (hd : drain P iter (P.pushAll (children dist node) q) s = (s', true, q'))
    (hp : P.pop q' = some (⟨.node n, d⟩, q'')) :
    knnLoop P dist iter q node s = knnLoop P dist iter q'' n s' := by
  rw [knnLoop]
  split <;> rename_i heq <;> rw [hd] at heq
  · cases heq
  · cases heq
    split <;> rename_i heq' <;> rw [hp] at heq'
    · cases heq'
      rfl
    · simp_all

theorem knnLoop_of_stop (dist : Rect α → α) (iter : σ → ι → WithTop α → σ × Bool)
    {q q' : Q} {node : TreeNode α ι} {s s' : σ}
    (hd : drain P iter (P.pushAll (children dist node) q) s = (s', false, q')) :
    knnLoop P dist iter q node s = (s', false) := by
  rw [knnLoop]
  split <;> rename_i heq <;> rw [hd] at heq
  · cases heq
    rfl
  · cases heq

theorem knnLoop_of_pop_none (dist : Rect α → α) (iter : σ → ι → WithTop α → σ × Bool)
    {q q' : Q} {node : TreeNode α ι} {s s' : σ}
    (hd : drain P iter (P.pushAll (children dist node) q) s = (s', true, q'))
    (hp : P.pop q' = none) : knnLoop P dist iter q node s = (s', true) := by
  rw [knnLoop]
  split <;> rename_i heq <;> rw [hd] at heq
  · cases heq
  · cases heq
    split <;> rename_i heq' <;> rw [hp] at heq'
    cases heq'

end Walk

/-! ### The walk's invariant -/

section Invariant

variable [LinearOrder α]

/-- An iterator that never stops. -/
def alwaysKNN (f : σ → ι → WithTop α → σ) : σ → ι → WithTop α → σ × Bool :=
  fun s x d => (f s x d, true)

/-- The items a queued element stands for. -/
def QueueItem.itemsBelow : QueueItem α ι → List (TreeItem α ι)
  | ⟨.item t, _⟩ => [t]
  | ⟨.node n, _⟩ => items n

/-- What a queued element keeps of the tree: an item carries the distance of its rectangle; a
node is a well-formed subtree that carries the distance of its box, a lower bound for the
rectangles below it. -/
def QueueItem.Sound (dist : Rect α → α) : QueueItem α ι → Prop
  | ⟨.item t, d⟩ => d = (dist t.rect : α)
  | ⟨.node n, d⟩ => (∃ h, WF h n) ∧ d = nodeDist dist n.bbox ∧ LowerBound dist (items n)

theorem QueueItem.Sound.dist_le {dist : Rect α → α} {e : QueueItem α ι} (h : e.Sound dist)
    {t : TreeItem α ι} (ht : t ∈ e.itemsBelow) : e.dist ≤ (dist t.rect : α) := by
  rcases e with ⟨⟨t'⟩ | ⟨n⟩, d⟩
  · have ht' : t = t' := List.mem_singleton.mp ht
    subst ht'
    exact le_of_eq h
  · obtain ⟨⟨k, hw⟩, rfl, hl⟩ := h
    have hle : (t.rect : WithBot (Rect α)) ≤ n.bbox := hw.rect_le_bbox ht
    obtain ⟨B, hB⟩ := WithBot.ne_bot_iff_exists.mp (ne_bot_of_le_ne_bot WithBot.coe_ne_bot hle)
    rw [← hB] at hle
    show nodeDist dist n.bbox ≤ _
    rw [← hB]
    exact WithTop.coe_le_coe.mpr (hl t ht B (WithBot.coe_le_coe.mp hle))

theorem flatMap_itemsBelow_children (dist : Rect α → α) (n : TreeNode α ι) :
    (children dist n).flatMap QueueItem.itemsBelow = items n := by
  cases n with
  | leaf b h ts => simp [children, QueueItem.itemsBelow, List.flatMap_map]
  | branch b h cs =>
    simp [children, QueueItem.itemsBelow, List.flatMap_map, itemsList_eq_flatMap]

theorem sound_children {dist : Rect α → α} {n : TreeNode α ι} {h : Nat} (hw : WF h n)
    (hl : LowerBound dist (items n)) : ∀ e ∈ children dist n, e.Sound dist := by
  intro e he
  cases n with
  | leaf b h' ts =>
    obtain ⟨t, -, rfl⟩ := List.mem_map.mp he
    rfl
  | branch b h' cs =>
    obtain ⟨c, hc, rfl⟩ := List.mem_map.mp he
    obtain ⟨-, -, -, -, hcs⟩ := wf_branch_iff.mp hw
    refine ⟨⟨h - 1, wfList_iff.mp hcs c hc⟩, rfl, hl.mono fun t ht => ?_⟩
    rw [items_branch, itemsList_eq_flatMap]
    exact List.mem_flatMap.mpr ⟨c, hc, ht⟩

theorem sound_children_root {dist : Rect α → α} {n : TreeNode α ι} (hw : RootWF n)
    (hl : LowerBound dist (items n)) : ∀ e ∈ children dist n, e.Sound dist := by
  rcases hw with rfl | hw
  · intro e he
    simp [children, TreeNode.empty] at he
  · exact sound_children hw hl

variable {Q : Type x} (P : PriorityQueue Q (QueueItem α ι) QueueItem.dist)

/-- The items still to be reported: those the queued elements stand for. -/
def pending (q : Q) : Multiset (TreeItem α ι) :=
  (P.elems q).bind fun e => (e.itemsBelow : Multiset (TreeItem α ι))

theorem pending_pop {q q' : Q} {e : QueueItem α ι} (hp : P.pop q = some (e, q')) :
    pending P q = (e.itemsBelow : Multiset (TreeItem α ι)) + pending P q' := by
  rw [pending, pending, P.elems_pop hp, Multiset.cons_bind]

theorem pending_pushAll_children (dist : Rect α → α) (n : TreeNode α ι) (q : Q) :
    pending P (P.pushAll (children dist n) q) = (items n : Multiset (TreeItem α ι)) + pending P q := by
  rw [pending, pending, P.elems_pushAll, Multiset.add_bind, Multiset.coe_bind,
    flatMap_itemsBelow_children]

/-- The walk's invariant, `out` being the items reported so far and `q` the queue: every queued
element is sound; the reported items and those the queue stands for make up `all`; the report
is sorted by distance, and nothing pending is nearer than a reported item. -/
structure Walk (dist : Rect α → α) (all : Multiset (TreeItem α ι)) (out : List (TreeItem α ι))
    (q : Q) : Prop where
  sound : ∀ e ∈ P.elems q, e.Sound dist
  cover : (out : Multiset (TreeItem α ι)) + pending P q = all
  sorted : out.Pairwise fun a b => dist a.rect ≤ dist b.rect
  below : ∀ a ∈ out, ∀ t ∈ pending P q, dist a.rect ≤ dist t.rect

variable {dist : Rect α → α} {all : Multiset (TreeItem α ι)} {out : List (TreeItem α ι)}

theorem walk_start {root : TreeNode α ι} (hw : RootWF root) (hl : LowerBound dist (items root)) :
    Walk P dist (contents root) [] (P.pushAll (children dist root) P.empty) where
  sound e he := by
    rw [P.elems_pushAll, P.elems_empty, add_zero] at he
    exact sound_children_root hw hl e (Multiset.mem_coe.mp he)
  cover := by
    rw [pending_pushAll_children, pending, P.elems_empty, Multiset.zero_bind, add_zero,
      Multiset.coe_nil, zero_add]
    rfl
  sorted := List.Pairwise.nil
  below a ha := absurd ha List.not_mem_nil

/-- An item taken out of the queue carries its distance, and reporting it keeps the invariant:
the queue's least key bounds everything still pending. -/
theorem Walk.pop_item {q q' : Q} {t : TreeItem α ι} {d : WithTop α} (hw : Walk P dist all out q)
    (hp : P.pop q = some (⟨.item t, d⟩, q')) :
    d = (dist t.rect : α) ∧ Walk P dist all (out ++ [t]) q' := by
  have hd : d = (dist t.rect : α) := hw.sound _ (P.mem_of_pop hp)
  have hpend := pending_pop P hp
  have hnear : ∀ t' ∈ pending P q', dist t.rect ≤ dist t'.rect := by
    intro t' ht'
    obtain ⟨e, he, ht'e⟩ := Multiset.mem_bind.mp ht'
    have h₁ : d ≤ e.dist := P.key_le_of_pop hp e he
    have h₂ := (hw.sound e (P.mem_of_mem_pop hp he)).dist_le ht'e
    exact WithTop.coe_le_coe.mp (hd ▸ h₁.trans h₂)
  have hmem : t ∈ pending P q := by
    rw [hpend]
    exact Multiset.mem_add.mpr (Or.inl (by simp [QueueItem.itemsBelow]))
  refine ⟨hd, ⟨fun e he => hw.sound e (P.mem_of_mem_pop hp he), ?_, ?_, ?_⟩⟩
  · rw [← hw.cover, hpend, ← Multiset.coe_add, add_assoc]
    rfl
  · refine List.pairwise_append.mpr ⟨hw.sorted, List.pairwise_singleton _ _, ?_⟩
    intro a ha b hb
    rw [List.mem_singleton.mp hb]
    exact hw.below a ha t hmem
  · intro a ha t' ht'
    rcases List.mem_append.mp ha with ha | ha
    · exact hw.below a ha t' (by rw [hpend]; exact Multiset.mem_add.mpr (Or.inr ht'))
    · rw [List.mem_singleton.mp ha]
      exact hnear t' ht'

theorem Walk.pop_node {q q' : Q} {n : TreeNode α ι} {d : WithTop α} (hw : Walk P dist all out q)
    (hp : P.pop q = some (⟨.node n, d⟩, q')) :
    Walk P dist all out (P.pushAll (children dist n) q') := by
  obtain ⟨⟨k, hwf⟩, -, hl⟩ := hw.sound _ (P.mem_of_pop hp)
  have hpend : pending P (P.pushAll (children dist n) q') = pending P q := by
    rw [pending_pushAll_children, pending_pop P hp]
    rfl
  refine ⟨fun e he => ?_, by rw [hpend]; exact hw.cover, hw.sorted, by rw [hpend]; exact hw.below⟩
  rw [P.elems_pushAll] at he
  rcases Multiset.mem_add.mp he with he | he
  · exact sound_children hwf hl e (Multiset.mem_coe.mp he)
  · exact hw.sound e (P.mem_of_mem_pop hp he)

theorem Walk.cover_of_pop_none {q : Q} (hw : Walk P dist all out q) (hp : P.pop q = none) :
    (out : Multiset (TreeItem α ι)) = all := by
  have h0 : pending P q = 0 := by rw [pending, (P.pop_eq_none q).mp hp, Multiset.zero_bind]
  rw [← hw.cover, h0, add_zero]

/-- The drain reports the items at the head of the queue, in an order that does not depend on
the iterator, until the iterator stops; when it does not stop it leaves a queue headed by a node
or empty. -/
theorem drain_any {q : Q} (hw : Walk P dist all out q) :
    ∃ out' q', Walk P dist all (out ++ out') q' ∧ P.elems q' ≤ P.elems q ∧
      (∀ t d q'', P.pop q' ≠ some (⟨.item t, d⟩, q'')) ∧
      ∀ (σ : Type w) (iter : σ → ι → WithTop α → σ × Bool) (s : σ),
        (drain P iter q s).1 = (foldWhile (fun s t => iter s t.item (dist t.rect : α)) out' s).1 ∧
        (drain P iter q s).2.1 = (foldWhile (fun s t => iter s t.item (dist t.rect : α)) out' s).2 ∧
        ((drain P iter q s).2.1 = true → (drain P iter q s).2.2 = q') := by
  induction hc : Multiset.card (P.elems q) using Nat.strong_induction_on generalizing out q with
  | _ c ih =>
  by_cases hp : ∃ t d q', P.pop q = some (⟨.item t, d⟩, q')
  · obtain ⟨t, d, q', hp⟩ := hp
    obtain ⟨hd, hw'⟩ := hw.pop_item P hp
    obtain ⟨out', q'', hw'', hle, hnot, hrun⟩ := ih _ (hc ▸ P.card_lt_of_pop hp) hw' rfl
    rw [List.append_assoc, List.singleton_append] at hw''
    refine ⟨t :: out', q'', hw'', hle.trans (P.elems_le_of_pop hp), hnot, fun σ iter s => ?_⟩
    rw [drain_of_pop_item P iter hp, foldWhile_cons, ← hd]
    rcases hi : iter s t.item d with ⟨s', _ | _⟩
    · simp
    · simpa using hrun σ iter s'
  · simp only [not_exists] at hp
    refine ⟨[], q, by simpa using hw, le_rfl, hp, fun σ iter s => ?_⟩
    rw [drain_of_not_item P _ hp]
    simp

/-- The walk hands the iterator the rest of the items in order of distance, in an order that
does not depend on the iterator, until the iterator stops. By induction on the walk's measure;
each turn is a drain and the next node. -/
theorem knnLoop_any {q : Q} {node : TreeNode α ι}
    (hw : Walk P dist all out (P.pushAll (children dist node) q)) :
    ∃ out', ((out ++ out' : List (TreeItem α ι)) : Multiset (TreeItem α ι)) = all ∧
      (out ++ out').Pairwise (fun a b => dist a.rect ≤ dist b.rect) ∧
      ∀ (σ : Type w) (iter : σ → ι → WithTop α → σ × Bool) (s : σ),
        knnLoop P dist iter q node s =
          foldWhile (fun s t => iter s t.item (dist t.rect : α)) out' s := by
  induction hm : weight P q + node.size using Nat.strong_induction_on generalizing out q node with
  | _ m ih =>
  obtain ⟨out₁, q₁, hw₁, hle, hnot, hrun⟩ := drain_any P hw
  -- the drain ends the walk when the iterator stops, and otherwise leaves `q₁`
  have hstop : ∀ (σ : Type w) (iter : σ → ι → WithTop α → σ × Bool) (s : σ),
      (foldWhile (fun s t => iter s t.item (dist t.rect : α)) out₁ s).2 = false →
      knnLoop P dist iter q node s = foldWhile (fun s t => iter s t.item (dist t.rect : α)) out₁ s := by
    intro σ iter s hb
    obtain ⟨h₁, h₂, -⟩ := hrun σ iter s
    rw [knnLoop_of_stop P dist iter (Prod.ext h₁ (Prod.ext (h₂.trans hb) rfl))]
    exact Prod.ext rfl hb.symm
  have hgo : ∀ (σ : Type w) (iter : σ → ι → WithTop α → σ × Bool) (s : σ),
      (foldWhile (fun s t => iter s t.item (dist t.rect : α)) out₁ s).2 = true →
      drain P iter (P.pushAll (children dist node) q) s =
        ((foldWhile (fun s t => iter s t.item (dist t.rect : α)) out₁ s).1, true, q₁) := by
    intro σ iter s hb
    obtain ⟨h₁, h₂, h₃⟩ := hrun σ iter s
    exact Prod.ext h₁ (Prod.ext (h₂.trans hb) (h₃ (h₂.trans hb)))
  rcases hp : P.pop q₁ with _ | ⟨⟨⟨t⟩ | ⟨n⟩, d⟩, q₂⟩
  · refine ⟨out₁, hw₁.cover_of_pop_none P hp, hw₁.sorted, fun σ iter s => ?_⟩
    by_cases hb : (foldWhile (fun s t => iter s t.item (dist t.rect : α)) out₁ s).2 = true
    · rw [knnLoop_of_pop_none P dist iter (hgo σ iter s hb) hp]
      exact Prod.ext rfl hb.symm
    · exact hstop σ iter s (Bool.eq_false_iff.mpr hb)
  · exact absurd hp (hnot t d q₂)
  · obtain ⟨out₂, hcov, hsort, hrun₂⟩ :=
      ih _ (hm ▸ weight_next_lt P dist hle hp) (hw₁.pop_node P hp) rfl
    rw [List.append_assoc] at hcov hsort
    refine ⟨out₁ ++ out₂, hcov, hsort, fun σ iter s => ?_⟩
    rw [foldWhile_append]
    by_cases hb : (foldWhile (fun s t => iter s t.item (dist t.rect : α)) out₁ s).2 = true
    · rw [if_pos hb, knnLoop_of_pop_node P dist iter (hgo σ iter s hb) hp, hrun₂]
    · rw [if_neg hb]
      exact hstop σ iter s (Bool.eq_false_iff.mpr hb)

end Invariant

section KNN

variable [Field α] [LinearOrder α] {Q : Type x} (P : PriorityQueue Q (QueueItem α ι) QueueItem.dist)

set_option linter.unusedVariables false in
/-- `KNN(min, max, center, iter)`: the walk from the root with an empty queue. `center` is not
read. -/
def RTree.KNN (min max : Fin 2 → α) (center : Bool) (iter : σ → ι → WithTop α → σ × Bool)
    (tr : RTree α ι) (s : σ) : σ × Bool :=
  knnLoop P (queryDist min max) iter P.empty tr.data s

/-- What `KNN` with an iterator that never stops does on `tr`: it hands the iterator every
stored item once, in order of distance, each with its distance. -/
def ReportsByDistance (min max : Fin 2 → α) (center : Bool) (tr : RTree α ι) : Prop :=
  ∃ out : List (TreeItem α ι), out.Perm (items tr.data) ∧
    out.Pairwise (fun a b => queryDist min max a.rect ≤ queryDist min max b.rect) ∧
    ∀ (σ : Type) (f : σ → ι → WithTop α → σ) (s : σ),
      tr.KNN P min max center (alwaysKNN f) s =
        (out.foldl (fun s t => f s t.item (queryDist min max t.rect : α)) s, true)

/-- On a well-formed tree `KNN` hands any iterator the stored items in one order by distance,
the same for every iterator, until the iterator stops; if the rectangles are proper when the
query is a point. -/
theorem RTree.KNN_foldWhile [IsStrictOrderedRing α] {tr : RTree α ι} (hw : RootWF tr.data)
    (min max : Fin 2 → α) (center : Bool)
    (hp : (∀ i, min i = max i) → ∀ t ∈ items tr.data, t.rect.Proper) :
    ∃ out : List (TreeItem α ι), out.Perm (items tr.data) ∧
      out.Pairwise (fun a b => queryDist min max a.rect ≤ queryDist min max b.rect) ∧
      ∀ (σ : Type w) (iter : σ → ι → WithTop α → σ × Bool) (s : σ),
        tr.KNN P min max center iter s =
          foldWhile (fun s t => iter s t.item (queryDist min max t.rect : α)) out s := by
  obtain ⟨out, hcov, hsort, hrun⟩ :=
    knnLoop_any P (walk_start P hw (lowerBound_queryDist min max hp))
  rw [List.nil_append] at hcov hsort
  exact ⟨out, Multiset.coe_eq_coe.mp hcov, hsort, hrun⟩

/-- On a well-formed tree `KNN` reports by distance, if the rectangles are proper when the
query is a point. -/
theorem RTree.KNN_sorted [IsStrictOrderedRing α] {tr : RTree α ι} (hw : RootWF tr.data)
    (min max : Fin 2 → α) (center : Bool)
    (hp : (∀ i, min i = max i) → ∀ t ∈ items tr.data, t.rect.Proper) :
    ReportsByDistance P min max center tr := by
  obtain ⟨out, hperm, hsort, hrun⟩ := RTree.KNN_foldWhile P hw min max center hp
  refine ⟨out, hperm, hsort, fun σ f s => ?_⟩
  rw [hrun, foldWhile_of_go (fun _ _ => rfl)]
  rfl

/-- A call on a well-formed tree succeeds and keeps it well formed. -/
theorem exec_rootWF [DecidableEq ι] (o : Op α ι) {tr : RTree α ι} (hw : RootWF tr.data) :
    ∃ tr', o.exec tr = some tr' ∧ RootWF tr'.data := by
  cases o with
  | insert min max x =>
    obtain ⟨tr', hins, hw', -⟩ := RTree.Insert_contents hw min max x
    exact ⟨tr', hins, hw'⟩
  | remove min max x => exact ⟨_, rfl, remove_rootWF hw ⟨min, max⟩ x⟩

theorem rtree_knn_sorted [IsStrictOrderedRing α] [DecidableEq ι] (ops : List (Op α ι))
    (min max : Fin 2 → α) (center : Bool) :
    ∃ tr, Simulation.run Op.exec ops RTree.New = some tr ∧
      (((∀ i, min i = max i) → ∀ t ∈ items tr.data, t.rect.Proper) →
        ReportsByDistance P min max center tr) := by
  obtain ⟨tr, hrun, hw⟩ := Simulation.run_invariant_on Op.exec (fun _ => True)
    (fun tr => RootWF tr.data) (fun o _ _ hw => exec_rootWF o hw) ops RTree.New
    (fun _ _ => trivial) (Or.inl rfl)
  exact ⟨tr, hrun, RTree.KNN_sorted P hw min max center⟩

theorem rtree_knn_sorted_threeCalls :
    ∃ tr, Simulation.run Op.exec threeCalls RTree.New = some tr ∧
      ((∀ _ : Fin 2, (0 : ℚ) = 0) → ∀ t ∈ items tr.data, t.rect.Proper) ∧
      ReportsByDistance (sortedList QueueItem.dist) (fun _ => 0) (fun _ => 0) false tr := by
  obtain ⟨tr, hrun, hsorted⟩ :=
    rtree_knn_sorted (sortedList QueueItem.dist) threeCalls (fun _ => (0 : ℚ)) (fun _ => 0) false
  have hall : (Simulation.run Op.exec threeCalls RTree.New).all
      (fun tr => (items tr.data).all fun t => decide (∀ i, t.min i ≤ t.max i)) = true := by
    with_unfolding_all decide
  rw [hrun] at hall
  simp only [Option.all_some, List.all_eq_true, decide_eq_true_eq] at hall
  exact ⟨tr, hrun, fun _ => hall, hsorted fun _ => hall⟩

omit [Field α] in
theorem exists_not_proper {ts : List (TreeItem α ι)}
    (h : ts.any (fun t => !decide (∀ i, t.min i ≤ t.max i)) = true) :
    ∃ t ∈ ts, ¬ t.rect.Proper := by
  obtain ⟨t, ht, hnp⟩ := List.any_eq_true.mp h
  refine ⟨t, ht, fun hp => ?_⟩
  simp only [Bool.not_eq_true', decide_eq_false_iff_not] at hnp
  exact hnp fun i => hp i

/-- Thirteen points on the diagonal, the items `1` to `13`, then the item `0` on the improper
rectangle from `(10, 10)` to `(0, 0)`. The fourteenth `Insert` splits the root leaf: the points
from `(-7, -7)` to `(-2, -2)` and the improper item go to one leaf, whose box is
`[-7, 0]²`, and the points from `(12, 12)` on to the other. -/
def improperCalls : List (Op ℚ Nat) :=
  ([-7, -6, -5, -4, -3, -2, 12, 13, 14, 15, 16, 17, 18].zipIdx 1).map
      (fun p => .insert (fun _ => p.1) (fun _ => p.1) p.2) ++
    [.insert (fun _ => 10) (fun _ => 0) 0]

set_option maxRecDepth 4000 in
/-- Around the point `(9.5, 9.5)` the improper item is at `1/2`, but the box of its leaf is at
`361/2` while the other leaf's box is at `25/2`: `KNN` reports the seven points of the other
leaf first, and the improper item after them. -/
theorem knn_point_improper :
    ∃ tr, Simulation.run Op.exec improperCalls RTree.New = some tr ∧
      (∃ t ∈ items tr.data, ¬ t.rect.Proper) ∧
      let reported : List (Nat × WithTop ℚ) :=
        [(7, (25 / 2 : ℚ)), (8, (49 / 2 : ℚ)), (9, (81 / 2 : ℚ)), (10, (121 / 2 : ℚ)),
          (11, (169 / 2 : ℚ)), (12, (225 / 2 : ℚ)), (13, (289 / 2 : ℚ)), (0, (1 / 2 : ℚ)),
          (6, (529 / 2 : ℚ)), (5, (625 / 2 : ℚ)), (4, (729 / 2 : ℚ)), (3, (841 / 2 : ℚ)),
          (2, (961 / 2 : ℚ)), (1, (1089 / 2 : ℚ))]
      (tr.KNN (sortedList QueueItem.dist) (fun _ => 19 / 2) (fun _ => 19 / 2) false
          (fun (l : List (Nat × WithTop ℚ)) x d => (l ++ [(x, d)], true)) []).1 = reported ∧
        ¬ (reported.map Prod.snd).Pairwise (· ≤ ·) := by
  refine ⟨_, rfl, ?_, ?_⟩
  · exact exists_not_proper (by with_unfolding_all decide)
  · intro reported
    exact ⟨by with_unfolding_all rfl, by with_unfolding_all decide⟩

end KNN

end Rtree
