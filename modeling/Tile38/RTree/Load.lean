import Tile38.RTree.Invariant
import Tile38.RTree.Insert
import Mathlib.Algebra.Order.Ring.Unbundled.Rat
import Mathlib.Algebra.Order.Sub.Basic
import Mathlib.Algebra.Ring.Rat

/-!
# Bulk loading (`pkg/index/rtree/load.go`)

`Load` inserts fewer than `minEntries` items one by one. Otherwise it builds a tree by OMT
partitioning: it sorts the items on the first axis, cuts them into `S` slices, and builds each
slice with `omt` at height `h - 1`, where `h = ⌈log N / log M⌉`; `omt` makes a leaf of a slice of
at most `maxEntries` items, at whatever height it was given, and otherwise sorts on the next
axis and cuts the slice into `maxEntries` parts one level lower. The new root is a branch of
height `h`; it replaces an empty tree, and is otherwise joined to the tree by `splitRoot` or by
`insert` of the smaller tree as a node.

The float computations of `h`, `Nsubtree = M^(h-1)` and `S = ⌈√(N / Nsubtree)⌉` go through Go's
`math` package and are parameters (`LoadMath`). For `minEntries ≤ N ≤ maxEntries` the float
`Log(N) / Log(M)` lies in `(0, 1]`, so `h = 1`; the slices then become leaves of height `0`
under a root branch of height `1`, a tree that is not well formed and into which `Insert`
writes its item among the root's children, as if the root were a leaf (`load_small`).
-/

namespace Rtree

universe u v
variable {α : Type u} {ι : Type v}

attribute [local instance] two_neZero

/-- The float computations of `Load` through Go's `math` package: `height N M` is
`int(math.Ceil(math.Log(float64(N)) / math.Log(float64(M))))`, `subtree M h` is
`int(math.Pow(float64(M), float64(h-1)))` and `slices N s` is
`int(math.Ceil(math.Sqrt(float64(N) / float64(s))))`. -/
structure LoadMath where
  height : Nat → Nat → Nat
  subtree : Nat → Nat → Nat
  slices : Nat → Nat → Nat

/-- The three expressions evaluated exactly: `⌈log N / log M⌉` is the least `k` with `N ≤ M^k`,
and `⌈√(N / s)⌉` the least `k` with `N ≤ s * k^2`. -/
def LoadMath.exact : LoadMath where
  height N M := ((List.range (N + 1)).find? fun k => N ≤ M ^ k).getD N
  subtree M h := M ^ (h - 1)
  slices N s := ((List.range (N + 1)).find? fun k => N ≤ s * k * k).getD N

/-- The part `fitems[partsz*i : partsz*(i+1)]` of a slice, the last part taking the rest. -/
def omtPart (fitems : List β) (count partsz i : Nat) : List β :=
  if i = count - 1 then fitems.drop (partsz * i) else (fitems.drop (partsz * i)).take partsz

theorem length_omtPart_le (fitems : List β) (count partsz i : Nat) :
    (omtPart fitems count partsz i).length ≤ fitems.length := by
  unfold omtPart
  split_ifs <;> simp

theorem length_omtPart_lt {fitems : List β} {n : Nat} (hn : fitems.length = n)
    (hlen : maxEntries < n) (i : Nat) :
    (omtPart fitems maxEntries (n / maxEntries) i).length < n := by
  have hmax : maxEntries = 13 := rfl
  have hpart : 1 ≤ n / maxEntries := (Nat.one_le_div_iff (by omega)).mpr (by omega)
  have hlt : n / maxEntries < n := Nat.div_lt_self (by omega) (by omega)
  unfold omtPart
  split_ifs with hi
  · subst hi
    simp only [List.length_drop]
    rw [hmax] at hpart ⊢
    omega
  · simp only [List.length_take, List.length_drop]
    omega

theorem flatten_take_drop (l : List β) (p k : Nat) :
    ((List.range k).map fun i => (l.drop (p * i)).take p).flatten ++ l.drop (p * k) = l := by
  induction k with
  | zero => simp
  | succ k ih =>
    rw [List.range_succ, List.map_append, List.flatten_append, List.append_assoc, List.map_singleton,
      List.flatten_singleton, Nat.mul_succ, ← List.drop_drop, List.take_append_drop, ih]

theorem flatten_omtPart (l : List β) {count : Nat} (hc : 0 < count) (p : Nat) :
    ((List.range count).map (omtPart l count p)).flatten = l := by
  cases count with
  | zero => exact absurd hc (lt_irrefl 0)
  | succ k =>
    have hlast : omtPart l (k + 1) p k = l.drop (p * k) := by simp [omtPart]
    have hinit : (List.range k).map (omtPart l (k + 1) p) =
        (List.range k).map fun i => (l.drop (p * i)).take p := by
      refine List.map_congr_left fun i hi => if_neg ?_
      have := List.mem_range.mp hi
      omega
    rw [List.range_succ, List.map_append, List.flatten_append, List.map_singleton,
      List.flatten_singleton, hlast, hinit, flatten_take_drop]

section Load

variable [LinearOrder α]

def omt (fitems : List (TreeItem α ι)) (h axis : Nat) : TreeNode α ι :=
  if fitems.length ≤ maxEntries then .leaf (calcBBox itemBox fitems) h fitems
  else
    let sorted := sortByAxis (itemKey ⟨axis % 2, Nat.mod_lt _ (by decide)⟩) fitems
    let children := (List.range maxEntries).attach.map fun i =>
      omt (omtPart sorted maxEntries (fitems.length / maxEntries) i.1) (h - 1) (axis + 1)
    .branch (calcBBox nodeBox children) h children
termination_by fitems.length
decreasing_by
  exact length_omtPart_lt (sortByAxis_perm _ fitems).length_eq (by omega) i.1

/-- A slice of at most `maxEntries` items is a leaf at the height it is given. -/
theorem omt_of_length_le {fitems : List (TreeItem α ι)} (hle : fitems.length ≤ maxEntries)
    (h axis : Nat) : omt fitems h axis = .leaf (calcBBox itemBox fitems) h fitems := by
  rw [omt, if_pos hle]

/-- `omt` keeps the items of its slice: every item goes to exactly one part. -/
theorem items_omt_perm (fitems : List (TreeItem α ι)) (h axis : Nat) :
    (items (omt fitems h axis)).Perm fitems := by
  fun_induction omt fitems h axis with
  | case1 fitems h axis hle => rw [items_leaf]
  | case2 fitems h axis hgt sorted children ih =>
    rw [items_branch, itemsList_eq_flatMap, List.flatMap_map]
    refine (List.Perm.flatMap_left _ fun i _ => ih i).trans ?_
    have hparts : (List.range maxEntries).attach.flatMap
        (fun i => omtPart sorted maxEntries (fitems.length / maxEntries) i.1) = sorted := by
      rw [List.flatMap_def, List.attach_map_val,
        flatten_omtPart sorted (by decide)]
    rw [hparts]
    exact sortByAxis_perm _ fitems

/-- The node `Load` builds: the items sorted on the first axis and cut into `S` slices, each
built by `omt` one level below the node's height `h`. -/
def loadNode (m : LoadMath) (items : List (TreeItem α ι)) : TreeNode α ι :=
  let N := items.length
  let h := m.height N maxEntries
  let S := m.slices N (m.subtree maxEntries h)
  let fitems := sortByAxis (itemKey 0) items
  let children := (List.range S).map fun i => omt (omtPart fitems S (N / S) i) (h - 1) 1
  .branch (calcBBox nodeBox children) h children

/-- The loaded node holds exactly the items, whatever the float results, provided there is at
least one slice. -/
theorem items_loadNode_perm (m : LoadMath) (items : List (TreeItem α ι))
    (hS : 0 < m.slices items.length (m.subtree maxEntries (m.height items.length maxEntries))) :
    (Rtree.items (loadNode m items)).Perm items := by
  rw [loadNode, items_branch, itemsList_eq_flatMap, List.flatMap_map]
  refine (List.Perm.flatMap_left _ fun i _ => items_omt_perm _ _ _).trans ?_
  rw [List.flatMap_def, flatten_omtPart _ hS]
  exact sortByAxis_perm _ items

/-- Where the float `h` is `1`, each slice has at most `maxEntries` items, and `omt` makes it a
leaf at height `h - 1 = 0`. -/
theorem loadNode_of_height_one (m : LoadMath) (items : List (TreeItem α ι))
    (hhi : items.length ≤ maxEntries) (hh : m.height items.length maxEntries = 1) :
    ∃ b cs, loadNode m items = .branch b 1 cs ∧ ∀ c ∈ cs, ∃ b' ts, c = .leaf b' 0 ts := by
  refine ⟨_, _, by rw [loadNode, hh], ?_⟩
  intro c hc
  obtain ⟨i, -, rfl⟩ := List.mem_map.mp hc
  have hsorted : (sortByAxis (itemKey 0) items).length ≤ maxEntries := by
    rw [(sortByAxis_perm (itemKey 0) items).length_eq]
    exact hhi
  exact ⟨_, _, omt_of_length_le ((length_omtPart_le _ _ _ i).trans hsorted) _ _⟩

variable [CommRing α]

/-- `Load(mins, maxs, items)`. `none` where the joining `insert` fails, or where the smaller tree
is an empty node, whose box the Go code reads as a sentinel. -/
def RTree.Load (m : LoadMath) (items : List (TreeItem α ι)) (tr : RTree α ι) :
    Option (RTree α ι) :=
  if items.length < minEntries then
    items.foldlM (fun tr t => tr.Insert t.min t.max t.item) tr
  else
    let node := loadNode m items
    if tr.data.count = 0 then some ⟨node⟩
    else if tr.data.height = node.height then some ⟨splitRoot tr.data node⟩
    else
      -- the taller tree takes the smaller one as a node at the matching level
      let big := if tr.data.height < node.height then node else tr.data
      let small := if tr.data.height < node.height then tr.data else node
      match small.bbox with
      | ⊥ => none
      | (b : Rect α) => insert b (.node small) (big.height - small.height - 1) ⟨big⟩

theorem Load_New (m : LoadMath) {items : List (TreeItem α ι)} (hlo : minEntries ≤ items.length) :
    RTree.Load m items RTree.New = some ⟨loadNode m items⟩ := by
  have hnot : ¬ items.length < minEntries := by omega
  have hcount : (RTree.New : RTree α ι).data.count = 0 := rfl
  simp only [RTree.Load, if_neg hnot, hcount, if_true]

/-- `Load` of at least `minEntries` items into an empty tree stores exactly those items,
whatever the float results, as long as they give at least one slice. -/
theorem load_keeps_items (m : LoadMath) (items : List (TreeItem α ι))
    (hlo : minEntries ≤ items.length)
    (hS : 0 < m.slices items.length (m.subtree maxEntries (m.height items.length maxEntries))) :
    ∃ tr', RTree.Load m items RTree.New = some tr' ∧ (Rtree.items tr'.data).Perm items :=
  ⟨_, Load_New m hlo, items_loadNode_perm m items hS⟩

theorem load_keeps_items_twenty :
    minEntries ≤ ((List.range 20).map fun (i : Nat) =>
        (⟨fun _ => (i : ℚ), fun _ => (i : ℚ), i⟩ : TreeItem ℚ Nat)).length ∧
      0 < LoadMath.exact.slices 20 (LoadMath.exact.subtree maxEntries
        (LoadMath.exact.height 20 maxEntries)) ∧
      ∃ tr', RTree.Load LoadMath.exact ((List.range 20).map fun (i : Nat) =>
          (⟨fun _ => (i : ℚ), fun _ => (i : ℚ), i⟩ : TreeItem ℚ Nat)) RTree.New = some tr' ∧
        (Rtree.items tr'.data).Perm ((List.range 20).map fun (i : Nat) =>
          (⟨fun _ => (i : ℚ), fun _ => (i : ℚ), i⟩ : TreeItem ℚ Nat)) :=
  have hlo : minEntries ≤ ((List.range 20).map fun (i : Nat) =>
      (⟨fun _ => (i : ℚ), fun _ => (i : ℚ), i⟩ : TreeItem ℚ Nat)).length := by decide
  have hS : 0 < LoadMath.exact.slices 20 (LoadMath.exact.subtree maxEntries
      (LoadMath.exact.height 20 maxEntries)) := by decide
  ⟨hlo, hS, load_keeps_items LoadMath.exact _ hlo hS⟩

/-- `Load` of `minEntries` to `maxEntries` items into an empty tree, where the float `h` is `1`:
the root is a branch of height `1` over leaves of height `0`, and `Insert` of any item fails,
since it would write the item into the root branch. -/
theorem load_small (m : LoadMath) (items : List (TreeItem α ι)) (hlo : minEntries ≤ items.length)
    (hhi : items.length ≤ maxEntries) (hh : m.height items.length maxEntries = 1) :
    ∃ tr', RTree.Load m items RTree.New = some tr' ∧
      (∃ b cs, tr'.data = .branch b 1 cs ∧ ∀ c ∈ cs, ∃ b' ts, c = .leaf b' 0 ts) ∧
      ¬ RootWF tr'.data ∧
      ∀ (min max : Fin 2 → α) (x : ι), tr'.Insert min max x = none := by
  obtain ⟨b, cs, hnode, hleaves⟩ := loadNode_of_height_one m items hhi hh
  refine ⟨_, Load_New m hlo, ⟨b, cs, hnode, hleaves⟩, ?_, ?_⟩
  · rw [hnode]
    rintro (hempty | hw)
    · cases hempty
    · exact absurd (wf_branch_iff.mp hw).2.1 (lt_irrefl 1)
  · intro min max x
    simp [RTree.Insert, insert, insertAt, hnode]

theorem load_small_six :
    let items : List (TreeItem ℚ Nat) := (List.range 6).map fun (i : Nat) => ⟨fun _ => (i : ℚ), fun _ => (i : ℚ), i⟩
    minEntries ≤ items.length ∧ items.length ≤ maxEntries ∧
      LoadMath.exact.height items.length maxEntries = 1 ∧
      ∃ tr', RTree.Load LoadMath.exact items RTree.New = some tr' ∧
        (∃ b cs, tr'.data = .branch b 1 cs ∧ ∀ c ∈ cs, ∃ b' ts, c = .leaf b' 0 ts) ∧
        ¬ RootWF tr'.data ∧
        ∀ (min max : Fin 2 → ℚ) (x : Nat), tr'.Insert min max x = none := by
  intro items
  have hlo : minEntries ≤ items.length := by decide
  have hhi : items.length ≤ maxEntries := by decide
  have hh : LoadMath.exact.height items.length maxEntries = 1 := by decide
  exact ⟨hlo, hhi, hh, load_small LoadMath.exact items hlo hhi hh⟩

end Load

end Rtree
