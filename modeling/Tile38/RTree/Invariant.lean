import Tile38.RTree.Remove
import Tile38.RTree.Search
import Mathlib.Algebra.BigOperators.Group.List.Basic
import Mathlib.Algebra.Order.Group.Multiset

/-!
# The R-tree invariant

`WF h n`: `n` is a subtree of height `h` whose leaves all have height 1, whose branches have
children of height `h - 1`, where every node holds at least one child and every box is the
hull of its children's boxes (so of the items below it). A root is well formed when it is
`WF` at its own height or is the empty leaf `createNode(nil)`.

Node counts are not bounded here: correctness of the queries does not depend on them. What
insertion needs is that a split leaves both halves nonempty, which `chooseSplitIndex` ensures
for any node with more than `maxEntries` children.
-/

namespace Rtree

universe u v
variable {α : Type u} {ι : Type v}

mutual

/-- The items below a node, left to right. -/
def items : TreeNode α ι → List (TreeItem α ι)
  | .leaf _ _ ts => ts
  | .branch _ _ cs => itemsList cs

def itemsList : List (TreeNode α ι) → List (TreeItem α ι)
  | [] => []
  | c :: cs => items c ++ itemsList cs

end

@[simp] theorem items_leaf (b : WithBot (Rect α)) (h : Nat) (ts : List (TreeItem α ι)) :
    items (.leaf b h ts) = ts := rfl

@[simp] theorem items_branch (b : WithBot (Rect α)) (h : Nat) (cs : List (TreeNode α ι)) :
    items (.branch b h cs) = itemsList cs := rfl

@[simp] theorem itemsList_nil : itemsList ([] : List (TreeNode α ι)) = [] := rfl

@[simp] theorem itemsList_cons (c : TreeNode α ι) (cs : List (TreeNode α ι)) :
    itemsList (c :: cs) = items c ++ itemsList cs := rfl

theorem itemsList_eq_flatMap (cs : List (TreeNode α ι)) : itemsList cs = cs.flatMap items := by
  induction cs with
  | nil => rfl
  | cons c cs ih => rw [itemsList_cons, ih, List.flatMap_cons]

@[simp] theorem items_setBBox (b : WithBot (Rect α)) (n : TreeNode α ι) :
    items (n.setBBox b) = items n := by cases n <;> rfl

theorem items_empty : items (TreeNode.empty : TreeNode α ι) = [] := rfl

theorem items_eq_nil_of_count {n : TreeNode α ι} (h : n.count = 0) : items n = [] := by
  cases n with
  | leaf b ht ts => simpa using h
  | branch b ht cs =>
    have hcs : cs = [] := List.length_eq_zero_iff.mp h
    simp [hcs]

/-- The (rectangle, item) pairs stored below a node: the multiset the tree stands for. -/
def contents (n : TreeNode α ι) : Multiset (TreeItem α ι) := items n

theorem coe_itemsList (cs : List (TreeNode α ι)) :
    (itemsList cs : Multiset (TreeItem α ι)) = (cs.map contents).sum := by
  induction cs with
  | nil => simp
  | cons c cs ih =>
    rw [itemsList_cons, ← Multiset.coe_add, ih]
    simp [contents]

@[simp] theorem contents_leaf (b : WithBot (Rect α)) (h : Nat) (ts : List (TreeItem α ι)) :
    contents (.leaf b h ts) = ts := rfl

@[simp] theorem contents_branch (b : WithBot (Rect α)) (h : Nat) (cs : List (TreeNode α ι)) :
    contents (.branch b h cs) = (cs.map contents).sum := by
  simp [contents, coe_itemsList]

@[simp] theorem contents_empty : contents (TreeNode.empty : TreeNode α ι) = 0 := rfl

theorem contents_eq_zero_of_count {n : TreeNode α ι} (h : n.count = 0) : contents n = 0 := by
  simp [contents, items_eq_nil_of_count h]

theorem mem_contents {n : TreeNode α ι} {t : TreeItem α ι} : t ∈ contents n ↔ t ∈ items n :=
  Multiset.mem_coe

mutual

theorem childCount_eq : (n : TreeNode α ι) → n.childCount = (items n).length
  | .leaf _ _ ts => by simp [TreeNode.childCount]
  | .branch _ _ cs => by simp [TreeNode.childCount, childCountList_eq cs]

theorem childCountList_eq : (cs : List (TreeNode α ι)) →
    TreeNode.childCount.childCountList cs = (itemsList cs).length
  | [] => by simp [TreeNode.childCount.childCountList]
  | c :: cs => by
    simp [TreeNode.childCount.childCountList, childCount_eq c, childCountList_eq cs]

end

section WF

variable [LinearOrder α]

mutual

/-- The subtree invariant at height `h`. -/
def WF : Nat → TreeNode α ι → Prop
  | h, .leaf b h' ts => h' = h ∧ h = 1 ∧ ts ≠ [] ∧ b = calcBBox itemBox ts
  | h, .branch b h' cs => h' = h ∧ 1 < h ∧ cs ≠ [] ∧ b = calcBBox nodeBox cs ∧ WFList (h - 1) cs

/-- Every node of a list satisfies `WF h`. -/
def WFList : Nat → List (TreeNode α ι) → Prop
  | _, [] => True
  | h, c :: cs => WF h c ∧ WFList h cs

end

/-- The invariant of a root. -/
def RootWF (n : TreeNode α ι) : Prop := n = .empty ∨ WF n.height n

theorem wf_leaf_iff {h : Nat} {b : WithBot (Rect α)} {h' : Nat} {ts : List (TreeItem α ι)} :
    WF h (.leaf b h' ts) ↔ h' = h ∧ h = 1 ∧ ts ≠ [] ∧ b = calcBBox itemBox ts :=
  Iff.rfl

theorem wf_branch_iff {h : Nat} {b : WithBot (Rect α)} {h' : Nat} {cs : List (TreeNode α ι)} :
    WF h (.branch b h' cs) ↔
      h' = h ∧ 1 < h ∧ cs ≠ [] ∧ b = calcBBox nodeBox cs ∧ WFList (h - 1) cs :=
  Iff.rfl

theorem wfList_cons {h : Nat} {c : TreeNode α ι} {cs : List (TreeNode α ι)} :
    WFList h (c :: cs) ↔ WF h c ∧ WFList h cs :=
  Iff.rfl

theorem wfList_iff {h : Nat} {cs : List (TreeNode α ι)} : WFList h cs ↔ ∀ c ∈ cs, WF h c := by
  induction cs with
  | nil => exact ⟨fun _ _ hc => absurd hc List.not_mem_nil, fun _ => trivial⟩
  | cons c cs ih => rw [wfList_cons, ih, List.forall_mem_cons]

theorem wfList_append {h : Nat} {l₁ l₂ : List (TreeNode α ι)} :
    WFList h (l₁ ++ l₂) ↔ WFList h l₁ ∧ WFList h l₂ := by
  simp only [wfList_iff, List.mem_append, or_imp, forall_and]

theorem WF.height_eq {h : Nat} {n : TreeNode α ι} (hw : WF h n) : n.height = h := by
  cases n with
  | leaf b h' ts => exact (wf_leaf_iff.mp hw).1
  | branch b h' cs => exact (wf_branch_iff.mp hw).1

theorem WF.height_pos {h : Nat} {n : TreeNode α ι} (hw : WF h n) : 0 < h := by
  cases n with
  | leaf b h' ts => have := (wf_leaf_iff.mp hw).2.1; omega
  | branch b h' cs => have := (wf_branch_iff.mp hw).2.1; omega

theorem WF.count_pos {h : Nat} {n : TreeNode α ι} (hw : WF h n) : 0 < n.count := by
  cases n with
  | leaf b h' ts => exact List.length_pos_iff.mpr (wf_leaf_iff.mp hw).2.2.1
  | branch b h' cs => exact List.length_pos_iff.mpr (wf_branch_iff.mp hw).2.2.1

theorem calcBBox_nodeBox_of {cs : List (TreeNode α ι)}
    (hc : ∀ c ∈ cs, nodeBox c = calcBBox itemBox (items c)) :
    calcBBox nodeBox cs = calcBBox itemBox (itemsList cs) := by
  induction cs with
  | nil => rfl
  | cons c cs ih =>
    have hhead := hc c (by simp)
    have htail := ih fun c' hc' => hc c' (List.mem_cons_of_mem c hc')
    simp only [calcBBox_cons, itemsList_cons, calcBBox_append, hhead, htail]

theorem WF.bbox_eq {h : Nat} {n : TreeNode α ι} (hw : WF h n) :
    n.bbox = calcBBox itemBox (items n) := by
  induction h generalizing n with
  | zero => exact absurd hw.height_pos (lt_irrefl 0)
  | succ k ih =>
    cases n with
    | leaf b h' ts => simpa using (wf_leaf_iff.mp hw).2.2.2
    | branch b h' cs =>
      obtain ⟨-, -, -, hb, hl⟩ := wf_branch_iff.mp hw
      have hchildren : ∀ c ∈ cs, nodeBox c = calcBBox itemBox (items c) :=
        fun c hc => ih (by simpa using (wfList_iff.mp hl) c hc)
      simpa [hb] using calcBBox_nodeBox_of hchildren

theorem calcBBox_nodeBox {h : Nat} {cs : List (TreeNode α ι)} (hl : WFList h cs) :
    calcBBox nodeBox cs = calcBBox itemBox (itemsList cs) :=
  calcBBox_nodeBox_of fun c hc => ((wfList_iff.mp hl) c hc).bbox_eq

theorem WF.rect_le_bbox {h : Nat} {n : TreeNode α ι} (hw : WF h n) {t : TreeItem α ι}
    (ht : t ∈ items n) : (t.rect : WithBot (Rect α)) ≤ n.bbox := by
  rw [hw.bbox_eq]
  exact le_calcBBox itemBox ht

theorem calcBBox_itemBox (ts : List (TreeItem α ι)) :
    calcBBox itemBox ts = Box.hull (ts.map TreeItem.rect) := by
  induction ts with
  | nil => rfl
  | cons t ts ih => simp [ih, itemBox]

theorem WF.items_ne_nil {h : Nat} {n : TreeNode α ι} (hw : WF h n) : items n ≠ [] := by
  induction h generalizing n with
  | zero => exact absurd hw.height_pos (lt_irrefl 0)
  | succ k ih =>
    cases n with
    | leaf b h' ts => simpa using (wf_leaf_iff.mp hw).2.2.1
    | branch b h' cs =>
      obtain ⟨-, hgt, hne, -, hl⟩ := wf_branch_iff.mp hw
      obtain ⟨c, cs', rfl⟩ := List.exists_cons_of_ne_nil hne
      have hc : WF k c := by simpa using (wfList_iff.mp hl) c (by simp)
      simpa using fun hnil => ih hc (List.append_eq_nil_iff.mp hnil).1

theorem RootWF.rect_le_bbox {n : TreeNode α ι} (hw : RootWF n) {t : TreeItem α ι}
    (ht : t ∈ items n) : (t.rect : WithBot (Rect α)) ≤ n.bbox := by
  rcases hw with rfl | hw
  · simp [items_empty] at ht
  · exact hw.rect_le_bbox ht

end WF

end Rtree
