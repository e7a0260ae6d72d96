import Tile38.RTree.Invariant
import Mathlib.Tactic.Abel

/-!
# Insertion keeps the invariant

`Insert` on a well-formed root succeeds, leaves the root well formed and adds exactly the new
(rectangle, item) pair to its contents. The argument follows the Go code bottom up:
`chooseSubtree` always picks an existing child, `chooseSplitIndex` cuts an overfull node into
two nonempty parts, so `split` returns two well-formed nodes, and induction on the height
carries this up the insert path to `splitRoot`.
-/

namespace Rtree

universe u v
variable {α : Type u} {ι : Type v}

section Choose

variable [LinearOrder α] [CommRing α]

theorem chooseStep_index (bbox : Rect α) (st : WithBot (WithTop α) × WithTop α × Option Nat)
    (c : TreeNode α ι × Nat) :
    (chooseStep bbox st c).2.2 = st.2.2 ∨ (chooseStep bbox st c).2.2 = some c.2 := by
  dsimp only [chooseStep]
  split_ifs <;> simp

theorem chooseChild_lt (bbox : Rect α) {cs : List (TreeNode α ι)} (hne : cs ≠ []) :
    ∃ j, chooseChild bbox cs = some j ∧ j < cs.length := by
  have hfold : ∀ j, (cs.zipIdx.foldl (chooseStep bbox) (⊤, ⊤, none)).2.2 = some j →
      j < cs.length := by
    refine List.foldlRecOn (motive := fun st => ∀ j, st.2.2 = some j → j < cs.length)
      cs.zipIdx (chooseStep bbox) ?_ ?_
    · intro j h
      simp at h
    intro st hst c hc j hj
    rcases chooseStep_index bbox st c with h | h
    · exact hst j (h ▸ hj)
    · have hcj : c.2 = j := Option.some.inj (h ▸ hj)
      exact hcj ▸ (List.mem_zipIdx' (x := c.1) (i := c.2) hc).1
  have hpos : 0 < cs.length := List.length_pos_iff.mpr hne
  unfold chooseChild
  split
  · rename_i j hj
    exact ⟨j, rfl, hfold j hj⟩
  · exact ⟨0, by simp [hpos], hpos⟩

end Choose

section Split

variable [LinearOrder α] [CommRing α] {β : Type*} (box : β → WithBot (Rect α))
  (key : Fin 2 → β → WithTop α)

theorem splitIndexStep_index (cs : List β) (M : Nat) (st : WithTop α × WithTop α × Nat)
    (i : Nat) :
    (splitIndexStep box cs M st i).2.2 = st.2.2 ∨ (splitIndexStep box cs M st i).2.2 = i := by
  dsimp only [splitIndexStep]
  split_ifs <;> simp

/-- The first cut is always taken: its overlap is finite, below the initial `+∞`. -/
theorem splitIndexStep_top (cs : List β) (M : Nat) (a : WithTop α) (i : Nat) :
    (splitIndexStep box cs M (⊤, a, 0) i).2.2 = i := by
  simp [splitIndexStep]

/-- `chooseSplitIndex` picks a cut in `[m, M - m]` whenever that range is nonempty. -/
theorem chooseSplitIndex_bounds (cs : List β) {m M : Nat} (hm : 2 * m ≤ M) :
    m ≤ chooseSplitIndex box cs m M ∧ chooseSplitIndex box cs m M ≤ M - m := by
  have hrange : List.range' m (M + 1 - m - m) = m :: List.range' (m + 1) (M - m - m) := by
    rw [show M + 1 - m - m = (M - m - m) + 1 by omega, List.range'_succ]
  unfold chooseSplitIndex
  rw [hrange, List.foldl_cons]
  refine List.foldlRecOn
    (motive := fun (st : WithTop α × WithTop α × Nat) => m ≤ st.2.2 ∧ st.2.2 ≤ M - m) _ _ ?_ ?_
  · rw [splitIndexStep_top]
    omega
  · intro st hst i hi
    have hi' := List.mem_range'_1.mp hi
    rcases splitIndexStep_index box cs M st i with h | h
    · exact h ▸ hst
    · rw [h]
      omega

theorem chooseSplitAxis_perm (cs : List β) (m M : Nat) :
    (chooseSplitAxis box key cs m M).Perm cs :=
  (sortByAxis_perm _ _).trans ((sortByAxis_perm _ _).trans (sortByAxis_perm _ _))

/-- An overfull node's children are cut into two nonempty parts that together are all of
them. -/
theorem splitChildren_spec {cs : List β} (hfull : maxEntries < cs.length) :
    (splitChildren box key cs).1 ≠ [] ∧ (splitChildren box key cs).2 ≠ [] ∧
      ((splitChildren box key cs).1 ++ (splitChildren box key cs).2).Perm cs := by
  have hmin : minEntries = 6 := rfl
  have hmax : maxEntries = 13 := rfl
  have hperm := chooseSplitAxis_perm box key cs minEntries cs.length
  have hlen := hperm.length_eq
  obtain ⟨hlo, hhi⟩ := chooseSplitIndex_bounds box
    (chooseSplitAxis box key cs minEntries cs.length) (m := minEntries) (M := cs.length)
    (by omega)
  refine ⟨?_, ?_, ?_⟩
  · simp only [splitChildren, ne_eq, List.take_eq_nil_iff, not_or]
    constructor
    · omega
    · intro hnil
      simp [hnil] at hlen
      omega
  · simp only [splitChildren, ne_eq, List.drop_eq_nil_iff]
    omega
  · simpa [splitChildren] using hperm

end Split

section Nodes

variable [LinearOrder α] [CommRing α]

/-- Splitting a well-formed overfull node gives two well-formed nodes of its height that
share out its items. -/
theorem splitNode_spec {h : Nat} {n : TreeNode α ι} (hw : WF h n) (hfull : maxEntries < n.count) :
    WF h (splitNode n).1 ∧ WF h (splitNode n).2 ∧
      contents (splitNode n).1 + contents (splitNode n).2 = contents n := by
  cases n with
  | leaf b h' ts =>
    obtain ⟨rfl, hh, -, -⟩ := wf_leaf_iff.mp hw
    obtain ⟨hne₁, hne₂, hperm⟩ := splitChildren_spec itemBox itemKey (by simpa using hfull)
    refine ⟨wf_leaf_iff.mpr ⟨rfl, hh, hne₁, rfl⟩, wf_leaf_iff.mpr ⟨rfl, hh, hne₂, rfl⟩, ?_⟩
    simpa [splitNode] using Multiset.coe_eq_coe.mpr hperm
  | branch b h' cs =>
    obtain ⟨rfl, hgt, -, -, hl⟩ := wf_branch_iff.mp hw
    obtain ⟨hne₁, hne₂, hperm⟩ := splitChildren_spec nodeBox nodeKey (by simpa using hfull)
    have hsub : ∀ c ∈ (splitChildren nodeBox nodeKey cs).1 ++ (splitChildren nodeBox nodeKey cs).2,
        WF (h' - 1) c := fun c hc => wfList_iff.mp hl c (hperm.subset hc)
    refine ⟨wf_branch_iff.mpr ⟨rfl, hgt, hne₁, rfl, ?_⟩, wf_branch_iff.mpr ⟨rfl, hgt, hne₂, rfl, ?_⟩, ?_⟩
    · exact wfList_iff.mpr fun c hc => hsub c (List.mem_append_left _ hc)
    · exact wfList_iff.mpr fun c hc => hsub c (List.mem_append_right _ hc)
    · simpa [splitNode] using (hperm.map contents).sum_eq

theorem splitIfFull_spec {h : Nat} {n : TreeNode α ι} (hw : WF h n) :
    WF h (splitIfFull n).1 ∧ (∀ x ∈ (splitIfFull n).2, WF h x) ∧
      contents (splitIfFull n).1 + ((splitIfFull n).2.toList.map contents).sum = contents n := by
  unfold splitIfFull
  split_ifs with hfull
  · obtain ⟨h₁, h₂, hsum⟩ := splitNode_spec hw hfull
    exact ⟨h₁, by simpa using h₂, by simpa using hsum⟩
  · exact ⟨hw, by simp, by simp⟩

omit [CommRing α] in
/-- The box of a leaf after `node.extend(bbox)` is the hull of its items and the new one. -/
theorem calcBBox_append_item {b : WithBot (Rect α)} {ts : List (TreeItem α ι)}
    (hb : b = calcBBox itemBox ts) (t : TreeItem α ι) :
    b ⊔ (t.rect : WithBot (Rect α)) = calcBBox itemBox (ts ++ [t]) := by
  simp [hb, calcBBox_append, itemBox]

end Nodes

section InsertItem

variable [LinearOrder α] [CommRing α] (t : TreeItem α ι) (level : Nat)

/-- What inserting `t` below a node of height `h` must give: the updated node and the node
split off it, both well formed at height `h`, together holding the node's items and `t`. -/
def InsertResult (h : Nat) (n : TreeNode α ι) (r : TreeNode α ι × Option (TreeNode α ι)) :
    Prop :=
  WF h r.1 ∧ (∀ x ∈ r.2, WF h x) ∧ contents r.1 + (r.2.toList.map contents).sum = contents n + {t}

theorem insertResult_leaf {b : WithBot (Rect α)} {ts : List (TreeItem α ι)}
    (hb : b = calcBBox itemBox ts) :
    InsertResult t 1 (.leaf b 1 ts) (splitIfFull (.leaf (b ⊔ t.rect) 1 (ts ++ [t]))) := by
  have hw : WF 1 (TreeNode.leaf (b ⊔ t.rect) 1 (ts ++ [t])) :=
    wf_leaf_iff.mpr ⟨rfl, rfl, by simp, calcBBox_append_item hb t⟩
  obtain ⟨h₁, h₂, hsum⟩ := splitIfFull_spec hw
  refine ⟨h₁, h₂, ?_⟩
  rw [hsum, contents_leaf, contents_leaf, ← Multiset.coe_singleton, Multiset.coe_add]

omit [CommRing α] in
/-- A branch whose updated child list holds the old items and `t` (plus the child split off
below, `s`) is well formed and takes `t`, after splitting if overfull. -/
theorem insertResult_branch {h : Nat} {b : WithBot (Rect α)} {cs cs' : List (TreeNode α ι)}
    {s : Option (TreeNode α ι)} (hgt : 1 < h) (hne : cs' ≠ []) (hb : b = calcBBox nodeBox cs)
    (hl : WFList (h - 1) cs) (hl' : WFList (h - 1) (cs' ++ s.toList))
    (hsum : ((cs' ++ s.toList).map contents).sum = (cs.map contents).sum + {t}) :
    (b ⊔ t.rect = calcBBox nodeBox (cs' ++ s.toList)) ∧
      WF h (.branch (b ⊔ t.rect) h (cs' ++ s.toList)) := by
  have hbox : b ⊔ t.rect = calcBBox nodeBox (cs' ++ s.toList) := by
    have hitems : (itemsList (cs' ++ s.toList) : Multiset (TreeItem α ι)) =
        (itemsList cs ++ [t] : List (TreeItem α ι)) := by
      rw [coe_itemsList, hsum, ← coe_itemsList, ← Multiset.coe_singleton, Multiset.coe_add]
    rw [calcBBox_nodeBox hl', calcBBox_perm itemBox (Multiset.coe_eq_coe.mp hitems),
      ← calcBBox_append_item (calcBBox_nodeBox hl) t, hb]
  exact ⟨hbox, wf_branch_iff.mpr ⟨rfl, hgt, by simp [hne], hbox, hl'⟩⟩

theorem insertChild_item {h depth : Nat}
    (ih : ∀ c : TreeNode α ι, WF h c →
      ∃ r, insertAt t.rect (.item t) level (depth + 1) c = some r ∧ InsertResult t h c r) :
    ∀ (j : Nat) (cs : List (TreeNode α ι)), WFList h cs → j < cs.length →
      ∃ cs' s, insertChild t.rect (.item t) level depth j cs = some (cs', s) ∧
        WFList h (cs' ++ s.toList) ∧ cs'.length = cs.length ∧
        ((cs' ++ s.toList).map contents).sum = (cs.map contents).sum + {t}
  | _, [], _, hj => absurd hj (Nat.not_lt_zero _)
  | 0, c :: cs, hl, _ => by
    obtain ⟨hc, hcs⟩ := wfList_cons.mp hl
    obtain ⟨⟨c', s⟩, hr, hw', hs, hsum⟩ := ih c hc
    refine ⟨c' :: cs, s, by simp [insertChild, hr], ?_, by simp, ?_⟩
    · have hs' : WFList h s.toList := wfList_iff.mpr fun x hx => hs x (by simpa using hx)
      exact wfList_append.mpr ⟨wfList_cons.mpr ⟨hw', hcs⟩, hs'⟩
    · calc ((c' :: cs ++ s.toList).map contents).sum
          = (contents c' + (s.toList.map contents).sum) + (cs.map contents).sum := by
            simp only [List.cons_append, List.map_cons, List.map_append, List.sum_cons,
              List.sum_append]
            abel
        _ = ((c :: cs).map contents).sum + {t} := by
            rw [hsum]
            simp only [List.map_cons, List.sum_cons]
            abel
  | j + 1, c :: cs, hl, hj => by
    obtain ⟨hc, hcs⟩ := wfList_cons.mp hl
    obtain ⟨cs', s, hr, hl', hlen, hsum⟩ := insertChild_item ih j cs hcs (by simpa using hj)
    refine ⟨c :: cs', s, by simp [insertChild, hr], ?_, by simp [hlen], ?_⟩
    · simpa using wfList_cons.mpr ⟨hc, hl'⟩
    · simp only [List.cons_append, List.map_cons, List.sum_cons, hsum]
      abel

/-- Inserting an item below a well-formed node at the depth that puts the leaves at
`level` succeeds and gives an `InsertResult`. The induction is on the height. -/
theorem insertAt_item :
    ∀ (h depth : Nat) (n : TreeNode α ι), WF h n → depth + h = level + 1 →
      ∃ r, insertAt t.rect (.item t) level depth n = some r ∧ InsertResult t h n r
  | 0, _, _, hw, _ => absurd hw.height_pos (lt_irrefl 0)
  | h + 1, depth, .leaf b h' ts, hw, hd => by
    obtain ⟨rfl, hh, -, hb⟩ := wf_leaf_iff.mp hw
    have hdepth : depth = level := by omega
    have h0 : h = 0 := by omega
    subst h0
    exact ⟨splitIfFull (.leaf (b ⊔ t.rect) 1 (ts ++ [t])), by simp [insertAt, hdepth],
      insertResult_leaf t hb⟩
  | h + 1, depth, .branch b h' cs, hw, hd => by
    obtain ⟨rfl, hgt, hne, hb, hl⟩ := wf_branch_iff.mp hw
    have hdepth : depth ≠ level := by omega
    obtain ⟨j, hj, hjlt⟩ := chooseChild_lt t.rect hne
    obtain ⟨cs', s, hr, hl', hlen, hsum⟩ := insertChild_item t level
      (fun c hc => insertAt_item h (depth + 1) c hc (by omega)) j cs (by simpa using hl) hjlt
    have hne' : cs' ≠ [] := by
      intro hnil
      simp [hnil] at hlen
      exact hne (List.length_eq_zero_iff.mp hlen.symm)
    obtain ⟨hbox, hw'⟩ := insertResult_branch t hgt hne' hb hl (by simpa using hl') hsum
    cases s with
    | none =>
      refine ⟨(.branch (b ⊔ t.rect) (h + 1) cs', none), by simp [insertAt, hdepth, hj, hr],
        by simpa using hw', by simp, ?_⟩
      simpa using hsum
    | some x =>
      have hsplit := splitIfFull_spec (n := .branch (b ⊔ t.rect) (h + 1) (cs' ++ [x]))
        (by simpa using hw')
      refine ⟨splitIfFull (.branch (b ⊔ t.rect) (h + 1) (cs' ++ [x])),
        by simp [insertAt, hdepth, hj, hr], hsplit.1, hsplit.2.1, ?_⟩
      rw [hsplit.2.2]
      simpa using hsum

theorem insert_of_result {tr : RTree α ι} {H : Nat} {r : TreeNode α ι × Option (TreeNode α ι)}
    (hH : 0 < H) (hr : insertAt t.rect (.item t) level 0 tr.data = some r)
    (hres : InsertResult t H tr.data r) :
    ∃ tr', insert t.rect (.item t) level tr = some tr' ∧ RootWF tr'.data ∧
      contents tr'.data = contents tr.data + {t} := by
  obtain ⟨n', s⟩ := r
  obtain ⟨hw', hs, hsum⟩ := hres
  cases s with
  | none =>
    refine ⟨⟨n'⟩, by simp [insert, hr], Or.inr (hw'.height_eq ▸ hw'), ?_⟩
    simpa using hsum
  | some x =>
    have hx : WF H x := hs x rfl
    have hroot : WF (H + 1) (splitRoot n' x) := by
      refine wf_branch_iff.mpr ⟨by simp [hw'.height_eq], by omega, by simp, rfl, ?_⟩
      simpa using wfList_cons.mpr ⟨hw', wfList_cons.mpr ⟨hx, by simp [WFList]⟩⟩
    refine ⟨⟨splitRoot n' x⟩, by simp [insert, hr], Or.inr (hroot.height_eq ▸ hroot), ?_⟩
    simpa [splitRoot] using hsum

end InsertItem

section Root

variable [LinearOrder α] [CommRing α]

theorem insert_item {tr : RTree α ι} (hw : RootWF tr.data) (t : TreeItem α ι) :
    ∃ tr', insert t.rect (.item t) (tr.data.height - 1) tr = some tr' ∧ RootWF tr'.data ∧
      contents tr'.data = contents tr.data + {t} := by
  rcases hw with hempty | hw
  · have hr : insertAt t.rect (.item t) (tr.data.height - 1) 0 tr.data =
        some (splitIfFull (.leaf (⊥ ⊔ t.rect) 1 ([] ++ [t]))) := by
      simp [hempty, TreeNode.empty, insertAt]
    refine insert_of_result t _ Nat.one_pos hr ?_
    rw [hempty]
    exact insertResult_leaf t rfl
  · obtain ⟨r, hr, hres⟩ := insertAt_item t (tr.data.height - 1) tr.data.height 0 tr.data hw
      (by have := hw.height_pos; omega)
    exact insert_of_result t _ hw.height_pos hr hres

/-- `Insert(min, max, item)` on a well-formed root. -/
theorem RTree.Insert_contents {tr : RTree α ι} (hw : RootWF tr.data) (min max : Fin 2 → α)
    (x : ι) :
    ∃ tr', tr.Insert min max x = some tr' ∧ RootWF tr'.data ∧
      contents tr'.data = contents tr.data + {⟨min, max, x⟩} :=
  insert_item hw ⟨min, max, x⟩

end Root

end Rtree
