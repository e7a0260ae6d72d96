import Tile38.RTree.Invariant
import Mathlib.Tactic.Abel

/-!
# Removal keeps the invariant

On a well-formed tree the walk of `remove` finds an item it is given with the rectangle it
was inserted with: every box on the way down contains that rectangle, so the walk enters
each ancestor. Whatever it finds, one pair carrying the item leaves the tree, and `condense`
leaves every node on the path either emptied (then cut out of its parent) or well formed.
When no pair carries the item the tree is left as it was.
-/

namespace Rtree

universe u v
variable {α : Type u} {ι : Type v}

theorem coe_eraseIdx {ts : List (TreeItem α ι)} {k : Nat} (hk : k < ts.length) :
    (ts : Multiset (TreeItem α ι)) = (ts.eraseIdx k : Multiset (TreeItem α ι)) + {ts[k]} := by
  rw [← Multiset.coe_eq_coe.mpr (List.getElem_cons_eraseIdx_perm hk), ← Multiset.cons_coe,
    ← Multiset.singleton_add, add_comm]

section Find

variable [DecidableEq ι]

theorem findItem_some {x : ι} {ts : List (TreeItem α ι)} {k : Nat} (h : findItem x ts = some k) :
    ∃ hk : k < ts.length, ts[k].item = x := by
  obtain ⟨hk, hp, -⟩ := List.findIdx?_eq_some_iff_getElem.mp h
  exact ⟨hk, by simpa using hp⟩

theorem findItem_eq_none {x : ι} {ts : List (TreeItem α ι)} :
    findItem x ts = none ↔ ∀ t ∈ ts, t.item ≠ x := by
  simp [findItem, List.findIdx?_eq_none_iff]

end Find

section Condense

variable [LinearOrder α]

@[simp] theorem contents_condenseNode (n : TreeNode α ι) : contents (condenseNode n) = contents n := by
  cases n with
  | leaf b h ts => simp only [condenseNode]; split_ifs <;> simp
  | branch b h cs => simp only [condenseNode]; split_ifs <;> simp

theorem condenseNode_leaf {b : WithBot (Rect α)} {ts : List (TreeItem α ι)} :
    (condenseNode (.leaf b 1 ts)).count = 0 ∨ WF 1 (condenseNode (.leaf b 1 ts)) := by
  simp only [condenseNode]
  split_ifs with h0
  · exact Or.inl (by simpa using h0)
  · exact Or.inr (wf_leaf_iff.mpr ⟨rfl, rfl, by simpa using h0, rfl⟩)

theorem condenseNode_branch {b : WithBot (Rect α)} {h : Nat} {cs : List (TreeNode α ι)}
    (hgt : 1 < h) (hl : WFList (h - 1) cs) :
    (condenseNode (.branch b h cs)).count = 0 ∨ WF h (condenseNode (.branch b h cs)) := by
  simp only [condenseNode]
  split_ifs with h0
  · exact Or.inl (by simpa using h0)
  · exact Or.inr (wf_branch_iff.mpr ⟨rfl, hgt, by simpa using h0, rfl, hl⟩)

end Condense

variable [LinearOrder α] [DecidableEq ι]

/-- What the walk returns below a node of height `h` once it has found `x`: one pair carrying
`x` has left, and the node is emptied or well formed. -/
def RemoveResult (h : Nat) (x : ι) (n n' : TreeNode α ι) : Prop :=
  ∃ t : TreeItem α ι, t.item = x ∧ contents n = contents n' + {t} ∧ (n'.count = 0 ∨ WF h n')

section Walk

variable (bbox : Rect α) (x : ι)

theorem removeChildren_spec {h : Nat}
    (ih : ∀ c n' : TreeNode α ι, WF h c → removeAt bbox x c = some n' → RemoveResult h x c n') :
    ∀ cs cs' : List (TreeNode α ι), WFList h cs → removeChildren bbox x cs = some cs' →
      ∃ t : TreeItem α ι, t.item = x ∧
        (cs.map contents).sum = (cs'.map contents).sum + {t} ∧ WFList h cs'
  | [], _, _, hr => by simp [removeChildren] at hr
  | c :: cs, cs', hl, hr => by
    obtain ⟨hc, hcs⟩ := wfList_cons.mp hl
    cases hc' : removeAt bbox x c with
    | some c' =>
      simp only [removeChildren, hc', Option.some.injEq] at hr
      obtain ⟨t, ht, hsum, hc''⟩ := ih c c' hc hc'
      refine ⟨t, ht, ?_⟩
      by_cases h0 : c'.count = 0
      · rw [if_pos h0] at hr
        subst hr
        refine ⟨?_, hcs⟩
        rw [List.map_cons, List.sum_cons, hsum, contents_eq_zero_of_count h0]
        abel
      · rw [if_neg h0] at hr
        subst hr
        refine ⟨?_, wfList_cons.mpr ⟨hc''.resolve_left h0, hcs⟩⟩
        simp only [List.map_cons, List.sum_cons, hsum]
        abel
    | none =>
      cases hrest : removeChildren bbox x cs with
      | none => simp [removeChildren, hc', hrest] at hr
      | some cs'' =>
        simp only [removeChildren, hc', hrest, Option.some.injEq] at hr
        subst hr
        obtain ⟨t, ht, hsum, hl'⟩ := removeChildren_spec ih cs cs'' hcs hrest
        refine ⟨t, ht, ?_, wfList_cons.mpr ⟨hc, hl'⟩⟩
        simp only [List.map_cons, List.sum_cons, hsum]
        abel

theorem removeAt_spec :
    ∀ (h : Nat) (n n' : TreeNode α ι), WF h n → removeAt bbox x n = some n' →
      RemoveResult h x n n'
  | 0, _, _, hw, _ => absurd hw.height_pos (lt_irrefl 0)
  | h + 1, .leaf b h' ts, n', hw, hr => by
    obtain ⟨rfl, hh, -, -⟩ := wf_leaf_iff.mp hw
    cases hk : findItem x ts with
    | none => simp [removeAt, hk] at hr
    | some k =>
      simp only [removeAt, hk, Option.some.injEq] at hr
      subst hr
      obtain ⟨hklt, hx⟩ := findItem_some hk
      refine ⟨ts[k], hx, by simpa using coe_eraseIdx hklt, ?_⟩
      rw [hh]
      exact condenseNode_leaf
  | h + 1, .branch b h' cs, n', hw, hr => by
    obtain ⟨rfl, hgt, -, -, hl⟩ := wf_branch_iff.mp hw
    by_cases hc : contains b bbox
    · cases hrc : removeChildren bbox x cs with
      | none => simp [removeAt, hc, hrc] at hr
      | some cs' =>
        simp only [removeAt, hc, hrc, if_true, Option.some.injEq] at hr
        subst hr
        obtain ⟨t, ht, hsum, hl'⟩ := removeChildren_spec bbox x
          (fun c n' hc hr => removeAt_spec h c n' hc hr) cs cs' (by simpa using hl) hrc
        refine ⟨t, ht, by simp [hsum], condenseNode_branch hgt (by simpa using hl')⟩
    · simp [removeAt, hc] at hr

theorem removeAt_eq_none {h : Nat} {n : TreeNode α ι} (hw : WF h n)
    (hx : ∀ t ∈ items n, t.item ≠ x) : removeAt bbox x n = none := by
  cases hr : removeAt bbox x n with
  | none => rfl
  | some n' =>
    obtain ⟨t, ht, hsum, -⟩ := removeAt_spec bbox x h n n' hw hr
    have hmem : t ∈ items n := mem_contents.mp (by simp [hsum])
    exact absurd ht (hx t hmem)

end Walk

section Found

variable (x : ι)

theorem removeChildren_isSome {h : Nat} {t : TreeItem α ι}
    (ih : ∀ c : TreeNode α ι, WF h c → t ∈ items c → (removeAt t.rect x c).isSome) :
    ∀ cs : List (TreeNode α ι), WFList h cs → t ∈ itemsList cs →
      (removeChildren t.rect x cs).isSome
  | [], _, ht => by simp at ht
  | c :: cs, hl, ht => by
    obtain ⟨hc, hcs⟩ := wfList_cons.mp hl
    cases hc' : removeAt t.rect x c with
    | some c' => simp [removeChildren, hc']
    | none =>
      have htc : t ∉ items c := fun htc => by simpa [hc'] using ih c hc htc
      have hcs' : t ∈ itemsList cs := by
        simpa [htc] using ht
      obtain ⟨cs', hcs''⟩ := Option.isSome_iff_exists.mp (removeChildren_isSome ih cs hcs hcs')
      simp [removeChildren, hc', hcs'']

/-- Given the rectangle it was inserted with, the walk finds an item that is below a
well-formed node: each ancestor's box contains that rectangle. -/
theorem removeAt_isSome :
    ∀ (h : Nat) (n : TreeNode α ι) (t : TreeItem α ι), WF h n → t ∈ items n → t.item = x →
      (removeAt t.rect x n).isSome
  | 0, _, _, hw, _, _ => absurd hw.height_pos (lt_irrefl 0)
  | h + 1, .leaf b h' ts, t, _, ht, hx => by
    have hfind : findItem x ts ≠ none := fun hnone =>
      findItem_eq_none.mp hnone t (by simpa using ht) hx
    obtain ⟨k, hk⟩ := Option.ne_none_iff_exists'.mp hfind
    simp [removeAt, hk]
  | h + 1, .branch b h' cs, t, hw, ht, hx => by
    have hc : contains b t.rect := by
      simpa [contains] using hw.rect_le_bbox ht
    obtain ⟨rfl, -, -, -, hl⟩ := wf_branch_iff.mp hw
    have hsome := removeChildren_isSome x (fun c hc htc => removeAt_isSome h c t hc htc hx) cs
      (by simpa using hl) (by simpa using ht)
    obtain ⟨cs', hcs'⟩ := Option.isSome_iff_exists.mp hsome
    simp [removeAt, hc, hcs']

end Found

section Root

/-- `remove` of a pair of a well-formed root, given its rectangle: one pair carrying its item
leaves and the root stays well formed. -/
theorem remove_mem {tr : RTree α ι} (hw : RootWF tr.data) {t : TreeItem α ι}
    (ht : t ∈ items tr.data) :
    ∃ t' : TreeItem α ι, t'.item = t.item ∧
      contents tr.data = contents (remove t.rect t.item tr).data + {t'} ∧
      RootWF (remove t.rect t.item tr).data := by
  rcases hw with hempty | hw
  · simp [hempty, items_empty] at ht
  obtain ⟨n', hn'⟩ := Option.isSome_iff_exists.mp
    (removeAt_isSome t.item tr.data.height tr.data t hw ht rfl)
  obtain ⟨t', ht', hsum, hn''⟩ := removeAt_spec t.rect t.item tr.data.height tr.data n' hw hn'
  refine ⟨t', ht', ?_⟩
  by_cases h0 : n'.count = 0
  · have hrem : remove t.rect t.item tr = ⟨.empty⟩ := by simp [remove, hn', h0]
    rw [hrem]
    exact ⟨by simpa [contents_eq_zero_of_count h0] using hsum, Or.inl rfl⟩
  · have hrem : remove t.rect t.item tr = ⟨n'⟩ := by simp [remove, hn', h0]
    rw [hrem]
    have hw' := hn''.resolve_left h0
    exact ⟨hsum, Or.inr (hw'.height_eq ▸ hw')⟩

/-- Any `remove` keeps a well-formed root well formed: either the walk finds nothing, or it
returns a node that is emptied, and replaced by a fresh root, or well formed. -/
theorem remove_rootWF {tr : RTree α ι} (hw : RootWF tr.data) (bbox : Rect α) (x : ι) :
    RootWF (remove bbox x tr).data := by
  cases hr : removeAt bbox x tr.data with
  | none =>
    rw [remove, hr]
    exact hw
  | some n' =>
    rcases hw with hempty | hw
    · simp [hempty, TreeNode.empty, removeAt, findItem] at hr
    obtain ⟨t, -, -, hn'⟩ := removeAt_spec bbox x tr.data.height tr.data n' hw hr
    by_cases h0 : n'.count = 0
    · simp only [remove, hr, if_pos h0]
      exact Or.inl rfl
    · simp only [remove, hr, if_neg h0]
      have hw' := hn'.resolve_left h0
      exact Or.inr (hw'.height_eq ▸ hw')

/-- `remove` of an item no pair carries leaves the tree as it is. -/
theorem remove_of_not_mem {tr : RTree α ι} (hw : RootWF tr.data) (bbox : Rect α) {x : ι}
    (hx : ∀ t ∈ items tr.data, t.item ≠ x) : remove bbox x tr = tr := by
  rcases hw with hempty | hw
  · simp [remove, hempty, TreeNode.empty, removeAt, findItem]
  · simp [remove, removeAt_eq_none bbox x hw hx]

end Root

end Rtree
