import Tile38.RTree.Refinement

/-!
# Node capacity (`pkg/index/rtree/base.go`)

A node keeps its children in an array of `M + 1` slots. `insert` writes the new child at
`node.children[node.count]` and only then tests the node for a split; a split writes the node
it splits off into the parent in the same way, and `condense` only removes children. The array
is large enough when every node holds at most `maxEntries` children between calls (`Fits`): the
node `insert` tests then holds at most `maxEntries + 1` children (`Handed`, `handed_count_le`),
and a split shares them out in two parts of at least `minEntries`.

Every tree reachable from `New` by `Insert` and `Remove` is well formed and fits, so that every
`Insert` on it succeeds and writes inside the arrays (`rtree_structure_invariant`).
-/

namespace Rtree

universe u v
variable {α : Type u} {ι : Type v}

section Fits

mutual

/-- Every node holds at most `maxEntries` children. -/
def Fits : TreeNode α ι → Prop
  | .leaf _ _ ts => ts.length ≤ maxEntries
  | .branch _ _ cs => cs.length ≤ maxEntries ∧ FitsList cs

/-- Every node of a list fits. -/
def FitsList : List (TreeNode α ι) → Prop
  | [] => True
  | c :: cs => Fits c ∧ FitsList cs

end

theorem fitsList_iff {cs : List (TreeNode α ι)} : FitsList cs ↔ ∀ c ∈ cs, Fits c := by
  induction cs with
  | nil => simp [FitsList]
  | cons c cs ih => simp [FitsList, ih]

theorem fits_leaf_iff {b : WithBot (Rect α)} {h : Nat} {ts : List (TreeItem α ι)} :
    Fits (.leaf b h ts) ↔ ts.length ≤ maxEntries := by
  simp [Fits]

theorem fits_branch_iff {b : WithBot (Rect α)} {h : Nat} {cs : List (TreeNode α ι)} :
    Fits (.branch b h cs) ↔ cs.length ≤ maxEntries ∧ ∀ c ∈ cs, Fits c := by
  simp [Fits, fitsList_iff]

theorem fits_empty : Fits (TreeNode.empty : TreeNode α ι) := by
  simp [TreeNode.empty, fits_leaf_iff]

/-- The children of a node fit, whatever the node's own count: what `insert` has built when it
tests a node for a split. -/
def KidsFit : TreeNode α ι → Prop
  | .leaf _ _ _ => True
  | .branch _ _ cs => ∀ c ∈ cs, Fits c

theorem fits_iff_count {n : TreeNode α ι} : Fits n ↔ n.count ≤ maxEntries ∧ KidsFit n := by
  cases n with
  | leaf b h ts => simp [fits_leaf_iff, KidsFit]
  | branch b h cs => simp [fits_branch_iff, KidsFit]

theorem kidsFit_branch_append {b : WithBot (Rect α)} {h : Nat} {cs : List (TreeNode α ι)}
    {x : TreeNode α ι} (hcs : ∀ c ∈ cs, Fits c) (hx : Fits x) :
    KidsFit (.branch b h (cs ++ [x])) := by
  intro c hc
  rcases List.mem_append.mp hc with hc | hc
  · exact hcs c hc
  · exact (List.mem_singleton.mp hc) ▸ hx


end Fits

section Split

variable [LinearOrder α] [CommRing α] {β : Type v} (box : β → WithBot (Rect α))
  (key : Fin 2 → β → WithTop α)

theorem splitChildren_length {cs : List β} (hfull : maxEntries < cs.length) :
    (splitChildren box key cs).1.length ≤ cs.length - minEntries ∧
      (splitChildren box key cs).2.length ≤ cs.length - minEntries := by
  have hmin : minEntries = 6 := rfl
  have hmax : maxEntries = 13 := rfl
  have hlen := (chooseSplitAxis_perm box key cs minEntries cs.length).length_eq
  obtain ⟨hlo, hhi⟩ := chooseSplitIndex_bounds box
    (chooseSplitAxis box key cs minEntries cs.length) (m := minEntries) (M := cs.length)
    (by omega)
  simp only [splitChildren, List.length_take, List.length_drop, hlen]
  omega

theorem mem_of_mem_splitChildren {cs : List β} {c : β}
    (hc : c ∈ (splitChildren box key cs).1 ∨ c ∈ (splitChildren box key cs).2) : c ∈ cs := by
  have hperm := chooseSplitAxis_perm box key cs minEntries cs.length
  rcases hc with hc | hc
  · exact hperm.subset (List.mem_of_mem_take hc)
  · exact hperm.subset (List.mem_of_mem_drop hc)

end Split

section SplitNode

variable [LinearOrder α] [CommRing α]

/-- The split test of `insert`'s loop on a node with at most one child too many leaves nodes
that fit. -/
theorem splitIfFull_fits {m : TreeNode α ι} (hcount : m.count ≤ maxEntries + 1) (hk : KidsFit m) :
    Fits (splitIfFull m).1 ∧ ∀ x ∈ (splitIfFull m).2, Fits x := by
  have hmin : minEntries = 6 := rfl
  have hmax : maxEntries = 13 := rfl
  unfold splitIfFull
  split_ifs with hfull
  · -- both parts hold at most `maxEntries + 1 - minEntries` children, drawn from `m`'s
    cases m with
    | leaf b h ts =>
      have hl := splitChildren_length itemBox itemKey (by simpa using hfull)
      simp only [TreeNode.count_leaf] at hcount
      simp only [splitNode, fits_leaf_iff, Option.mem_def, Option.some.injEq, forall_eq']
      omega
    | branch b h cs =>
      have hl := splitChildren_length nodeBox nodeKey (by simpa using hfull)
      simp only [TreeNode.count_branch] at hcount
      have hsub := fun c hc => hk c (mem_of_mem_splitChildren nodeBox nodeKey hc)
      simp only [splitNode, fits_branch_iff, Option.mem_def, Option.some.injEq, forall_eq']
      exact ⟨⟨by omega, fun c hc => hsub c (Or.inl hc)⟩, ⟨by omega, fun c hc => hsub c (Or.inr hc)⟩⟩
  · refine ⟨fits_iff_count.mpr ⟨?_, hk⟩, by simp⟩
    dsimp only
    omega

end SplitNode

section Insert

variable [LinearOrder α] [CommRing α] (bbox : Rect α) (e : Entry α ι) (level : Nat)

theorem insertChild_length {depth : Nat} :
    ∀ (j : Nat) (cs cs' : List (TreeNode α ι)) (s : Option (TreeNode α ι)),
      insertChild bbox e level depth j cs = some (cs', s) → cs'.length = cs.length
  | _, [], _, _, hr => by simp [insertChild] at hr
  | 0, c :: cs, cs', s, hr => by
    simp only [insertChild] at hr
    split at hr
    · exact absurd hr (by simp)
    · obtain ⟨rfl, rfl⟩ := Prod.mk.inj (Option.some.inj hr)
      rfl
  | j + 1, c :: cs, cs', s, hr => by
    simp only [insertChild] at hr
    split at hr
    · exact absurd hr (by simp)
    · next cs'' s' hrec =>
      obtain ⟨rfl, rfl⟩ := Prod.mk.inj (Option.some.inj hr)
      simp [insertChild_length j cs cs'' s' hrec]

/-- `Handed depth n m`: inserting the entry below `n` at `depth` hands `m` to the split test of
`insert`'s loop, `m` being a node of the path with the new child written at `children[count]`:
the node the entry goes into, or a node that takes the node split off one of its children. -/
inductive Handed : Nat → TreeNode α ι → TreeNode α ι → Prop
  | leaf {depth : Nat} {b : WithBot (Rect α)} {h : Nat} {ts : List (TreeItem α ι)}
      {t : TreeItem α ι} : depth = level → e = .item t →
      Handed depth (.leaf b h ts) (.leaf (b ⊔ bbox) h (ts ++ [t]))
  | node {depth : Nat} {b : WithBot (Rect α)} {h : Nat} {cs : List (TreeNode α ι)}
      {n : TreeNode α ι} : depth = level → e = .node n →
      Handed depth (.branch b h cs) (.branch (b ⊔ bbox) h (cs ++ [n]))
  | child {depth : Nat} {b : WithBot (Rect α)} {h j : Nat} {cs : List (TreeNode α ι)}
      {c m : TreeNode α ι} : depth ≠ level → chooseChild bbox cs = some j → cs[j]? = some c →
      Handed (depth + 1) c m → Handed depth (.branch b h cs) m
  | split {depth : Nat} {b : WithBot (Rect α)} {h j : Nat} {cs cs' : List (TreeNode α ι)}
      {s : TreeNode α ι} : depth ≠ level → chooseChild bbox cs = some j →
      insertChild bbox e level depth j cs = some (cs', some s) →
      Handed depth (.branch b h cs) (.branch (b ⊔ bbox) h (cs' ++ [s]))

/-- Below a node that fits, every node `insert` tests for a split holds at most
`maxEntries + 1` children: the write at `children[count]` stays inside the `M + 1` slots. -/
theorem handed_count_le {depth : Nat} {n m : TreeNode α ι} (hf : Fits n)
    (hh : Handed bbox e level depth n m) : m.count ≤ maxEntries + 1 := by
  induction hh with
  | leaf =>
    have := fits_leaf_iff.mp hf
    simp only [TreeNode.count_leaf, List.length_append, List.length_singleton]
    omega
  | node =>
    have := (fits_branch_iff.mp hf).1
    simp only [TreeNode.count_branch, List.length_append, List.length_singleton]
    omega
  | child _ _ hc _ ih => exact ih ((fits_branch_iff.mp hf).2 _ (List.mem_of_getElem? hc))
  | split _ _ hr =>
    have := (fits_branch_iff.mp hf).1
    simp only [TreeNode.count_branch, List.length_append, List.length_singleton,
      insertChild_length bbox e level _ _ _ _ hr]
    omega

mutual

theorem insertAt_fits (he : ∀ m, e = .node m → Fits m) :
    ∀ (depth : Nat) (n : TreeNode α ι) (r : TreeNode α ι × Option (TreeNode α ι)),
      Fits n → insertAt bbox e level depth n = some r → Fits r.1 ∧ ∀ x ∈ r.2, Fits x
  | depth, .leaf b h ts, r, hf, hr => by
    have hlen := fits_leaf_iff.mp hf
    simp only [insertAt] at hr
    split_ifs at hr with hd
    cases e with
    | item t =>
      obtain rfl := Option.some.inj hr
      exact splitIfFull_fits (by simp; omega) trivial
    | node m => exact absurd hr (by simp)
  | depth, .branch b h cs, r, hf, hr => by
    obtain ⟨hlen, hcs⟩ := fits_branch_iff.mp hf
    simp only [insertAt] at hr
    split_ifs at hr with hd
    · cases e with
      | node m =>
        obtain rfl := Option.some.inj hr
        exact splitIfFull_fits (by simp; omega) (kidsFit_branch_append hcs (he m rfl))
      | item t => exact absurd hr (by simp)
    · cases hj : chooseChild bbox cs with
      | none => simp [hj] at hr
      | some j =>
        cases hc : insertChild bbox e level depth j cs with
        | none => simp [hj, hc] at hr
        | some p =>
          obtain ⟨cs', s⟩ := p
          have hlen' := insertChild_length bbox e level j cs cs' s hc
          obtain ⟨hcs', hs⟩ := insertChild_fits he depth j cs cs' s (fitsList_iff.mpr hcs) hc
          cases s with
          | none =>
            simp only [hj, hc, Option.some.injEq] at hr
            subst hr
            exact ⟨fits_branch_iff.mpr ⟨by omega, fitsList_iff.mp hcs'⟩, by simp⟩
          | some x =>
            simp only [hj, hc] at hr
            obtain rfl := Option.some.inj hr
            exact splitIfFull_fits (by simp; omega)
              (kidsFit_branch_append (fitsList_iff.mp hcs') (hs x rfl))

theorem insertChild_fits (he : ∀ m, e = .node m → Fits m) :
    ∀ (depth j : Nat) (cs cs' : List (TreeNode α ι)) (s : Option (TreeNode α ι)),
      FitsList cs → insertChild bbox e level depth j cs = some (cs', s) →
        FitsList cs' ∧ ∀ x ∈ s, Fits x
  | _, _, [], _, _, _, hr => by simp [insertChild] at hr
  | depth, 0, c :: cs, cs', s, hl, hr => by
    obtain ⟨hc, hcs⟩ : Fits c ∧ FitsList cs := by simpa [FitsList] using hl
    simp only [insertChild] at hr
    split at hr
    · exact absurd hr (by simp)
    · next c' s' hc' =>
      obtain ⟨rfl, rfl⟩ := Prod.mk.inj (Option.some.inj hr)
      obtain ⟨hc'f, hs'⟩ := insertAt_fits he (depth + 1) c (c', s') hc hc'
      exact ⟨by simpa [FitsList] using ⟨hc'f, hcs⟩, hs'⟩
  | depth, j + 1, c :: cs, cs', s, hl, hr => by
    obtain ⟨hc, hcs⟩ : Fits c ∧ FitsList cs := by simpa [FitsList] using hl
    simp only [insertChild] at hr
    split at hr
    · exact absurd hr (by simp)
    · next cs'' s' hrec =>
      obtain ⟨rfl, rfl⟩ := Prod.mk.inj (Option.some.inj hr)
      obtain ⟨hcs'', hs'⟩ := insertChild_fits he depth j cs cs'' s' hcs hrec
      exact ⟨by simpa [FitsList] using ⟨hc, hcs''⟩, hs'⟩

end

theorem insert_fits (he : ∀ m, e = .node m → Fits m) {tr tr' : RTree α ι} (hf : Fits tr.data)
    (hr : insert bbox e level tr = some tr') : Fits tr'.data := by
  cases hi : insertAt bbox e level 0 tr.data with
  | none => simp [insert, hi] at hr
  | some p =>
    obtain ⟨root, s⟩ := p
    obtain ⟨hroot, hs⟩ := insertAt_fits bbox e level he 0 tr.data (root, s) hf hi
    cases s with
    | none =>
      simp only [insert, hi, Option.some.injEq] at hr
      subst hr
      exact hroot
    | some x =>
      simp only [insert, hi, Option.some.injEq] at hr
      subst hr
      refine fits_branch_iff.mpr ⟨by simp only [List.length_cons, List.length_nil]; decide, ?_⟩
      simp only [List.mem_cons, List.not_mem_nil, or_false]
      rintro c (rfl | rfl)
      · exact hroot
      · exact hs c rfl

end Insert

section Remove

variable [LinearOrder α] [DecidableEq ι] (bbox : Rect α) (x : ι)

omit [DecidableEq ι] in
@[simp] theorem fits_condenseNode (n : TreeNode α ι) : Fits (condenseNode n) ↔ Fits n := by
  cases n with
  | leaf b h ts => simp only [condenseNode]; split_ifs <;> simp [fits_leaf_iff]
  | branch b h cs => simp only [condenseNode]; split_ifs <;> simp [fits_branch_iff]

mutual

theorem removeAt_fits :
    ∀ (n n' : TreeNode α ι), Fits n → removeAt bbox x n = some n' → Fits n'
  | .leaf b h ts, n', hf, hr => by
    have hlen := fits_leaf_iff.mp hf
    simp only [removeAt] at hr
    split at hr
    · exact absurd hr (by simp)
    · obtain rfl := Option.some.inj hr
      rw [fits_condenseNode, fits_leaf_iff]
      exact (List.length_eraseIdx_le _ _).trans hlen
  | .branch b h cs, n', hf, hr => by
    obtain ⟨hlen, hcs⟩ := fits_branch_iff.mp hf
    simp only [removeAt] at hr
    split_ifs at hr
    split at hr
    · exact absurd hr (by simp)
    · next cs' hc =>
      obtain rfl := Option.some.inj hr
      obtain ⟨hle, hcs'⟩ := removeChildren_fits cs cs' hcs hc
      rw [fits_condenseNode]
      exact fits_branch_iff.mpr ⟨by omega, hcs'⟩

theorem removeChildren_fits :
    ∀ (cs cs' : List (TreeNode α ι)), (∀ c ∈ cs, Fits c) →
      removeChildren bbox x cs = some cs' → cs'.length ≤ cs.length ∧ ∀ c ∈ cs', Fits c
  | [], _, _, hr => by simp [removeChildren] at hr
  | c :: cs, cs', hcs, hr => by
    have hrest : ∀ d ∈ cs, Fits d := fun d hd => hcs d (List.mem_cons_of_mem c hd)
    simp only [removeChildren] at hr
    split at hr
    · next c' hc' =>
      obtain rfl := Option.some.inj hr
      have hc'f := removeAt_fits c c' (hcs c List.mem_cons_self) hc'
      split_ifs
      · exact ⟨by simp, hrest⟩
      · refine ⟨by simp, fun d hd => ?_⟩
        rcases List.mem_cons.mp hd with rfl | hd
        · exact hc'f
        · exact hrest d hd
    · split at hr
      · exact absurd hr (by simp)
      · next cs'' hrec =>
        obtain rfl := Option.some.inj hr
        obtain ⟨hle, hcs''⟩ := removeChildren_fits cs cs'' hrest hrec
        refine ⟨by simp; omega, fun d hd => ?_⟩
        rcases List.mem_cons.mp hd with rfl | hd
        · exact hcs _ List.mem_cons_self
        · exact hcs'' d hd

end

theorem remove_fits {tr : RTree α ι} (hf : Fits tr.data) : Fits (remove bbox x tr).data := by
  cases hr : removeAt bbox x tr.data with
  | none =>
    rw [remove, hr]
    exact hf
  | some n' =>
    have hn' := removeAt_fits bbox x tr.data n' hf hr
    simp only [remove, hr]
    split_ifs
    · exact fits_empty
    · exact hn'

end Remove

section Runs

variable [LinearOrder α] [CommRing α] [DecidableEq ι]

/-- The shape of a tree between calls: well formed, and every node within its capacity. -/
def Shaped (tr : RTree α ι) : Prop := RootWF tr.data ∧ Fits tr.data

omit [CommRing α] [DecidableEq ι] in
theorem shaped_new : Shaped (RTree.New : RTree α ι) := ⟨Or.inl rfl, fits_empty⟩

/-- Every call on a shaped tree succeeds and leaves it shaped. -/
theorem exec_shaped (o : Op α ι) {tr : RTree α ι} (hs : Shaped tr) :
    ∃ tr', o.exec tr = some tr' ∧ Shaped tr' := by
  obtain ⟨hw, hf⟩ := hs
  cases o with
  | insert min max x =>
    obtain ⟨tr', hins, hw', -⟩ := RTree.Insert_contents hw min max x
    exact ⟨tr', hins, hw', insert_fits _ _ _ (fun m h => by cases h) hf hins⟩
  | remove min max x => exact ⟨_, rfl, remove_rootWF hw _ _, remove_fits _ _ hf⟩

/-- Every run of `Insert` and `Remove` calls from `New` succeeds, and ends in a tree that is
well formed (leaves exactly at height 1, each child one level below its parent, boxes the hulls
of the children) and whose nodes hold at most `maxEntries` children; an `Insert` on it tests
for a split only nodes of at most `maxEntries + 1` children. -/
theorem rtree_structure_invariant (ops : List (Op α ι)) :
    ∃ tr, Simulation.run Op.exec ops RTree.New = some tr ∧ RootWF tr.data ∧ Fits tr.data ∧
      ∀ (min max : Fin 2 → α) (x : ι) (m : TreeNode α ι),
        Handed ⟨min, max⟩ (.item ⟨min, max, x⟩) (tr.data.height - 1) 0 tr.data m →
          m.count ≤ maxEntries + 1 := by
  obtain ⟨tr, hrun, hw, hf⟩ := Simulation.run_invariant Op.exec Shaped
    (fun o _ hs => exec_shaped o hs) ops RTree.New shaped_new
  exact ⟨tr, hrun, hw, hf, fun min max x m hh => handed_count_le _ _ _ hf hh⟩

end Runs

end Rtree
