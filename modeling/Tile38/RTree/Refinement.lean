import Tile38.Lib.Simulation
import Tile38.RTree.InsertSpec
import Tile38.RTree.RemoveSpec
import Tile38.RTree.SearchSpec
import Mathlib.Data.Rat.Defs
import Mathlib.Algebra.Order.Ring.Rat

/-!
# The R-tree refines a multiset of (rectangle, item) pairs

The abstract machine holds the live pairs as a list read up to order: `Insert` appends a
pair, `Remove` drops the pairs carrying its item. A client may insert an item that is not
live with `min ≤ max`, and remove an item giving the rectangle it was inserted with (or any
item that is not live). The tree represents the live pairs when it is well formed and stores
exactly them; each allowed call keeps that, so every run of allowed calls from `New` succeeds
and ends in a tree whose queries answer as the live pairs say.
-/

namespace Rtree

universe u v
variable {α : Type u} {ι : Type v}

/-- A call on the tree. -/
inductive Op (α : Type u) (ι : Type v) where
  | insert (min max : Fin 2 → α) (item : ι)
  | remove (min max : Fin 2 → α) (item : ι)

section Abstract

variable [DecidableEq ι]

/-- What a call does to the live pairs. -/
def Op.apply : Op α ι → List (TreeItem α ι) → List (TreeItem α ι)
  | .insert min max x, live => live ++ [⟨min, max, x⟩]
  | .remove _ _ x, live => live.filter (·.item ≠ x)

theorem filter_item_ne {live : List (TreeItem α ι)} {C : Multiset (TreeItem α ι)}
    {t : TreeItem α ι} (hnd : (live.map (·.item)).Nodup) (hl : (live : Multiset _) = C + {t}) :
    ((live.filter (·.item ≠ t.item) : List _) : Multiset (TreeItem α ι)) = C := by
  have hnd' : (C.map (·.item) + {t.item}).Nodup := by
    have h := Multiset.coe_nodup.mpr hnd
    rwa [← Multiset.map_coe, hl, Multiset.map_add, Multiset.map_singleton] at h
  have hC : ∀ u ∈ C, u.item ≠ t.item := by
    intro u hu heq
    have hdis := (Multiset.nodup_add.mp hnd').2.2
    exact Multiset.disjoint_left.mp hdis (Multiset.mem_map_of_mem _ hu) (by simp [heq])
  rw [← Multiset.filter_coe, hl, Multiset.filter_add, Multiset.filter_singleton, if_neg (by simp),
    Multiset.empty_eq_zero, add_zero, Multiset.filter_eq_self.mpr hC]

variable [LinearOrder α]

/-- The calls the contract allows. -/
def Op.Allowed : Op α ι → List (TreeItem α ι) → Prop
  | .insert min max x, live => min ≤ max ∧ x ∉ live.map (·.item)
  | .remove min max x, live => ∀ t ∈ live, t.item = x → t.min = min ∧ t.max = max

/-- What allowed calls keep of the live pairs: the items are distinct and the rectangles
proper. -/
def LiveOK (live : List (TreeItem α ι)) : Prop :=
  (live.map (·.item)).Nodup ∧ ∀ t ∈ live, t.rect.Proper

theorem LiveOK.apply {live : List (TreeItem α ι)} (hl : LiveOK live) {o : Op α ι}
    (hok : o.Allowed live) : LiveOK (o.apply live) := by
  obtain ⟨hnd, hp⟩ := hl
  cases o with
  | insert min max x =>
    obtain ⟨hle, hx⟩ := hok
    refine ⟨?_, ?_⟩
    · simpa [Op.apply, List.nodup_append, hnd] using hx
    · intro t ht
      rcases List.mem_append.mp ht with ht | ht
      · exact hp t ht
      · simp only [List.mem_singleton] at ht
        subst ht
        exact hle
  | remove min max x =>
    refine ⟨?_, fun t ht => hp t (List.mem_of_mem_filter ht)⟩
    exact hnd.sublist ((List.filter_sublist).map _)

end Abstract

section Concrete

variable [LinearOrder α]

/-- The tree is well formed and stores exactly the pairs `live`. -/
def Stores (tr : RTree α ι) (live : List (TreeItem α ι)) : Prop :=
  RootWF tr.data ∧ contents tr.data = live

/-- The tree stores exactly the live pairs, well formed, and the live pairs are as allowed
calls leave them. -/
def Represents (tr : RTree α ι) (live : List (TreeItem α ι)) : Prop :=
  RootWF tr.data ∧ contents tr.data = live ∧ LiveOK live

theorem represents_new : Represents (RTree.New : RTree α ι) [] :=
  ⟨Or.inl rfl, rfl, by simp [LiveOK]⟩

theorem Stores.perm {tr : RTree α ι} {live : List (TreeItem α ι)} (hs : Stores tr live) :
    (items tr.data).Perm live :=
  Multiset.coe_eq_coe.mp hs.2

theorem Represents.perm {tr : RTree α ι} {live : List (TreeItem α ι)} (hr : Represents tr live) :
    (items tr.data).Perm live :=
  Stores.perm ⟨hr.1, hr.2.1⟩

variable [CommRing α] [DecidableEq ι]

/-- A call on the tree: `Insert` or `Remove`. -/
def Op.exec : Op α ι → RTree α ι → Option (RTree α ι)
  | .insert min max x, tr => tr.Insert min max x
  | .remove min max x, tr => some (tr.Remove min max x)

/-- `Insert` on a well-formed tree succeeds and stores the new pair too, whatever its
rectangle. -/
theorem Stores.insert {tr : RTree α ι} {live : List (TreeItem α ι)} (hs : Stores tr live)
    (min max : Fin 2 → α) (x : ι) :
    ∃ tr', (Op.insert min max x).exec tr = some tr' ∧
      Stores tr' ((Op.insert min max x).apply live) := by
  obtain ⟨hw, hc⟩ := hs
  obtain ⟨tr', hins, hw', hc'⟩ := RTree.Insert_contents hw min max x
  refine ⟨tr', hins, hw', ?_⟩
  rw [hc', hc, Op.apply, ← Multiset.coe_singleton, Multiset.coe_add]

/-- `Remove` of an item given with the rectangle its pair carries drops that pair, when the
pairs carry distinct items. -/
theorem Stores.remove {tr : RTree α ι} {live : List (TreeItem α ι)} (hs : Stores tr live)
    (hnd : (live.map (·.item)).Nodup) {min max : Fin 2 → α} {x : ι}
    (hok : (Op.remove min max x).Allowed live) :
    ∃ tr', (Op.remove min max x).exec tr = some tr' ∧
      Stores tr' ((Op.remove min max x).apply live) := by
  have hperm := hs.perm
  obtain ⟨hw, hc⟩ := hs
  refine ⟨tr.Remove min max x, rfl, ?_⟩
  by_cases hx : ∃ t ∈ live, t.item = x
  · obtain ⟨t, ht, rfl⟩ := hx
    obtain ⟨hmin, hmax⟩ := hok t ht rfl
    have hrect : (⟨min, max⟩ : Rect α) = t.rect := by simp [TreeItem.rect, hmin, hmax]
    obtain ⟨t', ht', hsum, hw'⟩ := remove_mem hw (hperm.symm.subset ht)
    have hrem : tr.Remove min max t.item = Rtree.remove t.rect t.item tr := by
      simp [RTree.Remove, hrect]
    have hf := filter_item_ne hnd (hc ▸ hsum)
    rw [ht'] at hf
    rw [hrem]
    exact ⟨hw', hf.symm⟩
  · simp only [not_exists, not_and] at hx
    have hnot : ∀ t ∈ items tr.data, t.item ≠ x := fun t ht => hx t (hperm.subset ht)
    have hrem : tr.Remove min max x = tr := remove_of_not_mem hw _ hnot
    rw [hrem]
    refine ⟨hw, ?_⟩
    rw [Op.apply, List.filter_eq_self.mpr (fun t ht => by simpa using hx t ht), hc]

theorem exec_insert {tr : RTree α ι} {live : List (TreeItem α ι)} (hr : Represents tr live)
    {min max : Fin 2 → α} {x : ι} (hok : (Op.insert min max x).Allowed live) :
    ∃ tr', (Op.insert min max x).exec tr = some tr' ∧
      Represents tr' ((Op.insert min max x).apply live) := by
  obtain ⟨tr', hins, hw', hc'⟩ := Stores.insert ⟨hr.1, hr.2.1⟩ min max x
  exact ⟨tr', hins, hw', hc', hr.2.2.apply hok⟩

theorem exec_remove {tr : RTree α ι} {live : List (TreeItem α ι)} (hr : Represents tr live)
    {min max : Fin 2 → α} {x : ι} (hok : (Op.remove min max x).Allowed live) :
    ∃ tr', (Op.remove min max x).exec tr = some tr' ∧
      Represents tr' ((Op.remove min max x).apply live) := by
  obtain ⟨tr', hrem, hw', hc'⟩ := Stores.remove ⟨hr.1, hr.2.1⟩ hr.2.2.1 hok
  exact ⟨tr', hrem, hw', hc', hr.2.2.apply hok⟩

/-- Each allowed call keeps the representation. -/
theorem exec_simulates :
    Simulation.Simulates (Op.exec (α := α) (ι := ι)) Op.apply Op.Allowed Represents := by
  intro o tr live hr hok
  cases o with
  | insert min max x => exact exec_insert hr hok
  | remove min max x => exact exec_remove hr hok

/-- What a client sees of a tree storing the pairs `live`: an iterator that never stops is
handed, by `Search`, the items of the live pairs whose rectangle meets the closed query box
and, by `Scan`, every live item, each exactly once; `Count` is the number of live pairs,
`Bounds` the hull of their rectangles (zero corners when there is none), and `Remove` of an
item that no live pair carries changes nothing. -/
def Observes (tr : RTree α ι) (live : List (TreeItem α ι)) : Prop :=
  (∀ qmin qmax : Fin 2 → α, ∃ calls : List ι,
      calls.Perm ((hits ⟨qmin, qmax⟩ live).map (·.item)) ∧
      ∀ (σ : Type) (f : σ → ι → σ) (s : σ),
        tr.Search qmin qmax (always f) s = (calls.foldl f s, true)) ∧
  (∃ calls : List ι, calls.Perm (live.map (·.item)) ∧
      ∀ (σ : Type) (f : σ → ι → σ) (s : σ), tr.Scan (always f) s = (calls.foldl f s, true)) ∧
  tr.Count = live.length ∧
  tr.Bounds = (if live = [] then ((⟨0, 0⟩ : Rect α) : WithBot (Rect α))
    else Box.hull (live.map TreeItem.rect)) ∧
  ∀ (min max : Fin 2 → α) (x : ι), x ∉ live.map (·.item) → tr.Remove min max x = tr

theorem Represents.observes {tr : RTree α ι} {live : List (TreeItem α ι)}
    (hr : Represents tr live) : Observes tr live := by
  have hperm := hr.perm
  obtain ⟨hw, -, -, hp⟩ := hr
  have hp' : ∀ t ∈ items tr.data, t.rect.Proper := fun t ht => hp t (hperm.subset ht)
  refine ⟨?_, ?_, ?_, ?_, ?_⟩
  · intro qmin qmax
    exact ⟨_, ((hperm.filter _).map _), fun σ f s => RTree.Search_always hw hp' qmin qmax f s⟩
  · exact ⟨_, hperm.map _, fun σ f s => RTree.Scan_always tr f s⟩
  · rw [RTree.Count_eq, hperm.length_eq]
  · have hnil : items tr.data = [] ↔ live = [] := by
      rw [← List.length_eq_zero_iff, hperm.length_eq, List.length_eq_zero_iff]
    rw [RTree.Bounds_eq hw, Box.hull_perm (hperm.map _)]
    simp only [hnil]
  · intro min max x hx
    exact remove_of_not_mem hw _ fun t ht hxt =>
      hx (List.mem_map.mpr ⟨t, hperm.subset ht, hxt⟩)

theorem rtree_refines_multiset (ops : List (Op α ι))
    (hok : Simulation.Allowed Op.Allowed Op.apply ops []) :
    ∃ tr, Simulation.run Op.exec ops RTree.New = some tr ∧
      Observes tr (Simulation.arun Op.apply ops []) := by
  obtain ⟨tr, hrun, hr⟩ :=
    Simulation.run_simulates _ _ _ _ exec_simulates ops RTree.New [] represents_new hok
  exact ⟨tr, hrun, hr.observes⟩

end Concrete

/-- Two inserts and the removal of the first item, with rational coordinates. -/
def threeCalls : List (Op ℚ Nat) :=
  [.insert (fun _ => 0) (fun _ => 1) 1, .insert (fun _ => 2) (fun _ => 3) 2,
    .remove (fun _ => 0) (fun _ => 1) 1]

theorem rtree_refines_multiset_threeCalls :
    Simulation.Allowed Op.Allowed Op.apply threeCalls [] ∧
      ∃ tr, Simulation.run Op.exec threeCalls RTree.New = some tr ∧
        Observes tr (Simulation.arun Op.apply threeCalls []) := by
  have hok : Simulation.Allowed Op.Allowed Op.apply threeCalls [] := by
    refine ⟨⟨fun _ => zero_le_one, by simp⟩, ⟨fun _ => (by decide : (2 : ℚ) ≤ 3), by simp [Op.apply]⟩, ?_, trivial⟩
    simp [Op.Allowed, Op.apply]
  exact ⟨hok, rtree_refines_multiset threeCalls hok⟩

end Rtree
