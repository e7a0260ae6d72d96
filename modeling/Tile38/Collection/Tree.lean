import Tile38.Collection.Search

/-!
# The index of a collection is an R-tree

A collection keeps its spatial index as the entries its calls leave there, read through the
abstract machine of `Rtree.Op.apply` (`indexInsert`, `indexRemove`). In the source the index
is the R-tree of `pkg/index/rtree`: `Op.indexCalls` lists the calls `ReplaceOrInsert` and
`Remove` make on it (`exec_index`), and `Op.execTree` runs a collection call together with
those calls on a tree. Every run from `New` succeeds on the tree, which then stores exactly
the entries of the collection's index (`collection_index_tree`), whatever the objects: a
geometry replaced by a `String` leaves its entry in both. When every geometry a run inserts
has a proper box, the tree's `Search`, `Scan`, `Count` and `Bounds` answer as the index says
(`collection_index_observes`).

The removals find what they remove because of `IndexOK`: the entries carry distinct addresses
below `alloc`, and an entry carrying the address of a live item is that item's entry.
-/

open Geojson

namespace Collection

universe u
variable {α : Type u} {str : Object α → List UInt8}

section Calls

variable [Zero α] [LinearOrder α]

/-- The calls a collection call makes on its index: `index.Remove(oldItem)` and
`index.Insert(item)` of `ReplaceOrInsert` for a new geometry, `index.Remove(item)` of `Remove`
for a stored geometry, and none for the field calls. -/
def Op.indexCalls : Op α → Collection α str → List (Rtree.Op α Nat)
  | .replaceOrInsert id obj _ _, c =>
    if obj.IsGeometry then
      (c.items.get id).elim [] (fun old => [.remove old.Rect.1 old.Rect.2 old.addr]) ++
        [.insert (⟨c.alloc, id, obj⟩ : itemT α).Rect.1 (⟨c.alloc, id, obj⟩ : itemT α).Rect.2
          c.alloc]
    else []
  | .remove id, c =>
    (c.items.get id).elim [] fun item =>
      if item.object.IsGeometry then [.remove item.Rect.1 item.Rect.2 item.addr] else []
  | .setField _ _ _, _ => []
  | .setFields _ _ _, _ => []

theorem foldl_setField_index (key : List UInt8) (fvs : List (List UInt8 × α)) :
    ∀ c : Collection α str,
      (fvs.foldl (fun c fv => (c.setField key fv.1 fv.2).1) c).index = c.index ∧
        (fvs.foldl (fun c fv => (c.setField key fv.1 fv.2).1) c).alloc = c.alloc := by
  induction fvs with
  | nil => intro c; exact ⟨rfl, rfl⟩
  | cons fv fvs ih =>
    intro c
    rw [List.foldl_cons, (ih _).1, (ih _).2, (c.setField_spec key fv.1 fv.2).index,
      (c.setField_spec key fv.1 fv.2).alloc]
    exact ⟨rfl, rfl⟩

theorem applyFields_index (c : Collection α str) (id : List UInt8) (newFields : List α)
    (fields : Option (List (List UInt8))) (values : List α) :
    (c.applyFields id newFields fields values).1.index = c.index := by
  cases fields with
  | none =>
    unfold Collection.applyFields
    split_ifs <;> rfl
  | some fields => exact (foldl_setField_index id _ c).1

theorem SetField_frame (c : Collection α str) (id field : List UInt8) (value : α) :
    (c.SetField id field value).1.index = c.index ∧ (c.SetField id field value).1.alloc = c.alloc := by
  unfold Collection.SetField
  cases c.items.get id with
  | none => exact ⟨rfl, rfl⟩
  | some item =>
    exact ⟨(c.setField_spec item.id field value).index, (c.setField_spec item.id field value).alloc⟩

theorem SetFields_frame (c : Collection α str) (id : List UInt8) (fields : List (List UInt8))
    (values : List α) :
    (c.SetFields id fields values).1.index = c.index ∧
      (c.SetFields id fields values).1.alloc = c.alloc := by
  unfold Collection.SetFields
  cases c.items.get id with
  | none => exact ⟨rfl, rfl⟩
  | some item =>
    simp only
    rw [foldl_setFields_fst]
    exact foldl_setField_index item.id _ c

/-- What a call does to the index is what its calls do to it. -/
theorem exec_index (o : Op α) (c : Collection α str) :
    (o.exec c).index = Simulation.arun Rtree.Op.apply (o.indexCalls c) c.index := by
  cases o with
  | replaceOrInsert id obj fields values =>
    rw [Op.exec, ReplaceOrInsert_fst, applyFields_index, replaceItem_index, Op.indexCalls]
    split_ifs
    · cases c.items.get id <;> rfl
    · rfl
  | remove id =>
    rw [Op.exec, Op.indexCalls]
    cases h : c.items.get id with
    | none => rw [Remove_of_get_none c id h]; rfl
    | some item =>
      rw [Remove_of_get_some c id h]
      dsimp only [Option.elim]
      split_ifs <;> rfl
  | setField id field value => exact (SetField_frame c id field value).1
  | setFields id fields values => exact (SetFields_frame c id fields values).1

/-! ### What the calls keep of the index -/

/-- The entries carry distinct addresses below `alloc`, as do the items, and an entry carrying
a live item's address is that item's entry. -/
structure IndexOK (c : Collection α str) : Prop where
  nodup : (c.index.map (·.item)).Nodup
  entry_lt : ∀ e ∈ c.index, e.item < c.alloc
  addr_lt : ∀ x ∈ c.items.items, x.addr < c.alloc
  live : ∀ x ∈ c.items.items, ∀ e ∈ c.index, e.item = x.addr → e = x.entry

theorem indexOK_New : IndexOK (New : Collection α str) :=
  ⟨by simp [New], by simp [New], by simp [New], by simp [New]⟩

theorem IndexOK.filter {c : Collection α str} (h : IndexOK c) (a : Nat) :
    (((c.index.filter (·.item ≠ a)).map (·.item)).Nodup) ∧
      ∀ e ∈ c.index.filter (·.item ≠ a), e ∈ c.index ∧ e.item ≠ a := by
  refine ⟨h.nodup.sublist (List.filter_sublist.map _), fun e he => ?_⟩
  simpa using he

theorem IndexOK.replaceOrInsert {c : Collection α str} (h : IndexOK c) (id : List UInt8)
    (obj : Object α) (fields : Option (List (List UInt8))) (values : List α) :
    IndexOK (Op.replaceOrInsert id obj fields values |>.exec c) := by
  set new : itemT α := ⟨c.alloc, id, obj⟩
  have hitems : (Op.replaceOrInsert id obj fields values |>.exec c).items.items =
      new :: (c.items.erase id).items := by
    rw [Op.exec, ReplaceOrInsert_items, KeyedSet.items_replaceOrInsert]
  have halloc : (Op.replaceOrInsert id obj fields values |>.exec c).alloc = c.alloc + 1 :=
    ReplaceOrInsert_alloc c id obj fields values
  -- the index after the call: entries of the old index, and the new item's if a geometry
  have hsub : ∀ e ∈ (Op.replaceOrInsert id obj fields values |>.exec c).index,
      e ∈ c.index ∨ (obj.IsGeometry ∧ e = new.entry) := by
    intro e he
    rw [exec_index, Op.indexCalls] at he
    split_ifs at he with hg
    · cases hget : c.items.get id with
      | none =>
        rw [hget] at he
        simpa [Rtree.Op.apply, Simulation.arun, hg, itemT.entry, new] using he
      | some old =>
        rw [hget] at he
        simp only [Option.elim, List.singleton_append, Simulation.arun, Rtree.Op.apply,
          List.mem_append, List.mem_filter, List.mem_singleton] at he
        rcases he with ⟨he, -⟩ | rfl
        · exact .inl he
        · exact .inr ⟨hg, rfl⟩
    · exact .inl he
  have hnodup : ((Op.replaceOrInsert id obj fields values |>.exec c).index.map (·.item)).Nodup := by
    rw [exec_index, Op.indexCalls]
    split_ifs
    · have hfresh : ∀ e ∈ c.index, e.item ≠ c.alloc := fun e he => (h.entry_lt e he).ne
      cases c.items.get id with
      | none =>
        simpa [Rtree.Op.apply, Simulation.arun, List.nodup_append, h.nodup] using hfresh
      | some old =>
        simp only [Option.elim, List.singleton_append, Simulation.arun, Rtree.Op.apply,
          List.map_append, List.nodup_append, List.map_cons, List.map_nil, List.nodup_cons,
          List.not_mem_nil, not_false_eq_true, List.nodup_nil, and_self, true_and]
        refine ⟨(h.filter old.addr).1, ?_⟩
        intro a ha b hb
        simp only [List.mem_map, List.mem_filter] at ha
        simp only [List.mem_singleton] at hb
        obtain ⟨e, ⟨he, -⟩, rfl⟩ := ha
        rw [hb]
        exact hfresh e he
    · exact h.nodup
  refine ⟨hnodup, ?_, ?_, ?_⟩
  · intro e he
    rw [halloc]
    rcases hsub e he with he | ⟨-, rfl⟩
    · exact Nat.lt_succ_of_lt (h.entry_lt e he)
    · exact Nat.lt_succ_self _
  · intro x hx
    rw [halloc]
    rw [hitems] at hx
    rcases List.mem_cons.mp hx with rfl | hx
    · exact Nat.lt_succ_self _
    · exact Nat.lt_succ_of_lt (h.addr_lt x (KeyedSet.mem_erase.mp hx).1)
  · intro x hx e he hex
    rw [hitems] at hx
    rcases List.mem_cons.mp hx with rfl | hx
    · rcases hsub e he with he | ⟨-, rfl⟩
      · exact absurd hex (h.entry_lt e he).ne
      · rfl
    · have hx' := (KeyedSet.mem_erase.mp hx).1
      rcases hsub e he with he | ⟨-, rfl⟩
      · exact h.live x hx' e he hex
      · exact absurd hex.symm (h.addr_lt x hx').ne

theorem IndexOK.remove {c : Collection α str} (h : IndexOK c) (id : List UInt8) :
    IndexOK ((Op.remove id).exec c) := by
  rw [Op.exec]
  cases hget : c.items.get id with
  | none => rw [Remove_of_get_none c id hget]; exact h
  | some item =>
    rw [Remove_of_get_some c id hget]
    have hsub : ∀ e ∈ (if item.object.IsGeometry then indexRemove c.index item else c.index),
        e ∈ c.index := by
      intro e he
      split_ifs at he
      · exact ((h.filter item.addr).2 e he).1
      · exact he
    refine ⟨?_, fun e he => h.entry_lt e (hsub e he),
      fun x hx => h.addr_lt x (KeyedSet.mem_erase.mp hx).1,
      fun x hx e he => h.live x (KeyedSet.mem_erase.mp hx).1 e (hsub e he)⟩
    split_ifs
    · exact (h.filter item.addr).1
    · exact h.nodup

theorem IndexOK.exec {c : Collection α str} (h : IndexOK c) (o : Op α) : IndexOK (o.exec c) := by
  cases o with
  | replaceOrInsert id obj fields values => exact h.replaceOrInsert id obj fields values
  | remove id => exact h.remove id
  | setField id field value =>
    obtain ⟨hx, ha⟩ := SetField_frame c id field value
    have hi := SetField_items c id field value
    exact ⟨hx ▸ h.nodup, by rw [Op.exec, hx, ha]; exact h.entry_lt,
      by rw [Op.exec, hi, ha]; exact h.addr_lt, by rw [Op.exec, hi, hx]; exact h.live⟩
  | setFields id fields values =>
    obtain ⟨hx, ha⟩ := SetFields_frame c id fields values
    have hi := SetFields_items c id fields values
    exact ⟨hx ▸ h.nodup, by rw [Op.exec, hx, ha]; exact h.entry_lt,
      by rw [Op.exec, hi, ha]; exact h.addr_lt, by rw [Op.exec, hi, hx]; exact h.live⟩

end Calls

/-! ### The collection with its tree -/

section Tree

variable [Field α] [LinearOrder α]

theorem IndexOK.remove_allowed {c : Collection α str} (h : IndexOK c) {x : itemT α}
    (hx : x ∈ c.items.items) : (Rtree.Op.remove x.Rect.1 x.Rect.2 x.addr).Allowed c.index := by
  intro t ht hta
  rw [h.live x hx t ht hta]
  exact ⟨rfl, rfl⟩

/-- The calls of one collection call succeed on a tree storing its index, and leave it
storing the new index. -/
theorem IndexOK.calls {c : Collection α str} (h : IndexOK c) {tr : Rtree.RTree α Nat}
    (hs : Rtree.Stores tr c.index) (o : Op α) :
    ∃ tr', Simulation.run Rtree.Op.exec (o.indexCalls c) tr = some tr' ∧
      Rtree.Stores tr' (o.exec c).index := by
  rw [exec_index]
  cases o with
  | replaceOrInsert id obj fields values =>
    rw [Op.indexCalls]
    split_ifs
    · cases hget : c.items.get id with
      | none =>
        obtain ⟨tr', hins, hs'⟩ := hs.insert _ _ c.alloc
        exact ⟨tr', by simp [hins], hs'⟩
      | some old =>
        obtain ⟨tr₁, hrem, hs₁⟩ :=
          hs.remove h.nodup (h.remove_allowed (KeyedSet.mem_of_get hget))
        obtain ⟨tr', hins, hs'⟩ := hs₁.insert _ _ c.alloc
        exact ⟨tr', by simp [hrem, hins], hs'⟩
    · exact ⟨tr, rfl, hs⟩
  | remove id =>
    rw [Op.indexCalls]
    cases hget : c.items.get id with
    | none => exact ⟨tr, rfl, hs⟩
    | some item =>
      dsimp only [Option.elim]
      split_ifs
      · obtain ⟨tr', hrem, hs'⟩ :=
          hs.remove h.nodup (h.remove_allowed (KeyedSet.mem_of_get hget))
        exact ⟨tr', by simp [hrem], hs'⟩
      · exact ⟨tr, rfl, hs⟩
  | setField id field value => exact ⟨tr, rfl, hs⟩
  | setFields id fields values => exact ⟨tr, rfl, hs⟩

/-- A collection call together with its calls on the R-tree of the index. -/
def Op.execTree (o : Op α) (s : Collection α str × Rtree.RTree α Nat) :
    Option (Collection α str × Rtree.RTree α Nat) :=
  (Simulation.run Rtree.Op.exec (o.indexCalls s.1) s.2).map fun tr => (o.exec s.1, tr)

/-- Every run of collection calls from `New` succeeds on the R-tree, which stores exactly the
entries of the collection's index. -/
theorem collection_index_tree (ops : List (Op α)) :
    ∃ s, Simulation.run Op.execTree ops ((New : Collection α str), Rtree.RTree.New) = some s ∧
      s.1 = Simulation.arun Op.exec ops New ∧ Rtree.Stores s.2 s.1.index := by
  have hsim : Simulation.Simulates Op.execTree Op.exec (fun _ _ => True)
      (fun (s : Collection α str × Rtree.RTree α Nat) c =>
        s.1 = c ∧ Rtree.Stores s.2 c.index ∧ IndexOK c) := by
    rintro o ⟨c, tr⟩ c' ⟨rfl, hs, hok⟩ -
    obtain ⟨tr', hrun, hs'⟩ := hok.calls hs o
    exact ⟨(o.exec c, tr'), by simp [Op.execTree, hrun], rfl, hs', hok.exec o⟩
  obtain ⟨s, hrun, hs1, hs, -⟩ := Simulation.run_simulates _ _ _ _ hsim ops
    ((New : Collection α str), Rtree.RTree.New) New ⟨rfl, ⟨Or.inl rfl, rfl⟩, indexOK_New⟩
    (Simulation.allowed_of_forall _ _ (fun _ _ => trivial) ops _)
  exact ⟨s, hrun, hs1, hs1 ▸ hs⟩

/-- The box of a geometry a call inserts is proper. -/
def Op.ProperBox : Op α → Collection α str → Prop
  | .replaceOrInsert id obj _ _, c => obj.IsGeometry → (⟨c.alloc, id, obj⟩ : itemT α).entry.rect.Proper
  | _, _ => True

theorem exec_index_proper {c : Collection α str} (h : ∀ e ∈ c.index, e.rect.Proper) {o : Op α}
    (hp : o.ProperBox c) : ∀ e ∈ (o.exec c).index, e.rect.Proper := by
  intro e he
  rw [exec_index] at he
  cases o with
  | replaceOrInsert id obj fields values =>
    rw [Op.indexCalls] at he
    split_ifs at he with hg
    · cases hget : c.items.get id <;> rw [hget] at he <;>
        simp only [Option.elim, List.nil_append, List.singleton_append, Simulation.arun,
          Rtree.Op.apply, List.mem_append, List.mem_filter, List.mem_singleton] at he
      · rcases he with he | rfl
        · exact h e he
        · exact hp hg
      · rcases he with ⟨he, -⟩ | rfl
        · exact h e he
        · exact hp hg
    · exact h e he
  | remove id =>
    rw [Op.indexCalls] at he
    cases hget : c.items.get id <;> rw [hget] at he
    · exact h e he
    · dsimp only [Option.elim] at he
      split_ifs at he
      · exact h e (List.mem_of_mem_filter he)
      · exact h e he
  | setField id field value => exact h e he
  | setFields id fields values => exact h e he

/-- A run whose inserted geometries have proper boxes leaves proper boxes in the index. -/
theorem index_proper_run {ops : List (Op α)}
    (hp : Simulation.Allowed Op.ProperBox Op.exec ops (New : Collection α str)) :
    ∀ e ∈ (Simulation.arun Op.exec ops (New : Collection α str)).index, e.rect.Proper :=
  Simulation.arun_invariant _ _ (fun c => ∀ e ∈ c.index, e.rect.Proper)
    (fun _ _ h hp => exec_index_proper h hp) ops New (by simp [New]) hp

/-- When every geometry a run inserts has a proper box, the tree's queries answer as the
collection's index says. -/
theorem collection_index_observes (ops : List (Op α))
    (hp : Simulation.Allowed Op.ProperBox Op.exec ops (New : Collection α str)) :
    ∃ s, Simulation.run Op.execTree ops ((New : Collection α str), Rtree.RTree.New) = some s ∧
      s.1 = Simulation.arun Op.exec ops New ∧ Rtree.Observes s.2 s.1.index := by
  obtain ⟨s, hrun, hs1, hw, hc⟩ := @collection_index_tree α str _ _ ops
  have hok : IndexOK (Simulation.arun Op.exec ops (New : Collection α str)) :=
    Simulation.arun_invariant _ (fun _ _ => True) IndexOK (fun o _ h _ => h.exec o) ops New
      indexOK_New (Simulation.allowed_of_forall _ _ (fun _ _ => trivial) ops _)
  refine ⟨s, hrun, hs1, ?_⟩
  rw [hs1] at hc ⊢
  exact Rtree.Represents.observes ⟨hw, hc, hok.nodup, index_proper_run hp⟩

theorem collection_index_observes_two_points :
    Simulation.Allowed Op.ProperBox Op.exec
        [.replaceOrInsert [97] (.simplePoint 0 0) none [], .replaceOrInsert [98] (.simplePoint 1 2) none []]
        (New : Collection ℚ fun _ => []) ∧
      ∃ s, Simulation.run Op.execTree
          [.replaceOrInsert [97] (.simplePoint 0 0) none [],
            .replaceOrInsert [98] (.simplePoint 1 2) none []]
          ((New : Collection ℚ fun _ => []), Rtree.RTree.New) = some s ∧
        s.1 = Simulation.arun Op.exec
          [.replaceOrInsert [97] (.simplePoint 0 0) none [],
            .replaceOrInsert [98] (.simplePoint 1 2) none []] New ∧
        Rtree.Observes s.2 s.1.index :=
  have hp : Simulation.Allowed Op.ProperBox Op.exec
      [.replaceOrInsert [97] (.simplePoint 0 0) none [], .replaceOrInsert [98] (.simplePoint 1 2) none []]
      (New : Collection ℚ fun _ => []) :=
    ⟨fun _ => le_rfl, fun _ => le_rfl, trivial⟩
  ⟨hp, collection_index_observes _ hp⟩

end Tree

end Collection
