import Mathlib.Algebra.Order.Ring.Nat
import Mathlib.Data.Nat.SuccPred

/-!
# `sortByAxis` (`pkg/index/rtree/base.go`)

Before a split, `sortNodes` orders a node's children by one corner coordinate with an
in-place quicksort: the middle element is swapped to the end as pivot, a Lomuto pass moves
the smaller children in front of `left`, the pivot is swapped to `left`, and both sides are
sorted recursively. The slice is a list here and each swap is `swapAt`. The key is the
coordinate `min[axis]`; it is left abstract, over any linear order.

The recursion is on the length of the slice, so the sort terminates, and it sorts
(`sortByAxis_sorts`): the Lomuto pass keeps the children before `left` below the pivot and
those it has passed from `left` on not below it (`PartInv`), so the partition leaves the slice
in three parts around the pivot (`partition_parts`).
-/

namespace Rtree

universe u v
variable {β : Type u} {κ : Type v} [LinearOrder κ]

/-- `items[i], items[j] = items[j], items[i]`; out-of-range positions leave the slice alone. -/
def swapAt (l : List β) (i j : Nat) : List β :=
  match l[i]?, l[j]? with
  | some a, some b => (l.set i b).set j a
  | _, _ => l

/-- One turn of `for i := range items` with the pivot at `right`. -/
def partitionStep (key : β → κ) (right : Nat) (acc : Nat × List β) (i : Nat) : Nat × List β :=
  match acc.2[i]?, acc.2[right]? with
  | some x, some p => if key x < key p then (acc.1 + 1, swapAt acc.2 i acc.1) else acc
  | _, _ => acc

/-- The partition of `sortByAxis`: the pivot's final index and the rearranged slice. -/
def partition (key : β → κ) (items : List β) : Nat × List β :=
  let right := items.length - 1
  let parted := (List.range items.length).foldl (partitionStep key right)
    (0, swapAt items (items.length / 2) right)
  (parted.1, swapAt parted.2 parted.1 right)

theorem length_swapAt (l : List β) (i j : Nat) : (swapAt l i j).length = l.length := by
  unfold swapAt
  split <;> simp

theorem swapAt_perm (l : List β) (i j : Nat) : (swapAt l i j).Perm l := by
  unfold swapAt
  split
  · rename_i a b ha hb
    obtain ⟨hi, rfl⟩ := List.getElem?_eq_some_iff.mp ha
    obtain ⟨hj, rfl⟩ := List.getElem?_eq_some_iff.mp hb
    exact List.set_set_perm hi hj
  · exact List.Perm.refl l

theorem getElem?_swapAt {l : List β} {i j : Nat} (hi : i < l.length) (hj : j < l.length) (k : Nat) :
    (swapAt l i j)[k]? = if k = j then l[i]? else if k = i then l[j]? else l[k]? := by
  rw [swapAt, List.getElem?_eq_getElem hi, List.getElem?_eq_getElem hj]
  simp only [List.getElem?_set, List.length_set]
  by_cases hkj : k = j
  · subst hkj
    simp [hj]
  · by_cases hki : k = i
    · subst hki
      simp [hkj, hi, Ne.symm hkj]
    · simp [hkj, hki, Ne.symm hkj, Ne.symm hki]

theorem partitionStep_length (key : β → κ) (right : Nat) (acc : Nat × List β) (i : Nat) :
    (partitionStep key right acc i).2.length = acc.2.length := by
  unfold partitionStep
  split
  · split <;> simp [length_swapAt]
  · rfl

theorem partitionStep_perm (key : β → κ) (right : Nat) (acc : Nat × List β) (i : Nat) :
    (partitionStep key right acc i).2.Perm acc.2 := by
  unfold partitionStep
  split
  · split
    · exact swapAt_perm _ _ _
    · exact List.Perm.refl _
  · exact List.Perm.refl _

theorem partitionStep_left (key : β → κ) (right : Nat) (acc : Nat × List β) (i : Nat) :
    (partitionStep key right acc i).1 ≤ acc.1 + (if i = right then 0 else 1) := by
  unfold partitionStep
  split
  · rename_i x p hx hp
    split
    · rename_i hlt
      by_cases hi : i = right
      · subst hi
        rw [hx] at hp
        cases hp
        exact absurd hlt (lt_irrefl _)
      · simp [hi]
    · split <;> omega
  · split <;> omega

theorem partition_fold (key : β → κ) (right : Nat) (acc : Nat × List β) (k : Nat) :
    let r := (List.range k).foldl (partitionStep key right) acc
    r.2.length = acc.2.length ∧ r.2.Perm acc.2 ∧
      r.1 ≤ acc.1 + k - (if right < k then 1 else 0) := by
  induction k with
  | zero => simp
  | succ k ih =>
    obtain ⟨hlen, hperm, hleft⟩ := ih
    simp only [List.range_succ, List.foldl_append, List.foldl_cons, List.foldl_nil]
    refine ⟨(partitionStep_length _ _ _ _).trans hlen,
      (partitionStep_perm _ _ _ _).trans hperm, ?_⟩
    have hstep := partitionStep_left key right ((List.range k).foldl (partitionStep key right) acc) k
    split at hleft <;> split at hstep <;> split <;> omega

theorem partition_length (key : β → κ) (items : List β) :
    (partition key items).2.length = items.length := by
  have h := (partition_fold key (items.length - 1) (0, swapAt items (items.length / 2)
    (items.length - 1)) items.length).1
  simp only [partition, length_swapAt] at h ⊢
  exact h

theorem partition_perm (key : β → κ) (items : List β) : (partition key items).2.Perm items := by
  have h := (partition_fold key (items.length - 1) (0, swapAt items (items.length / 2)
    (items.length - 1)) items.length).2.1
  exact (swapAt_perm _ _ _).trans (h.trans (swapAt_perm _ _ _))

theorem partition_left_lt (key : β → κ) (items : List β) (h : 0 < items.length) :
    (partition key items).1 < items.length := by
  have hf := (partition_fold key (items.length - 1) (0, swapAt items (items.length / 2)
    (items.length - 1)) items.length).2.2
  simp only [partition]
  split at hf <;> omega

/-- `sortByAxis`. -/
def sortByAxis (key : β → κ) (items : List β) : List β :=
  if _h : items.length < 2 then items
  else
    let p := partition key items
    sortByAxis key (p.2.take p.1) ++ (p.2.drop p.1).take 1 ++
      sortByAxis key (p.2.drop (p.1 + 1))
termination_by items.length
decreasing_by
  · have := partition_left_lt key items (by omega)
    simp only [List.length_take]
    omega
  · simp only [List.length_drop, partition_length]
    omega

theorem sortByAxis_perm (key : β → κ) (items : List β) : (sortByAxis key items).Perm items := by
  induction items using sortByAxis.induct key with
  | case1 items h =>
    rw [sortByAxis, dif_pos h]
  | case2 items h p ih₁ ih₂ =>
    rw [sortByAxis, dif_neg h]
    have hsplit : p.2 = p.2.take p.1 ++ (p.2.drop p.1).take 1 ++ p.2.drop (p.1 + 1) := by
      rw [List.append_assoc, ← List.drop_drop, List.take_append_drop, List.take_append_drop]
    refine List.Perm.trans ?_ (partition_perm key items)
    conv => rhs; rw [hsplit]
    exact (ih₁.append (List.Perm.refl _)).append ih₂

/-! ### The partition invariant and sortedness -/

/-- The Lomuto invariant after the turns before `k`: the pivot `pv` still at `right`, the
children before `left` below it and those from `left` up to `k` not below it. -/
structure PartInv (key : β → κ) (right : Nat) (pv : β) (k : Nat) (acc : Nat × List β) : Prop where
  left_le : acc.1 ≤ k
  pivot : acc.2[right]? = some pv
  below : ∀ j < acc.1, ∀ x, acc.2[j]? = some x → key x < key pv
  above : ∀ j, acc.1 ≤ j → j < k → ∀ x, acc.2[j]? = some x → key pv ≤ key x

/-- One turn keeps the invariant: a child below the pivot is swapped to `left`, and the one it
replaces there was not below it. -/
theorem PartInv.step {key : β → κ} {right : Nat} {pv : β} {k : Nat} {acc : Nat × List β}
    (h : PartInv key right pv k acc) (hk : k ≤ right) (hr : right < acc.2.length) :
    PartInv key right pv (k + 1) (partitionStep key right acc k) := by
  have hkl : k < acc.2.length := by omega
  obtain ⟨x, hx⟩ : ∃ x, acc.2[k]? = some x := ⟨_, List.getElem?_eq_getElem hkl⟩
  by_cases hlt : key x < key pv
  · -- swapped to `left`: the pivot's turn is never this case
    have hkr : k ≠ right := by
      rintro rfl
      rw [h.pivot] at hx
      cases hx
      exact lt_irrefl _ hlt
    have hleft : acc.1 < acc.2.length := by have := h.left_le; omega
    have hstep : partitionStep key right acc k = (acc.1 + 1, swapAt acc.2 k acc.1) := by
      simp [partitionStep, hx, h.pivot, hlt]
    rw [hstep]
    refine ⟨by have := h.left_le; simp; omega, ?_, ?_, ?_⟩
    · rw [getElem?_swapAt hkl hleft, if_neg (by have := h.left_le; omega), if_neg hkr.symm]
      exact h.pivot
    · intro j hj y hy
      rw [getElem?_swapAt hkl hleft] at hy
      by_cases hjl : j = acc.1
      · rw [if_pos hjl, hx] at hy
        cases hy
        exact hlt
      · rw [if_neg hjl] at hy
        have hjk : j ≠ k := by have := h.left_le; simp at hj; omega
        rw [if_neg hjk] at hy
        exact h.below j (by simp at hj; omega) y hy
    · intro j hj hjk y hy
      rw [getElem?_swapAt hkl hleft] at hy
      simp only at hj
      rw [if_neg (by omega)] at hy
      by_cases hjk' : j = k
      · rw [if_pos hjk'] at hy
        exact h.above acc.1 (Nat.le_refl _) (by omega) y hy
      · rw [if_neg hjk'] at hy
        exact h.above j (by omega) (by omega) y hy
  · have hstep : partitionStep key right acc k = acc := by
      simp [partitionStep, hx, h.pivot, hlt]
    rw [hstep]
    refine ⟨by have := h.left_le; omega, h.pivot, h.below, ?_⟩
    intro j hj hjk y hy
    by_cases hjk' : j = k
    · subst hjk'
      rw [hx] at hy
      cases hy
      exact not_lt.mp hlt
    · exact h.above j hj (by omega) y hy

theorem partInv_fold (key : β → κ) (items : List β) {pv : β}
    (hpv : (swapAt items (items.length / 2) (items.length - 1))[items.length - 1]? = some pv) :
    ∀ k ≤ items.length, PartInv key (items.length - 1) pv k
      ((List.range k).foldl (partitionStep key (items.length - 1))
        (0, swapAt items (items.length / 2) (items.length - 1)))
  | 0, _ => ⟨Nat.le_refl _, hpv, fun j hj => absurd hj (Nat.not_lt_zero j),
      fun j _ hj => absurd hj (Nat.not_lt_zero j)⟩
  | k + 1, hk => by
    have ih := partInv_fold key items hpv k (by omega)
    have hlen := (partition_fold key (items.length - 1)
      (0, swapAt items (items.length / 2) (items.length - 1)) k).1
    rw [List.range_succ, List.foldl_append, List.foldl_cons, List.foldl_nil]
    exact ih.step (by omega) (by rw [hlen, length_swapAt]; omega)

/-- The partition leaves the children below the pivot before it and the others after it. -/
theorem partition_parts (key : β → κ) (items : List β) (hn : 2 ≤ items.length) :
    ∃ pv, ((partition key items).2.drop (partition key items).1).take 1 = [pv] ∧
      (∀ x ∈ (partition key items).2.take (partition key items).1, key x < key pv) ∧
      ∀ x ∈ (partition key items).2.drop ((partition key items).1 + 1), key pv ≤ key x := by
  obtain ⟨pv, hpv⟩ : ∃ pv,
      (swapAt items (items.length / 2) (items.length - 1))[items.length - 1]? = some pv :=
    ⟨_, List.getElem?_eq_getElem (by rw [length_swapAt]; omega)⟩
  have hinv := partInv_fold key items hpv items.length (Nat.le_refl _)
  have hlen := (partition_fold key (items.length - 1)
    (0, swapAt items (items.length / 2) (items.length - 1)) items.length).1
  have hleft := partition_left_lt key items (by omega)
  obtain ⟨acc, hacc⟩ : ∃ acc, (List.range items.length).foldl
      (partitionStep key (items.length - 1))
      (0, swapAt items (items.length / 2) (items.length - 1)) = acc := ⟨_, rfl⟩
  have hp : partition key items = (acc.1, swapAt acc.2 acc.1 (items.length - 1)) := by
    rw [← hacc]
    rfl
  rw [hacc] at hinv hlen
  rw [hp] at hleft ⊢
  rw [length_swapAt] at hlen
  simp only at hleft ⊢
  have hget := getElem?_swapAt (l := acc.2) (by omega : acc.1 < acc.2.length)
    (by omega : items.length - 1 < acc.2.length)
  refine ⟨pv, ?_, ?_, ?_⟩
  · have hat : (swapAt acc.2 acc.1 (items.length - 1))[acc.1]? = some pv := by
      rw [hget]
      by_cases he : acc.1 = items.length - 1
      · rw [if_pos he, he]
        exact hinv.pivot
      · rw [if_neg he, if_pos rfl]
        exact hinv.pivot
    simp [List.take_one, List.head?_drop, hat]
  · intro x hx
    obtain ⟨j, hj⟩ := List.mem_iff_getElem?.mp hx
    rw [List.getElem?_take] at hj
    split_ifs at hj with hjl
    rw [hget, if_neg (by omega), if_neg (by omega)] at hj
    exact hinv.below j hjl x hj
  · intro x hx
    obtain ⟨j, hj⟩ := List.mem_iff_getElem?.mp hx
    rw [List.getElem?_drop, hget] at hj
    split_ifs at hj with hjr hjl
    · exact hinv.above acc.1 (Nat.le_refl _) hleft x hj
    · omega
    · have hjn : acc.1 + 1 + j < items.length := by
        by_contra hge
        rw [List.getElem?_eq_none (by omega)] at hj
        cases hj
      exact hinv.above _ (by omega) hjn x hj

/-- `sortByAxis` sorts: it returns a permutation of the slice, non-decreasing in the key. The
induction follows the recursion; the partition puts the children below the pivot before it and
the others after it. -/
theorem sortByAxis_sorts (key : β → κ) (items : List β) :
    (sortByAxis key items).Perm items ∧
      (sortByAxis key items).Pairwise fun a b => key a ≤ key b := by
  refine ⟨sortByAxis_perm key items, ?_⟩
  induction items using sortByAxis.induct key with
  | case1 items h =>
    rw [sortByAxis, dif_pos h]
    match items, h with
    | [], _ => exact List.Pairwise.nil
    | [_], _ => exact List.pairwise_singleton _ _
  | case2 items h p ih₁ ih₂ =>
    rw [sortByAxis, dif_neg h]
    obtain ⟨pv, hmid, hlo, hhi⟩ := partition_parts key items (by omega)
    dsimp only
    rw [hmid]
    -- what is sorted before the pivot is below it, what is sorted after it is not
    have hlo' : ∀ x ∈ sortByAxis key (p.2.take p.1), key x ≤ key pv :=
      fun x hx => (hlo x ((sortByAxis_perm key _).mem_iff.mp hx)).le
    have hhi' : ∀ x ∈ sortByAxis key (p.2.drop (p.1 + 1)), key pv ≤ key x :=
      fun x hx => hhi x ((sortByAxis_perm key _).mem_iff.mp hx)
    refine List.pairwise_append.mpr ⟨List.pairwise_append.mpr
      ⟨ih₁, List.pairwise_singleton _ _, fun a ha b hb => ?_⟩, ih₂, fun a ha b hb => ?_⟩
    · rw [List.mem_singleton.mp hb]
      exact hlo' a ha
    · rcases List.mem_append.mp ha with ha | ha
      · exact (hlo' a ha).trans (hhi' b hb)
      · rw [List.mem_singleton.mp ha]
        exact hhi' b hb

end Rtree
