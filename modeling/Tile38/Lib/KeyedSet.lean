import Mathlib.Algebra.BigOperators.Group.List.Basic
import Mathlib.Data.List.Nodup

/-!
# Finite sets of values with distinct keys

A B-tree ordered by a key, or a hash map, holds at most one value per key: `ReplaceOrInsert`
puts a value in place of the one with the same key and hands that one back, `Delete` takes
out the value with a given key. Its iteration order aside, such a container is a list of
values whose keys are distinct; the structure carries that as a field.

The lemma that carries most proofs is `perm_get_erase`: the values are the one with key `k`,
if any, and the others. Sums and filters over the container follow from it (`total_erase`).
-/

universe u v

/-- A finite set of values with distinct keys. -/
structure KeyedSet {κ : Type u} {β : Type v} (key : β → κ) where
  items : List β
  nodup : (items.map key).Nodup

namespace KeyedSet

variable {κ : Type u} {β : Type v} {key : β → κ}

/-- The empty container. -/
def empty : KeyedSet key := ⟨[], List.nodup_nil⟩

/-- The sum of `f` over the values. -/
def total {M : Type*} [AddCommMonoid M] (f : β → M) (t : KeyedSet key) : M := (t.items.map f).sum

theorem nodup_filter (t : KeyedSet key) (p : β → Bool) : ((t.items.filter p).map key).Nodup :=
  t.nodup.sublist ((List.filter_sublist).map key)

@[simp] theorem items_empty : (empty : KeyedSet key).items = [] := rfl

@[simp] theorem total_empty {M : Type*} [AddCommMonoid M] (f : β → M) :
    (empty : KeyedSet key).total f = 0 := rfl

variable [DecidableEq κ]

/-- The value with key `k`. -/
def get (t : KeyedSet key) (k : κ) : Option β := t.items.find? fun x => key x = k

/-- The container without the value of key `k`. -/
def erase (t : KeyedSet key) (k : κ) : KeyedSet key :=
  ⟨t.items.filter fun x => key x ≠ k, t.nodup_filter _⟩

theorem key_not_mem_erase (t : KeyedSet key) (k : κ) : k ∉ (t.erase k).items.map key := by
  simp [erase]

/-- `ReplaceOrInsert(x)`: the new container, and the value `x` replaced. -/
def replaceOrInsert (t : KeyedSet key) (x : β) : KeyedSet key × Option β :=
  (⟨x :: (t.erase (key x)).items,
    List.nodup_cons.mpr ⟨t.key_not_mem_erase (key x), (t.erase (key x)).nodup⟩⟩, t.get (key x))

/-- `Delete` by key: the new container, and the value taken out. -/
def delete (t : KeyedSet key) (k : κ) : KeyedSet key × Option β := (t.erase k, t.get k)

@[simp] theorem items_erase (t : KeyedSet key) (k : κ) :
    (t.erase k).items = t.items.filter fun x => key x ≠ k := rfl

@[simp] theorem items_replaceOrInsert (t : KeyedSet key) (x : β) :
    (t.replaceOrInsert x).1.items = x :: (t.erase (key x)).items := rfl

@[simp] theorem replaceOrInsert_snd (t : KeyedSet key) (x : β) :
    (t.replaceOrInsert x).2 = t.get (key x) := rfl

@[simp] theorem delete_fst (t : KeyedSet key) (k : κ) : (t.delete k).1 = t.erase k := rfl

@[simp] theorem delete_snd (t : KeyedSet key) (k : κ) : (t.delete k).2 = t.get k := rfl

/-! ### Lookup -/

theorem get_eq_some_iff {t : KeyedSet key} {k : κ} {x : β} :
    t.get k = some x ↔ x ∈ t.items ∧ key x = k := by
  constructor
  · intro h
    exact ⟨List.mem_of_find?_eq_some h, by simpa using List.find?_some h⟩
  · rintro ⟨hx, rfl⟩
    obtain ⟨y, hy⟩ : ∃ y, t.get (key x) = some y :=
      Option.isSome_iff_exists.mp (List.find?_isSome.mpr ⟨x, hx, by simp⟩)
    have hym : y ∈ t.items := List.mem_of_find?_eq_some hy
    have hyk : key y = key x := by simpa using List.find?_some hy
    rw [hy, List.inj_on_of_nodup_map t.nodup hym hx hyk]

theorem get_eq_none_iff {t : KeyedSet key} {k : κ} : t.get k = none ↔ ∀ x ∈ t.items, key x ≠ k := by
  simp [get]

@[simp] theorem get_empty (k : κ) : (empty : KeyedSet key).get k = none := rfl

@[simp] theorem get_erase_self (t : KeyedSet key) (k : κ) : (t.erase k).get k = none := by
  rw [get_eq_none_iff]
  intro x hx
  simpa using (List.mem_filter.mp hx).2

theorem get_erase_ne (t : KeyedSet key) {k k' : κ} (h : k' ≠ k) :
    (t.erase k).get k' = t.get k' := by
  unfold get erase
  rw [List.find?_filter]
  congr 1
  funext x
  by_cases hx : key x = k'
  · simp [hx, h]
  · simp [hx]

@[simp] theorem get_replaceOrInsert_self (t : KeyedSet key) (x : β) :
    (t.replaceOrInsert x).1.get (key x) = some x := by
  simp [get]

theorem get_replaceOrInsert_ne (t : KeyedSet key) (x : β) {k : κ} (h : k ≠ key x) :
    (t.replaceOrInsert x).1.get k = t.get k := by
  have hx : ¬key x = k := fun e => h e.symm
  have : (t.replaceOrInsert x).1.get k = (t.erase (key x)).get k := by
    simp [get, hx]
  rw [this, get_erase_ne t h]

/-! ### The value of a key and the others -/

/-- The values are the one of key `k`, if any, and the others. -/
theorem perm_get_erase (t : KeyedSet key) (k : κ) :
    t.items.Perm ((t.get k).toList ++ (t.erase k).items) := by
  obtain ⟨items, hnd⟩ := t
  induction items with
  | nil => simp [get, erase]
  | cons y ys ih =>
    have hnd' : (ys.map key).Nodup := (List.nodup_cons.mp hnd).2
    by_cases hy : key y = k
    · have hrest : ∀ z ∈ ys, key z ≠ k := fun z hz hzk =>
        (List.nodup_cons.mp hnd).1 (hy ▸ List.mem_map.mpr ⟨z, hz, hzk⟩)
      have hfilter : ys.filter (fun x => !decide (key x = k)) = ys :=
        List.filter_eq_self.mpr fun z hz => by simpa using hrest z hz
      simp [get, erase, hy, hfilter]
    · have := ih hnd'
      simp only [get, erase, List.find?_cons, hy, decide_false, List.filter_cons, ne_eq,
        not_false_eq_true, decide_true, if_true] at this ⊢
      exact (List.Perm.cons y this).trans List.perm_middle.symm

theorem total_erase {M : Type*} [AddCommMonoid M] (f : β → M) (t : KeyedSet key) (k : κ) :
    t.total f = (t.get k).elim 0 f + (t.erase k).total f := by
  unfold total
  rw [((t.perm_get_erase k).map f).sum_eq, List.map_append, List.sum_append]
  cases t.get k <;> simp

theorem total_replaceOrInsert {M : Type*} [AddCommMonoid M] (f : β → M) (t : KeyedSet key)
    (x : β) : (t.replaceOrInsert x).1.total f = f x + (t.erase (key x)).total f := by
  simp [total]

/-- The values satisfying `p` are those among the value of key `k` and those among the
others. -/
theorem perm_filter_erase (t : KeyedSet key) (k : κ) (p : β → Bool) :
    (t.items.filter p).Perm (((t.get k).toList.filter p) ++ (t.erase k).items.filter p) := by
  have := (t.perm_get_erase k).filter p
  rwa [List.filter_append] at this

theorem mem_of_get {t : KeyedSet key} {k : κ} {x : β} (h : t.get k = some x) : x ∈ t.items :=
  (get_eq_some_iff.mp h).1

theorem mem_erase {t : KeyedSet key} {k : κ} {x : β} :
    x ∈ (t.erase k).items ↔ x ∈ t.items ∧ key x ≠ k := by
  simp

theorem items_erase_of_get_none {t : KeyedSet key} {k : κ} (h : t.get k = none) :
    (t.erase k).items = t.items := by
  rw [items_erase, List.filter_eq_self]
  intro x hx
  simpa using get_eq_none_iff.mp h x hx

theorem length_erase (t : KeyedSet key) (k : κ) :
    (t.get k).toList.length + (t.erase k).items.length = t.items.length := by
  rw [← List.length_append, (t.perm_get_erase k).length_eq]

/-- The value of key `k` changed in place by `f`, which keeps keys; the others stay where they
are. -/
def update (t : KeyedSet key) (k : κ) (f : β → β) (hf : ∀ x, key (f x) = key x) : KeyedSet key :=
  ⟨t.items.map fun x => if key x = k then f x else x, by
    have : (t.items.map fun x => if key x = k then f x else x).map key = t.items.map key := by
      rw [List.map_map]
      congr 1
      funext x
      by_cases h : key x = k <;> simp [h, hf]
    rw [this]
    exact t.nodup⟩

theorem get_update_self (t : KeyedSet key) (k : κ) (f : β → β) (hf : ∀ x, key (f x) = key x) :
    (t.update k f hf).get k = (t.get k).map f := by
  unfold get update
  rw [List.find?_map]
  have hp : ((fun x => decide (key x = k)) ∘ fun x => if key x = k then f x else x) =
      fun x => decide (key x = k) := by
    funext x
    by_cases h : key x = k <;> simp [h, hf]
  rw [hp]
  cases h : t.items.find? (fun x => decide (key x = k)) with
  | none => rfl
  | some x =>
    have hx : key x = k := by simpa using List.find?_some h
    simp [hx]

theorem get_update_ne (t : KeyedSet key) {k k' : κ} (f : β → β) (hf : ∀ x, key (f x) = key x)
    (h : k' ≠ k) : (t.update k f hf).get k' = t.get k' := by
  unfold get update
  rw [List.find?_map]
  have hp : ((fun x => decide (key x = k')) ∘ fun x => if key x = k then f x else x) =
      fun x => decide (key x = k') := by
    funext x
    by_cases hk : key x = k <;> simp [hk, hf]
  rw [hp]
  cases hfind : t.items.find? (fun x => decide (key x = k')) with
  | none => rfl
  | some x =>
    have hx : key x = k' := by simpa using List.find?_some hfind
    have hne : ¬key x = k := fun e => h (hx ▸ e)
    simp [hne]

end KeyedSet
