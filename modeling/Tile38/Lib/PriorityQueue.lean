import Mathlib.Data.Multiset.AddSub
import Mathlib.Data.List.Sort

/-!
# Priority queues

A priority queue is given by its operations and by the multiset of elements a queue holds,
with the laws of a min-heap on a key: `pop` takes out an element whose key is least among
those left, and fails exactly on the empty queue. Nothing is said of the order in which
elements of equal key come out, so a client proved against these laws is proved against any
heap. A list kept sorted by key is one (`sortedList`).
-/

namespace PQueue

universe u v w
variable {Q : Type u} {β : Type v} {κ : Type w} [LinearOrder κ]

/-- The operations of a priority queue and the min-heap laws. -/
structure PriorityQueue (Q : Type u) (β : Type v) (key : β → κ) where
  empty : Q
  push : β → Q → Q
  pop : Q → Option (β × Q)
  elems : Q → Multiset β
  elems_empty : elems empty = 0
  elems_push (x : β) (q : Q) : elems (push x q) = x ::ₘ elems q
  pop_eq_none (q : Q) : pop q = none ↔ elems q = 0
  elems_pop {q : Q} {x : β} {q' : Q} : pop q = some (x, q') → elems q = x ::ₘ elems q'
  key_le_of_pop {q : Q} {x : β} {q' : Q} : pop q = some (x, q') → ∀ y ∈ elems q', key x ≤ key y

namespace PriorityQueue

variable {key : β → κ} (P : PriorityQueue Q β key)

/-- Pushing the elements of a list, first to last. -/
def pushAll (l : List β) (q : Q) : Q := l.foldl (fun q x => P.push x q) q

theorem elems_pushAll (l : List β) (q : Q) :
    P.elems (P.pushAll l q) = (l : Multiset β) + P.elems q := by
  induction l generalizing q with
  | nil => simp [pushAll]
  | cons x l ih =>
    have h := ih (P.push x q)
    rw [pushAll, List.foldl_cons] at *
    rw [h, P.elems_push, Multiset.add_cons, ← Multiset.cons_add, Multiset.cons_coe]

theorem card_lt_of_pop {q q' : Q} {x : β} (h : P.pop q = some (x, q')) :
    Multiset.card (P.elems q') < Multiset.card (P.elems q) := by
  rw [P.elems_pop h, Multiset.card_cons]
  exact Nat.lt_succ_self _

theorem mem_of_pop {q q' : Q} {x : β} (h : P.pop q = some (x, q')) : x ∈ P.elems q := by
  rw [P.elems_pop h]
  exact Multiset.mem_cons_self x _

theorem elems_le_of_pop {q q' : Q} {x : β} (h : P.pop q = some (x, q')) :
    P.elems q' ≤ P.elems q := by
  rw [P.elems_pop h]
  exact Multiset.le_cons_self _ _

theorem mem_of_mem_pop {q q' : Q} {x y : β} (h : P.pop q = some (x, q')) (hy : y ∈ P.elems q') :
    y ∈ P.elems q :=
  Multiset.mem_of_le (P.elems_le_of_pop h) hy

end PriorityQueue

/-! ### A sorted list -/

section Sorted

variable (key : β → κ)

/-- Lists whose keys increase. -/
abbrev Sorted : Type v := {l : List β // l.Pairwise fun a b => key a ≤ key b}

/-- Insertion into a sorted list keeps it sorted. -/
def Sorted.insert (x : β) (q : Sorted key) : Sorted key :=
  ⟨q.1.orderedInsert (fun a b => key a ≤ key b) x, by
    have : Std.Total fun a b : β => key a ≤ key b := ⟨fun a b => le_total (key a) (key b)⟩
    have : IsTrans β fun a b => key a ≤ key b := ⟨fun _ _ _ => le_trans⟩
    exact q.2.orderedInsert x q.1⟩

/-- The least element is the head. -/
def Sorted.pop : Sorted key → Option (β × Sorted key)
  | ⟨[], _⟩ => none
  | ⟨x :: l, h⟩ => some (x, ⟨l, h.of_cons⟩)

/-- A sorted list as a priority queue. -/
def sortedList : PriorityQueue (Sorted key) β key where
  empty := ⟨[], List.Pairwise.nil⟩
  push := Sorted.insert key
  pop := Sorted.pop key
  elems q := q.1
  elems_empty := rfl
  elems_push x q := by
    simp only [Sorted.insert, Multiset.cons_coe]
    exact Multiset.coe_eq_coe.mpr (List.perm_orderedInsert _ x q.1)
  pop_eq_none q := by
    obtain ⟨_ | ⟨x, l⟩, h⟩ := q <;> simp [Sorted.pop]
  elems_pop {q} {x} {q'} hp := by
    obtain ⟨_ | ⟨y, l⟩, h⟩ := q
    · cases hp
    · simp only [Sorted.pop, Option.some.injEq, Prod.mk.injEq] at hp
      obtain ⟨rfl, rfl⟩ := hp
      rfl
  key_le_of_pop {q} {x} {q'} hp := by
    obtain ⟨_ | ⟨y, l⟩, h⟩ := q
    · cases hp
    · simp only [Sorted.pop, Option.some.injEq, Prod.mk.injEq] at hp
      obtain ⟨rfl, rfl⟩ := hp
      intro z hz
      exact List.rel_of_pairwise_cons h (Multiset.mem_coe.mp hz)

end Sorted

end PQueue
