import Mathlib.Order.WithBot
import Mathlib.Order.Lattice
import Mathlib.Data.Fintype.Basic
import Mathlib.Data.List.Perm.Basic

/-!
# Closed axis-aligned boxes

A box is a pair of corners `lo, hi : d → α`. Ordered by containment, boxes form a
join-semilattice whose join is the componentwise hull; `WithBot` adjoins the empty box,
which is how a spatial index without entries reports its bounds. `Meets` is closed
intersection. Nothing here assumes `lo ≤ hi`; the lemmas that need it say so.
-/

universe u v

/-- A closed box with corners `lo` and `hi`. -/
structure Box (d : Type u) (α : Type v) where
  lo : d → α
  hi : d → α

namespace Box

theorem ext_iff' {d : Type u} {α : Type v} {a b : Box d α} :
    a = b ↔ a.lo = b.lo ∧ a.hi = b.hi := by
  cases a; cases b; simp

variable {d : Type u} {α : Type v} [LinearOrder α]

/-- Containment: `a ≤ b` when `b` contains `a`. -/
instance : PartialOrder (Box d α) where
  le a b := b.lo ≤ a.lo ∧ a.hi ≤ b.hi
  le_refl _ := ⟨le_rfl, le_rfl⟩
  le_trans _ _ _ hab hbc := ⟨hbc.1.trans hab.1, hab.2.trans hbc.2⟩
  le_antisymm a b hab hba := ext_iff'.mpr ⟨le_antisymm hba.1 hab.1, le_antisymm hab.2 hba.2⟩

theorem le_def {a b : Box d α} : a ≤ b ↔ b.lo ≤ a.lo ∧ a.hi ≤ b.hi := Iff.rfl

/-- The join is the hull of two boxes. -/
instance : SemilatticeSup (Box d α) where
  sup a b := ⟨a.lo ⊓ b.lo, a.hi ⊔ b.hi⟩
  le_sup_left _ _ := ⟨inf_le_left, le_sup_left⟩
  le_sup_right _ _ := ⟨inf_le_right, le_sup_right⟩
  sup_le _ _ _ hac hbc := ⟨le_inf hac.1 hbc.1, sup_le hac.2 hbc.2⟩

@[simp] theorem sup_lo (a b : Box d α) : (a ⊔ b).lo = a.lo ⊓ b.lo := rfl
@[simp] theorem sup_hi (a b : Box d α) : (a ⊔ b).hi = a.hi ⊔ b.hi := rfl

/-- Closed intersection: the two boxes share a point on every axis. -/
def Meets (a b : Box d α) : Prop := ∀ i, a.lo i ≤ b.hi i ∧ b.lo i ≤ a.hi i

/-- A box with `lo ≤ hi` on every axis, that is, a nonempty one. -/
def Proper (a : Box d α) : Prop := a.lo ≤ a.hi

theorem meets_comm {a b : Box d α} : Meets a b ↔ Meets b a :=
  forall_congr' fun _ => And.comm

theorem Meets.mono {a b q : Box d α} (h : Meets a q) (hab : a ≤ b) : Meets b q :=
  fun i => ⟨(hab.1 i).trans (h i).1, (h i).2.trans (hab.2 i)⟩

theorem meets_of_le {a q : Box d α} (hp : a.Proper) (h : a ≤ q) : Meets a q :=
  fun i => ⟨(hp i).trans (h.2 i), (h.1 i).trans (hp i)⟩

theorem Proper.mono {a b : Box d α} (hp : a.Proper) (hab : a ≤ b) : b.Proper :=
  fun i => (hab.1 i).trans ((hp i).trans (hab.2 i))

section Decidable
variable [Fintype d]

instance decLe : DecidableRel (α := Box d α) (· ≤ ·) := fun a b =>
  decidable_of_iff (∀ i, b.lo i ≤ a.lo i ∧ a.hi i ≤ b.hi i)
    ⟨fun h => ⟨fun i => (h i).1, fun i => (h i).2⟩, fun h i => ⟨h.1 i, h.2 i⟩⟩

instance decMeets : DecidableRel (Meets (d := d) (α := α)) := fun _ _ =>
  inferInstanceAs (Decidable (∀ _, _))

instance decEq [DecidableEq d] : DecidableEq (Box d α) := fun _ _ =>
  decidable_of_iff _ ext_iff'.symm

end Decidable

/-! ## Hulls of finite families -/

/-- The least box containing every box of `l`; `⊥` for the empty family. -/
def hull (l : List (Box d α)) : WithBot (Box d α) :=
  l.foldr (fun b acc => (b : WithBot (Box d α)) ⊔ acc) ⊥

@[simp] theorem hull_nil : hull ([] : List (Box d α)) = ⊥ := rfl

@[simp] theorem hull_cons (b : Box d α) (l : List (Box d α)) :
    hull (b :: l) = (b : WithBot (Box d α)) ⊔ hull l := rfl

theorem hull_le_iff {l : List (Box d α)} {c : WithBot (Box d α)} :
    hull l ≤ c ↔ ∀ b ∈ l, (b : WithBot (Box d α)) ≤ c := by
  induction l with
  | nil => simp
  | cons b l ih => simp [ih, sup_le_iff]

theorem le_hull {l : List (Box d α)} {b : Box d α} (hb : b ∈ l) :
    (b : WithBot (Box d α)) ≤ hull l :=
  hull_le_iff.mp le_rfl b hb

theorem hull_perm {l₁ l₂ : List (Box d α)} (h : l₁.Perm l₂) : hull l₁ = hull l₂ :=
  le_antisymm (hull_le_iff.mpr fun _ hb => le_hull (h.subset hb))
    (hull_le_iff.mpr fun _ hb => le_hull (h.symm.subset hb))

end Box
