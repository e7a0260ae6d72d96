import Mathlib.Algebra.Order.Field.Basic

/-!
# Float arithmetic read exactly

Code written for floats divides by zero and nudges a value to the next float up. Read with
exact arithmetic over an ordered field, a quotient is a number, an infinity or NaN (`Ext`), with
IEEE's rules: `x / 0` is `+Inf` or `-Inf` by the sign of `x`, `0 / 0` is NaN, NaN equals
nothing and compares with nothing. Zero is unsigned, so `x / 0` takes the sign of `x` as if the
zero were `+0`, which is what `x - x` gives in round-to-nearest.

`Nextafter(y, +Inf)` has no exact counterpart among the numbers; `Eps` reads it as `y + ε` for
a positive infinitesimal `ε`: above `y` and below every number above `y`. Values of `Eps` are
`std + inf·ε`, ordered lexicographically.
-/

namespace Extended

universe u
variable {β : Type u}

/-- A float value read exactly: a number, an infinity or NaN. -/
inductive Ext (β : Type u) where
  | fin (x : β)
  | posInf
  | negInf
  | nan
  deriving DecidableEq, Repr

section Ops

variable [Zero β] [LT β] [LE β] [Div β] [DecidableEq β] [DecidableLT β] [DecidableLE β]

/-- IEEE division. -/
def div (x y : β) : Ext β :=
  if y = 0 then (if 0 < x then .posInf else if x < 0 then .negInf else .nan)
  else .fin (x / y)

/-- IEEE `==`: NaN equals nothing, an infinity only itself. -/
def Ext.beq : Ext β → Ext β → Bool
  | .fin x, .fin y => x = y
  | .posInf, .posInf => true
  | .negInf, .negInf => true
  | _, _ => false

/-- IEEE `>=`: false when either side is NaN. -/
def Ext.ge : Ext β → Ext β → Bool
  | .fin x, .fin y => y ≤ x
  | .posInf, .nan => false
  | .posInf, _ => true
  | .nan, _ => false
  | _, .posInf => false
  | _, .negInf => true
  | .negInf, _ => false
  | _, .nan => false

omit [LE β] [DecidableLE β] in
theorem div_of_ne_zero (x : β) {y : β} (hy : y ≠ 0) : div x y = .fin (x / y) := by
  simp [div, hy]

omit [Zero β] [LT β] [LE β] [Div β] [DecidableLT β] [DecidableLE β] in
@[simp] theorem Ext.beq_fin (x y : β) : Ext.beq (.fin x) (.fin y) = decide (x = y) := rfl

omit [Zero β] [LT β] [Div β] [DecidableEq β] [DecidableLT β] in
@[simp] theorem Ext.ge_fin (x y : β) : Ext.ge (.fin x) (.fin y) = decide (y ≤ x) := rfl

end Ops

/-! ### Values just above a number -/

/-- `std + inf·ε` for a positive infinitesimal `ε`. -/
structure Eps (α : Type u) where
  std : α
  inf : α
  deriving DecidableEq, Repr

namespace Eps

variable {α : Type u}

section Field

variable [Field α]

/-- A number as a value with no infinitesimal part. -/
instance : Coe α (Eps α) := ⟨fun x => ⟨x, 0⟩⟩

instance : Zero (Eps α) := ⟨⟨0, 0⟩⟩

instance : Sub (Eps α) := ⟨fun x y => ⟨x.std - y.std, x.inf - y.inf⟩⟩

/-- Division, first order in `ε`; exact when the divisor is a number. -/
instance : Div (Eps α) :=
  ⟨fun x y => ⟨x.std / y.std, (x.inf * y.std - x.std * y.inf) / (y.std * y.std)⟩⟩

/-- `Nextafter(y, +Inf)`: the value just above `y`. -/
def nextUp (y : Eps α) : Eps α := ⟨y.std, y.inf + 1⟩

@[simp] theorem coe_std (x : α) : (x : Eps α).std = x := rfl

@[simp] theorem coe_inf (x : α) : (x : Eps α).inf = 0 := rfl

@[simp] theorem sub_std (x y : Eps α) : (x - y).std = x.std - y.std := rfl

@[simp] theorem sub_inf (x y : Eps α) : (x - y).inf = x.inf - y.inf := rfl

@[simp] theorem zero_std : (0 : Eps α).std = 0 := rfl

@[simp] theorem zero_inf : (0 : Eps α).inf = 0 := rfl

@[simp] theorem nextUp_std (y : Eps α) : (nextUp y).std = y.std := rfl

@[simp] theorem nextUp_inf (y : Eps α) : (nextUp y).inf = y.inf + 1 := rfl

omit [Field α] in
theorem ext_iff' {x y : Eps α} : x = y ↔ x.std = y.std ∧ x.inf = y.inf := by
  cases x
  cases y
  simp

theorem nextUp_coe_ne (x y : α) : nextUp (x : Eps α) ≠ (y : Eps α) := by
  intro h
  have := congrArg Eps.inf h
  simp at this

end Field

section Order

variable [LinearOrder α]

/-- The lexicographic order: the infinitesimal part breaks ties. -/
instance : LT (Eps α) := ⟨fun x y => x.std < y.std ∨ (x.std = y.std ∧ x.inf < y.inf)⟩

instance : LE (Eps α) := ⟨fun x y => x.std < y.std ∨ (x.std = y.std ∧ x.inf ≤ y.inf)⟩

instance (x y : Eps α) : Decidable (x < y) :=
  inferInstanceAs (Decidable (_ ∨ _))

instance (x y : Eps α) : Decidable (x ≤ y) :=
  inferInstanceAs (Decidable (_ ∨ _))

theorem lt_def {x y : Eps α} : x < y ↔ x.std < y.std ∨ (x.std = y.std ∧ x.inf < y.inf) :=
  Iff.rfl

theorem le_def {x y : Eps α} : x ≤ y ↔ x.std < y.std ∨ (x.std = y.std ∧ x.inf ≤ y.inf) :=
  Iff.rfl

end Order

section OrderedField

variable [Field α] [LinearOrder α]

@[simp] theorem coe_lt_coe {x y : α} : (x : Eps α) < (y : Eps α) ↔ x < y := by
  simp [lt_def]

@[simp] theorem coe_le_coe {x y : α} : (x : Eps α) ≤ (y : Eps α) ↔ x ≤ y := by
  simp [le_def, le_iff_lt_or_eq]

end OrderedField

end Eps

end Extended
