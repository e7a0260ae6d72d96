import Mathlib.Data.List.Infix

/-!
# Loops that may break

A search that hands its hits to a callback, and a `for` loop with a `break`, run a body over a
list of values: each body hands some values on and answers whether to go on, and the loop stops
after the first body that answers no. `seq a b` is `b` run after `a` unless `a` stopped, and
`forEach f xs` the loop.

A body that hands on at most one value and stops exactly when it hands one (`FirstOnly`) makes
a loop of the same kind, which hands on only the first value of all its bodies
(`forEach_fst_of_firstOnly`).

A callback with a state of its own runs as `foldWhile`: the loop over a list that stops after
the first call that answers false, and answers whether it ran to the end.
-/

namespace Iter

universe u v
variable {β : Type u} {γ : Type v}

/-- `a`, then `b` unless `a` stopped: the values both handed on and whether the run went to its
end. -/
def seq (a b : List γ × Bool) : List γ × Bool :=
  if a.2 then (a.1 ++ b.1, b.2) else a

/-- The loop over `xs` whose body `f` hands on some values and says whether to go on; it breaks
after the first body that says no. -/
def forEach (f : β → List γ × Bool) : List β → List γ × Bool
  | [] => ([], true)
  | x :: xs => seq (f x) (forEach f xs)

/-- The body that hands on a value passing `p` and then goes on as `k` says. -/
def select (p k : β → Bool) (x : β) : List β × Bool :=
  if p x then ([x], k x) else ([], true)

variable {a b : List γ × Bool} {f : β → List γ × Bool}

@[simp] theorem forEach_nil : forEach f [] = ([], true) := rfl

@[simp] theorem forEach_cons (x : β) (xs : List β) :
    forEach f (x :: xs) = seq (f x) (forEach f xs) := rfl

theorem seq_of_go (h : a.2 = true) : seq a b = (a.1 ++ b.1, b.2) := by
  simp [seq, h]

theorem seq_of_stop (h : a.2 = false) : seq a b = a := by
  simp [seq, h]

/-- A run that hands on at most one value and stops exactly when it hands one. -/
def FirstOnly (r : List γ × Bool) : Prop := r.1.length ≤ 1 ∧ r.2 = r.1.isEmpty

theorem FirstOnly.fst_eq (h : FirstOnly a) : a.1 = a.1.take 1 :=
  (List.take_of_length_le h.1).symm

theorem seq_fst_of_firstOnly (ha : FirstOnly a) (hb : FirstOnly b) :
    (seq a b).1 = (a.1 ++ b.1).take 1 := by
  cases h : a.1 with
  | nil =>
    have hgo : a.2 = true := by rw [ha.2, h]; rfl
    rw [seq_of_go hgo, h, List.nil_append]
    exact hb.fst_eq
  | cons y ys =>
    have hys : ys = [] := List.length_eq_zero_iff.mp (by have := ha.1; simp_all)
    have hstop : a.2 = false := by rw [ha.2, h]; rfl
    rw [seq_of_stop hstop, h, hys]
    rfl

theorem FirstOnly.seq (ha : FirstOnly a) (hb : FirstOnly b) : FirstOnly (seq a b) := by
  by_cases hgo : a.2 = true
  · have hnil : a.1 = [] := List.isEmpty_iff.mp (ha.2 ▸ hgo)
    rw [seq_of_go hgo, hnil, List.nil_append]
    exact hb
  · rw [seq_of_stop (Bool.eq_false_iff.mpr hgo)]
    exact ha

theorem FirstOnly.forEach {xs : List β} (h : ∀ x ∈ xs, FirstOnly (f x)) :
    FirstOnly (forEach f xs) := by
  induction xs with
  | nil => exact ⟨by simp, rfl⟩
  | cons x xs ih => exact (h x (by simp)).seq (ih fun y hy => h y (by simp [hy]))

/-- A loop of bodies that stop at their first value hands on the first value of them all. -/
theorem forEach_fst_of_firstOnly {xs : List β} (h : ∀ x ∈ xs, FirstOnly (f x)) :
    (forEach f xs).1 = (xs.flatMap fun x => (f x).1).take 1 := by
  induction xs with
  | nil => rfl
  | cons x xs ih =>
    have hx := h x (by simp)
    have hxs : ∀ y ∈ xs, FirstOnly (f y) := fun y hy => h y (by simp [hy])
    rw [forEach_cons, seq_fst_of_firstOnly hx (FirstOnly.forEach hxs), ih hxs, List.flatMap_cons,
      List.take_append, List.take_append, List.take_take,
      Nat.min_eq_left (Nat.sub_le 1 _)]

theorem take_one_append_take_one (l₁ l₂ : List γ) :
    (l₁.take 1 ++ l₂.take 1).take 1 = (l₁ ++ l₂).take 1 := by
  cases l₁ with
  | nil =>
    simp only [List.take_nil, List.nil_append, List.take_take]
    rw [Nat.min_self]
  | cons y ys => simp

theorem take_one_flatMap_take_one (g : β → List γ) (xs : List β) :
    (xs.flatMap fun x => (g x).take 1).take 1 = (xs.flatMap g).take 1 := by
  induction xs with
  | nil => rfl
  | cons x xs ih =>
    simp only [List.flatMap_cons]
    cases g x <;> simp [ih]

/-! ### Selecting bodies -/

theorem flatMap_select (p k : β → Bool) (xs : List β) :
    (xs.flatMap fun x => (select p k x).1) = xs.filter p := by
  induction xs with
  | nil => rfl
  | cons x xs ih =>
    rw [List.flatMap_cons, ih]
    by_cases hx : p x <;> simp [select, hx]

theorem firstOnly_select_stop (p : β → Bool) (x : β) :
    FirstOnly (select p (fun _ => false) x) := by
  by_cases hx : p x <;> simp [FirstOnly, select, hx]

theorem forEach_select_stop (p : β → Bool) (xs : List β) :
    (forEach (select p fun _ => false) xs).1 = (xs.filter p).take 1 := by
  rw [forEach_fst_of_firstOnly fun x _ => firstOnly_select_stop p x, flatMap_select]

/-! ### Loops with a state -/

section State

universe w
variable {σ : Type w} {g : σ → β → σ × Bool}

/-- The loop over `xs` whose body updates a state and says whether to go on; it breaks after
the first body that says no, and answers whether it ran to the end. -/
def foldWhile (g : σ → β → σ × Bool) : List β → σ → σ × Bool
  | [], s => (s, true)
  | x :: xs, s => if (g s x).2 then foldWhile g xs (g s x).1 else ((g s x).1, false)

@[simp] theorem foldWhile_nil (s : σ) : foldWhile g [] s = (s, true) := rfl

@[simp] theorem foldWhile_cons (x : β) (xs : List β) (s : σ) :
    foldWhile g (x :: xs) s = if (g s x).2 then foldWhile g xs (g s x).1 else ((g s x).1, false) :=
  rfl

theorem foldWhile_append (xs ys : List β) (s : σ) :
    foldWhile g (xs ++ ys) s =
      if (foldWhile g xs s).2 then foldWhile g ys (foldWhile g xs s).1 else foldWhile g xs s := by
  induction xs generalizing s with
  | nil => rfl
  | cons x xs ih =>
    by_cases hx : (g s x).2 = true
    · simp only [List.cons_append, foldWhile_cons, hx, if_true, ih]
    · simp [hx]

theorem foldWhile_of_go (h : ∀ s x, (g s x).2 = true) (xs : List β) (s : σ) :
    foldWhile g xs s = (xs.foldl (fun s x => (g s x).1) s, true) := by
  induction xs generalizing s with
  | nil => rfl
  | cons x xs ih => rw [foldWhile_cons, if_pos (h s x), ih, List.foldl_cons]

end State

end Iter
