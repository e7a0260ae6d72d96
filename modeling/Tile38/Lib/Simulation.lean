import Mathlib.Logic.Basic
import Mathlib.Data.List.Basic

/-!
# Forward simulation of a partial machine by a total one

Two machines driven by one alphabet of operations: a concrete one whose steps may fail
(`Option`, for the cases the code leaves undefined) and an abstract one whose steps always
succeed, with a precondition `ok` saying which operations a client may issue. When a relation
between their states is kept by every allowed step, a run of allowed operations succeeds on
the concrete side and ends in related states: the step lemma carries over whole runs. An
invariant that the steps keep when they succeed holds at the end of every run that succeeds.
-/

namespace Simulation

universe u v w
variable {O : Type u} {C : Type v} {A : Type w}

/-- Run the concrete machine, stopping at the first failing step. -/
def run (step : O → C → Option C) : List O → C → Option C
  | [], c => some c
  | o :: os, c => (step o c).bind (run step os)

/-- Run the abstract machine. -/
def arun (astep : O → A → A) : List O → A → A
  | [], a => a
  | o :: os, a => arun astep os (astep o a)

/-- Every operation of the run is allowed in the abstract state it meets. -/
def Allowed (ok : O → A → Prop) (astep : O → A → A) : List O → A → Prop
  | [], _ => True
  | o :: os, a => ok o a ∧ Allowed ok astep os (astep o a)

theorem allowed_of_forall (ok : O → A → Prop) (astep : O → A → A) (h : ∀ o a, ok o a) :
    ∀ (os : List O) (a : A), Allowed ok astep os a
  | [], _ => trivial
  | o :: os, a => ⟨h o a, allowed_of_forall ok astep h os (astep o a)⟩

@[simp] theorem run_nil (step : O → C → Option C) (c : C) : run step [] c = some c := rfl

@[simp] theorem run_cons (step : O → C → Option C) (o : O) (os : List O) (c : C) :
    run step (o :: os) c = (step o c).bind (run step os) := rfl

@[simp] theorem arun_nil (astep : O → A → A) (a : A) : arun astep [] a = a := rfl

section

variable (step : O → C → Option C) (astep : O → A → A) (ok : O → A → Prop)
  (R : C → A → Prop)

/-- The simulation diagram for one allowed step. -/
def Simulates : Prop :=
  ∀ o c a, R c a → ok o a → ∃ c', step o c = some c' ∧ R c' (astep o a)

theorem run_simulates (hsim : Simulates step astep ok R) :
    ∀ (os : List O) (c : C) (a : A), R c a → Allowed ok astep os a →
      ∃ c', run step os c = some c' ∧ R c' (arun astep os a)
  | [], c, _, hr, _ => ⟨c, rfl, hr⟩
  | o :: os, c, a, hr, hok => by
    obtain ⟨hok₁, hos⟩ := hok
    obtain ⟨c₁, hstep, hr₁⟩ := hsim o c a hr hok₁
    obtain ⟨c', hrun, hr'⟩ := run_simulates hsim os c₁ (astep o a) hr₁ hos
    exact ⟨c', by simp [hstep, hrun], hr'⟩

end

/-- An invariant of the partial machine under which every step of a `good` operation succeeds
and which every such step keeps: every run of `good` operations from a state that has it
succeeds and ends in a state that has it. -/
theorem run_invariant_on (step : O → C → Option C) (good : O → Prop) (Inv : C → Prop)
    (hstep : ∀ o c, good o → Inv c → ∃ c', step o c = some c' ∧ Inv c') :
    ∀ (os : List O) (c : C), (∀ o ∈ os, good o) → Inv c → ∃ c', run step os c = some c' ∧ Inv c'
  | [], c, _, hi => ⟨c, rfl, hi⟩
  | o :: os, c, hgood, hi => by
    obtain ⟨c₁, hs, hi₁⟩ := hstep o c (hgood o (List.mem_cons_self ..)) hi
    obtain ⟨c', hrun, hi'⟩ := run_invariant_on step good Inv hstep os c₁
      (fun o' ho' => hgood o' (List.mem_cons_of_mem o ho')) hi₁
    exact ⟨c', by simp [hs, hrun], hi'⟩

theorem run_invariant (step : O → C → Option C) (Inv : C → Prop)
    (hstep : ∀ o c, Inv c → ∃ c', step o c = some c' ∧ Inv c') (os : List O) (c : C)
    (hi : Inv c) : ∃ c', run step os c = some c' ∧ Inv c' :=
  run_invariant_on step (fun _ => True) Inv (fun o c _ => hstep o c) os c (fun _ _ => trivial) hi

/-- An invariant that every step of a good operation keeps when it succeeds holds at the end of
every run of good operations that succeeds: steps that fail (a blocked party, a disabled
operation) end the run. -/
theorem run_keeps_on (step : O → C → Option C) (good : O → Prop) (Inv : C → Prop)
    (hstep : ∀ o c c', good o → Inv c → step o c = some c' → Inv c') :
    ∀ (os : List O) (c c' : C), (∀ o ∈ os, good o) → Inv c → run step os c = some c' → Inv c'
  | [], c, c', _, hi, hrun => by
    rw [run_nil, Option.some.injEq] at hrun
    exact hrun ▸ hi
  | o :: os, c, c', hgood, hi, hrun => by
    rw [run_cons] at hrun
    obtain ⟨c₁, hs, hrun'⟩ := Option.bind_eq_some_iff.mp hrun
    exact run_keeps_on step good Inv hstep os c₁ c' (fun o' ho' => hgood o' (List.mem_cons_of_mem _ ho'))
      (hstep o c c₁ (hgood o List.mem_cons_self) hi hs) hrun'

theorem run_keeps (step : O → C → Option C) (Inv : C → Prop)
    (hstep : ∀ o c c', Inv c → step o c = some c' → Inv c') (os : List O) (c c' : C)
    (hi : Inv c) (hrun : run step os c = some c') : Inv c' :=
  run_keeps_on step (fun _ => True) Inv (fun o c c' _ => hstep o c c') os c c' (fun _ _ => trivial)
    hi hrun

/-- An invariant of the total machine that every allowed step keeps holds after every allowed
run, by induction on the run. -/
theorem arun_invariant (astep : O → A → A) (ok : O → A → Prop) (Inv : A → Prop)
    (hstep : ∀ o a, Inv a → ok o a → Inv (astep o a)) :
    ∀ (os : List O) (a : A), Inv a → Allowed ok astep os a → Inv (arun astep os a)
  | [], _, hi, _ => hi
  | o :: os, a, hi, hok => arun_invariant astep ok Inv hstep os (astep o a) (hstep o a hi hok.1) hok.2

end Simulation
