import Tile38.Glob.Match
import Mathlib.Data.List.TakeWhile

/-!
# The scan limits of a glob (pkg/glob/glob.go)

`Parse(pattern, desc)` turns a pattern into the range of ids a scan has to visit: the bytes
before the first `[`, `*` or `?` (the literal prefix `a`) must begin every match, so an
ascending scan visits `[a, a⁺)` and a descending one `(a⁻, a⁺]`, where `a⁺` raises the last
byte (or appends a zero byte after `0xFF`) and `a⁻` lowers it, borrowing through trailing
zero bytes. The empty pair of limits asks for a full scan.

The prefix is only literal when it holds no backslash (an escape changes what the next byte
means) and the range is only right when `a⁺` bounds every extension of `a`, which fails when
the last byte is `0xFF`; and a pattern that starts with `[` or `?` gets the empty range
`[p, p)`. The lemmas below say exactly when the limits are right.
-/

namespace Glob

set_option linter.dupNamespace false in
/-- `glob.Glob`; `Limits` is the two-element slice `[]string{a, b}`. -/
structure Glob where
  Pattern : Bytes
  Desc : Bool
  Limits : Bytes × Bytes
  IsGlob : Bool
  deriving DecidableEq, Repr

/-- The bytes after which no extension of a nonempty `a` comes: its last byte plus one, or a
zero byte appended after `0xFF`. -/
def incLast (a : Bytes) : Bytes :=
  if a.getLast? = some 0xFF then a ++ [0] else a.dropLast ++ [a.getLast?.getD 0 + 1]

/-- The borrow loop `for len(b) > 0 && b[len(b)-1] == 0x00` of the descending limit, on the
bytes of `b` in reverse order: a trailing zero byte is dropped while the byte before it is zero
too, and otherwise that byte is lowered and followed by `0xFF`. -/
def borrowRev : Bytes → Bytes
  | [] => []
  | c :: rest =>
    if c ≠ 0 then c :: rest
    else
      match rest with
      | [] => []
      | x :: rest' => if x = 0 then borrowRev rest else 0xFF :: (x - 1) :: rest'

/-- The bytes below every extension of a nonempty `a`: its last byte minus one, or the borrow
loop when that byte is zero. -/
def decLast (a : Bytes) : Bytes :=
  if a.getLast? = some 0 then (borrowRev a.reverse).reverse
  else a.dropLast ++ [a.getLast?.getD 0 - 1]

def Parse (pattern : Bytes) (desc : Bool) : Glob :=
  if pattern.head? = some (ch '*') then ⟨pattern, desc, ([], []), true⟩
  else if pattern = [] then ⟨pattern, desc, ([], []), false⟩
  else
    -- `n` counts the bytes before the first `[`, `*` or `?`
    let n := (pattern.takeWhile (fun c => !isSpecial c)).length
    let isGlob := pattern.any isSpecial && (Match pattern (ascii "whatever")).isOk
    if n = 0 then ⟨pattern, desc, (pattern, pattern), false⟩
    else if desc then ⟨pattern, desc, (incLast (pattern.take n), decLast (pattern.take n)), isGlob⟩
    else ⟨pattern, desc, (pattern.take n, incLast (pattern.take n)), isGlob⟩

/-- The literal prefix `pattern[:n]` of `Parse`. -/
def literalPrefix (pattern : Bytes) : Bytes :=
  pattern.takeWhile (fun c => !isSpecial c)

/-! ### The two limits around a prefix -/

@[simp] theorem incLast_append_singleton (init : Bytes) (x : UInt8) :
    incLast (init ++ [x]) = if x = 0xFF then init ++ [x, 0] else init ++ [x + 1] := by
  by_cases hx : x = 0xFF <;> simp [incLast, hx]

theorem decLast_append_singleton_of_ne {init : Bytes} {x : UInt8} (hx : x ≠ 0) :
    decLast (init ++ [x]) = init ++ [x - 1] := by
  simp [decLast, hx]

/-- Every extension of `a` lies below `a⁺`, unless the last byte of `a` is `0xFF`. -/
theorem append_lt_incLast {init : Bytes} {x : UInt8} (hx : x ≠ 0xFF) (u : Bytes) :
    init ++ [x] ++ u < incLast (init ++ [x]) := by
  rw [incLast_append_singleton, if_neg hx, List.append_assoc]
  apply List.append_left_lt
  rw [List.singleton_append, List.cons_lt_cons_iff]
  left
  grind

/-- The borrow loop stays below every extension of `0 :: rev` read backwards, by induction on
the bytes it borrows through. -/
theorem borrowRev_lt (rev : Bytes) (u : Bytes) :
    (borrowRev (0 :: rev)).reverse < (0 :: rev).reverse ++ u := by
  induction rev generalizing u with
  | nil => simp [borrowRev, List.nil_lt_cons]
  | cons x rest ih =>
    by_cases hx : x = 0
    · subst hx
      have h := ih ([0] ++ u)
      simp only [borrowRev, ne_eq, not_true_eq_false, if_false, if_true] at h ⊢
      simpa [List.append_assoc] using h
    · simp only [borrowRev, ne_eq, not_true_eq_false, if_false, if_neg hx, List.reverse_cons,
        List.append_assoc, List.cons_append]
      apply List.append_left_lt
      rw [List.cons_lt_cons_iff]
      left
      grind

theorem decLast_lt (init : Bytes) (x : UInt8) (u : Bytes) :
    decLast (init ++ [x]) < init ++ [x] ++ u := by
  by_cases hx : x = 0
  · subst hx
    have h := borrowRev_lt init.reverse u
    simpa [decLast] using h
  · rw [decLast_append_singleton_of_ne hx, List.append_assoc]
    apply List.append_left_lt
    rw [List.singleton_append, List.cons_lt_cons_iff]
    left
    grind

/-! ### What Parse returns -/

theorem literalPrefix_append (pattern : Bytes) :
    ∃ rest, pattern = literalPrefix pattern ++ rest :=
  ⟨pattern.dropWhile (fun c => !isSpecial c), (List.takeWhile_append_dropWhile).symm⟩

theorem literalPrefix_not_special {pattern : Bytes} {c : UInt8} (hc : c ∈ literalPrefix pattern) :
    isSpecial c = false := by
  have := List.mem_takeWhile_imp hc
  simpa using this

theorem Parse_limits_of_star {pattern : Bytes} (desc : Bool)
    (h : pattern.head? = some (ch '*') ∨ pattern = []) :
    (Parse pattern desc).Limits = ([], []) := by
  rcases h with h | rfl
  · simp [Parse, h]
  · simp [Parse]

theorem Parse_limits_of_special_head {c : UInt8} {p : Bytes} (desc : Bool)
    (hs : isSpecial c = true) (hc : c ≠ ch '*') :
    (Parse (c :: p) desc).Limits = (c :: p, c :: p) := by
  have hn : (List.takeWhile (fun c => !isSpecial c) (c :: p)).length = 0 := by
    simp [hs]
  simp only [Parse, List.head?_cons, Option.some.injEq, hc, if_false, reduceCtorEq, hn]
  simp

theorem Parse_limits_of_literal {pattern : Bytes} (desc : Bool)
    (hne : literalPrefix pattern ≠ []) :
    (Parse pattern desc).Limits =
      if desc then (incLast (literalPrefix pattern), decLast (literalPrefix pattern))
      else (literalPrefix pattern, incLast (literalPrefix pattern)) := by
  obtain ⟨c, p, hcp⟩ := List.exists_cons_of_ne_nil hne
  have hc : isSpecial c = false := literalPrefix_not_special (hcp ▸ List.mem_cons_self)
  obtain ⟨rest, hpat⟩ := literalPrefix_append pattern
  have hhead : pattern.head? = some c := by rw [hpat, hcp]; rfl
  have hstar : c ≠ ch '*' := by
    intro h
    simp [isSpecial, h] at hc
  have hpne : pattern ≠ [] := by
    intro h
    simp [h] at hhead
  have htake : pattern.take (literalPrefix pattern).length = literalPrefix pattern := by
    calc pattern.take (literalPrefix pattern).length
        = (literalPrefix pattern ++ rest).take (literalPrefix pattern).length := by rw [← hpat]
      _ = literalPrefix pattern := by simp
  have hn : (literalPrefix pattern).length ≠ 0 := by simp [hne]
  have h1 : ¬pattern.head? = some (ch '*') := by
    rw [hhead]
    simpa using hstar
  rw [Parse, if_neg h1, if_neg hpne]
  dsimp only
  unfold literalPrefix at htake hn
  rw [if_neg hn, htake]
  cases desc <;> rfl

end Glob
