import Mathlib.Algebra.Order.Field.Rat
import Mathlib.Algebra.Order.Field.Basic
import Mathlib.Data.Nat.Prime.Basic
import Mathlib.Tactic.IntervalCases
import Mathlib.Tactic.Linarith
import Mathlib.Tactic.Ring

/-!
# Decimal text of numbers (`strconv.ParseFloat`, `strconv.FormatFloat`)

Numbers here are exact rationals, so a decimal text names one number and no rounding is
modelled. `ParseFloat` reads Go's decimal syntax: an optional sign, digits with at most one
point and at least one digit, then optionally `e` or `E`, an optional sign and digits. Go's
hexadecimal form, the underscores it allows after a base prefix, and the words `Inf`,
`Infinity` and `NaN` are left out: no rational is infinite or not a number, and the model
refuses them.

`FormatFloat(x, 'f', -1, 64)` writes the fewest digits that read back as `x`. Every `float64`
has a finite decimal, and for a rational with one that is its exact decimal, with the least
number of places (`places`) and no exponent; `ParseFloat` reads it back
(`ParseFloat_FormatFloat`), and so reads back whatever it returned itself
(`ParseFloat_FormatFloat_of_ParseFloat`).
-/

namespace Strconv

/-- A decimal digit. -/
def isDigit (b : UInt8) : Bool := 48 ≤ b && b ≤ 57

/-- Decimal digits read as a natural number. -/
def digitsValue (ds : List UInt8) : Nat := ds.foldl (fun n d => 10 * n + (d - 48).toNat) 0

/-- The decimal digits of `n` before `acc`, with `fuel` digits at most. -/
def natDigitsAux : Nat → Nat → List UInt8 → List UInt8
  | 0, _, acc => acc
  | fuel + 1, n, acc =>
    if n < 10 then (48 + n).toUInt8 :: acc
    else natDigitsAux fuel (n / 10) ((48 + n % 10).toUInt8 :: acc)

/-- The decimal digits of `n`, most significant first; `0` is the digit `0`. -/
def natDigits (n : Nat) : List UInt8 := natDigitsAux (n + 1) n []

/-- A sign, if the text starts with one, and the text after it. -/
def readSign : List UInt8 → Bool × List UInt8
  | 43 :: s => (false, s)
  | 45 :: s => (true, s)
  | s => (false, s)

/-- The exponent after `e` or `E`: an optional sign, then digits. -/
def readExponent (s : List UInt8) : Option Int :=
  let (neg, ds) := readSign s
  if ds ≠ [] ∧ ds.all isDigit then
    some (if neg then -(digitsValue ds : Int) else digitsValue ds)
  else none

/-- The mantissa: digits, then optionally a point and digits, one digit at least. It gives the
digits as one number and how many stood after the point. -/
def readMantissa (s : List UInt8) : Option (Nat × Nat) :=
  let ip := s.takeWhile isDigit
  match s.drop ip.length with
  | [] => if ip = [] then none else some (digitsValue ip, 0)
  | 46 :: fp =>
    if fp.all isDigit ∧ ip ++ fp ≠ [] then some (digitsValue (ip ++ fp), fp.length) else none
  | _ => none

/-- A number without its sign: the mantissa, then the exponent if an `e` or `E` follows. -/
def readUnsigned (s : List UInt8) : Option ℚ :=
  let mant := s.takeWhile fun b => b ≠ 101 ∧ b ≠ 69
  (readMantissa mant).bind fun (m, k) =>
    let e := match s.drop mant.length with
      | [] => some (0 : Int)
      | _ :: es => readExponent es
    e.map fun (e : Int) => m * 10 ^ (e - k)

/-- `strconv.ParseFloat(s, 64)` on decimal text. -/
def ParseFloat (s : List UInt8) : Option ℚ :=
  let (neg, s) := readSign s
  (readUnsigned s).map fun v => if neg then -v else v

/-- The places after the point in the decimal of a fraction with denominator `d`: the least
`k ≤ d` with `d ∣ 10 ^ k`, or `d` if there is none. -/
def places (d : Nat) : Nat := ((List.range (d + 1)).find? fun k => 10 ^ k % d = 0).getD d

/-- The digits `ds` with a point before their last `k`, if `k` is not zero. -/
def withPoint (ds : List UInt8) (k : Nat) : List UInt8 :=
  if k = 0 then ds else ds.take (ds.length - k) ++ 46 :: ds.drop (ds.length - k)

/-- `strconv.FormatFloat(x, 'f', -1, 64)`: the sign, then the digits of the numerator scaled to
`places` of the denominator, with the point before the last `places` of them. -/
def FormatFloat (x : ℚ) : List UInt8 :=
  let k := places x.den
  let ds := natDigits (x.num.natAbs * 10 ^ k / x.den)
  (if x < 0 then [45] else []) ++ withPoint (List.replicate (k + 1 - ds.length) 48 ++ ds) k

example : FormatFloat (-115) = [45, 49, 49, 53] := by decide
example : FormatFloat (1 / 20) = [48, 46, 48, 53] := by with_unfolding_all decide
example : ParseFloat [45, 46, 53, 101, 50] = some (-50) := by with_unfolding_all decide

/-! ### Digits -/

theorem digitsValue_foldl (ds : List UInt8) (n : Nat) :
    ds.foldl (fun n d => 10 * n + (d - 48).toNat) n = n * 10 ^ ds.length + digitsValue ds := by
  induction ds generalizing n with
  | nil => simp [digitsValue]
  | cons d ds ih =>
    have hcons : digitsValue (d :: ds) = (d - 48).toNat * 10 ^ ds.length + digitsValue ds := by
      rw [digitsValue, List.foldl_cons, ih]
      simp
    rw [List.foldl_cons, ih, hcons, List.length_cons, pow_succ]
    ring

theorem digitsValue_append (xs ys : List UInt8) :
    digitsValue (xs ++ ys) = digitsValue xs * 10 ^ ys.length + digitsValue ys := by
  rw [digitsValue, List.foldl_append, digitsValue_foldl]
  rfl

theorem digitsValue_cons (d : UInt8) (ds : List UInt8) :
    digitsValue (d :: ds) = (d - 48).toNat * 10 ^ ds.length + digitsValue ds := by
  rw [← List.singleton_append, digitsValue_append]
  simp [digitsValue]

@[simp] theorem digitsValue_replicate_zero (j : Nat) (ds : List UInt8) :
    digitsValue (List.replicate j 48 ++ ds) = digitsValue ds := by
  induction j with
  | zero => rfl
  | succ j ih =>
    rw [List.replicate_succ, List.cons_append, digitsValue_cons, ih]
    simp

theorem digit_of_lt {n : Nat} (h : n < 10) :
    isDigit (48 + n).toUInt8 ∧ ((48 + n).toUInt8 - 48).toNat = n := by
  interval_cases n <;> decide

theorem natDigitsAux_succ (fuel n : Nat) (acc : List UInt8) :
    natDigitsAux (fuel + 1) n acc =
      if n < 10 then (48 + n).toUInt8 :: acc
      else natDigitsAux fuel (n / 10) ((48 + n % 10).toUInt8 :: acc) := rfl

/-- The facts of a digit list: digits before `acc`, the value of `n` in front of `acc`'s, and
one digit at least. -/
theorem natDigitsAux_spec (fuel n : Nat) (acc : List UInt8) (hn : n < 10 ^ (fuel + 1)) :
    (∀ b ∈ natDigitsAux (fuel + 1) n acc, isDigit b ∨ b ∈ acc) ∧
      digitsValue (natDigitsAux (fuel + 1) n acc) = n * 10 ^ acc.length + digitsValue acc ∧
      acc.length < (natDigitsAux (fuel + 1) n acc).length := by
  induction fuel generalizing n acc with
  | zero =>
    obtain ⟨hd, hv⟩ := digit_of_lt (by simpa using hn)
    rw [natDigitsAux_succ, if_pos (by simpa using hn), digitsValue_cons, hv]
    refine ⟨fun b hb => ?_, rfl, by simp⟩
    rcases List.mem_cons.mp hb with rfl | hb
    · exact .inl hd
    · exact .inr hb
  | succ fuel ih =>
    rw [natDigitsAux_succ]
    split_ifs with h10
    · obtain ⟨hd, hv⟩ := digit_of_lt h10
      rw [digitsValue_cons, hv]
      refine ⟨fun b hb => ?_, rfl, by simp⟩
      rcases List.mem_cons.mp hb with rfl | hb
      · exact .inl hd
      · exact .inr hb
    · obtain ⟨hd, hv⟩ := digit_of_lt (Nat.mod_lt n (by norm_num : 10 > 0))
      have hlt : n / 10 < 10 ^ (fuel + 1) := by
        rw [pow_succ] at hn
        omega
      obtain ⟨ih₁, ih₂, ih₃⟩ := ih (n / 10) ((48 + n % 10).toUInt8 :: acc) hlt
      rw [List.length_cons] at ih₃
      refine ⟨fun b hb => ?_, ?_, by omega⟩
      · rcases ih₁ b hb with h | h
        · exact .inl h
        · rcases List.mem_cons.mp h with rfl | h
          · exact .inl hd
          · exact .inr h
      · rw [ih₂, digitsValue_cons, hv, List.length_cons, pow_succ]
        conv_rhs => rw [← Nat.div_add_mod n 10]
        ring

theorem natDigits_spec (n : Nat) :
    (∀ b ∈ natDigits n, isDigit b) ∧ digitsValue (natDigits n) = n ∧ natDigits n ≠ [] := by
  have hn : n < 10 ^ (n + 1) :=
    lt_of_lt_of_le (Nat.lt_pow_self (by norm_num)) (Nat.pow_le_pow_right (by norm_num) n.le_succ)
  obtain ⟨h₁, h₂, h₃⟩ := natDigitsAux_spec n n [] hn
  rw [show natDigits n = natDigitsAux (n + 1) n [] from rfl]
  refine ⟨fun b hb => (h₁ b hb).resolve_right (by simp), by simpa [digitsValue] using h₂, ?_⟩
  intro h
  rw [h] at h₃
  simp at h₃

/-! ### Reading back -/

theorem isDigit_ne {b : UInt8} (h : isDigit b) : b ≠ 43 ∧ b ≠ 45 ∧ b ≠ 46 ∧ b ≠ 101 ∧ b ≠ 69 := by
  simp only [isDigit, Bool.and_eq_true, decide_eq_true_eq] at h
  refine ⟨?_, ?_, ?_, ?_, ?_⟩ <;> rintro rfl <;> simp at h

theorem readSign_of_digit {b : UInt8} (h : isDigit b) (s : List UInt8) :
    readSign (b :: s) = (false, b :: s) := by
  obtain ⟨h₁, h₂, -⟩ := isDigit_ne h
  unfold readSign
  split <;> simp_all

theorem takeWhile_of_all {p : UInt8 → Bool} {l : List UInt8} (h : ∀ b ∈ l, p b) :
    l.takeWhile p = l := by
  simpa using @List.takeWhile_append_of_pos _ _ l [] h

theorem readMantissa_digits {ds : List UInt8} (hd : ∀ b ∈ ds, isDigit b) (hne : ds ≠ []) :
    readMantissa ds = some (digitsValue ds, 0) := by
  simp [readMantissa, takeWhile_of_all hd, hne]

theorem readMantissa_point {ip fp : List UInt8} (hip : ∀ b ∈ ip, isDigit b)
    (hfp : ∀ b ∈ fp, isDigit b) (hne : ip ≠ []) :
    readMantissa (ip ++ 46 :: fp) = some (digitsValue (ip ++ fp), fp.length) := by
  have ht : (ip ++ 46 :: fp).takeWhile isDigit = ip := by
    rw [List.takeWhile_append_of_pos hip, List.takeWhile_cons_of_neg (by decide),
      List.append_nil]
  simp [readMantissa, ht, List.all_eq_true.mpr hfp, hne]

theorem readUnsigned_of_mantissa {s : List UInt8} (hs : ∀ b ∈ s, b ≠ 101 ∧ b ≠ 69) {m k : Nat}
    (hm : readMantissa s = some (m, k)) : readUnsigned s = some ((m : ℚ) / 10 ^ k) := by
  have ht : s.takeWhile (fun b => decide (b ≠ 101 ∧ b ≠ 69)) = s :=
    takeWhile_of_all fun b hb => by simpa using hs b hb
  unfold readUnsigned
  rw [ht]
  dsimp only
  rw [hm]
  simp [zpow_neg, div_eq_mul_inv]

theorem readUnsigned_withPoint {ds : List UInt8} (hd : ∀ b ∈ ds, isDigit b) {k : Nat}
    (hk : k < ds.length) :
    readUnsigned (withPoint ds k) = some ((digitsValue ds : ℚ) / 10 ^ k) := by
  have hne : ds ≠ [] := List.ne_nil_of_length_pos (by omega)
  unfold withPoint
  split_ifs with h0
  · subst h0
    have := readUnsigned_of_mantissa (fun b hb => ⟨(isDigit_ne (hd b hb)).2.2.2.1,
      (isDigit_ne (hd b hb)).2.2.2.2⟩) (readMantissa_digits hd hne)
    simpa using this
  · have hip : ∀ b ∈ ds.take (ds.length - k), isDigit b := fun b hb => hd b (List.mem_of_mem_take hb)
    have hfp : ∀ b ∈ ds.drop (ds.length - k), isDigit b := fun b hb => hd b (List.mem_of_mem_drop hb)
    have hne' : ds.take (ds.length - k) ≠ [] :=
      List.ne_nil_of_length_pos (by rw [List.length_take]; omega)
    have hm := readMantissa_point hip hfp hne'
    rw [List.take_append_drop, List.length_drop, Nat.sub_sub_self hk.le] at hm
    refine readUnsigned_of_mantissa (fun b hb => ?_) hm
    rcases List.mem_append.mp hb with hb | hb
    · exact ⟨(isDigit_ne (hip b hb)).2.2.2.1, (isDigit_ne (hip b hb)).2.2.2.2⟩
    · rcases List.mem_cons.mp hb with rfl | hb
      · decide
      · exact ⟨(isDigit_ne (hfp b hb)).2.2.2.1, (isDigit_ne (hfp b hb)).2.2.2.2⟩

theorem ne_nil_of_ParseFloat {s : List UInt8} {x : ℚ} (h : ParseFloat s = some x) : s ≠ [] := by
  rintro rfl
  cases h

theorem ParseFloat_minus (s : List UInt8) : ParseFloat (45 :: s) = (readUnsigned s).map (- ·) := by
  simp [ParseFloat, readSign]

theorem ParseFloat_of_readSign {s : List UInt8} (h : readSign s = (false, s)) :
    ParseFloat s = readUnsigned s := by
  simp [ParseFloat, h]

/-! ### The places of a decimal -/

theorem dvd_pow_self_of_dvd_pow {d j : Nat} (h : d ∣ 10 ^ j) : d ∣ 10 ^ d := by
  rw [show (10 : Nat) ^ j = 2 ^ j * 5 ^ j by rw [← mul_pow]; norm_num] at h
  obtain ⟨y, z, hy, hz, rfl⟩ := Nat.dvd_mul.mp h
  obtain ⟨a, -, rfl⟩ := (Nat.dvd_prime_pow Nat.prime_two).mp hy
  obtain ⟨b, -, rfl⟩ := (Nat.dvd_prime_pow Nat.prime_five).mp hz
  have ha : a ≤ 2 ^ a * 5 ^ b :=
    (Nat.lt_two_pow_self).le.trans (Nat.le_mul_of_pos_right _ (by positivity))
  have hb : b ≤ 2 ^ a * 5 ^ b :=
    (Nat.lt_pow_self (by norm_num)).le.trans (Nat.le_mul_of_pos_left _ (by positivity))
  rw [show (10 : Nat) ^ (2 ^ a * 5 ^ b) = 2 ^ (2 ^ a * 5 ^ b) * 5 ^ (2 ^ a * 5 ^ b) by
    rw [← mul_pow]; norm_num]
  exact mul_dvd_mul (pow_dvd_pow 2 ha) (pow_dvd_pow 5 hb)

theorem dvd_pow_places {d : Nat} (h : ∃ j, d ∣ 10 ^ j) : d ∣ 10 ^ places d := by
  obtain ⟨j, hj⟩ := h
  have hsome : ((List.range (d + 1)).find? fun k => 10 ^ k % d = 0).isSome := by
    rw [List.find?_isSome]
    exact ⟨d, List.mem_range.mpr (by omega),
      by simpa using Nat.mod_eq_zero_of_dvd (dvd_pow_self_of_dvd_pow hj)⟩
  obtain ⟨k, hk⟩ := Option.isSome_iff_exists.mp hsome
  have hp := List.find?_some hk
  unfold places
  rw [hk]
  simpa [Nat.dvd_iff_mod_eq_zero] using hp

theorem readSign_withPoint {ds : List UInt8} (hd : ∀ b ∈ ds, isDigit b) {k : Nat}
    (hk : k < ds.length) : readSign (withPoint ds k) = (false, withPoint ds k) := by
  obtain ⟨b, rest, rfl⟩ :=
    List.exists_cons_of_ne_nil (show ds ≠ [] from List.ne_nil_of_length_pos (by omega))
  have hb : isDigit b := hd b List.mem_cons_self
  unfold withPoint
  split_ifs with h0
  · exact readSign_of_digit hb rest
  · have : (b :: rest).length - k = ((b :: rest).length - k - 1) + 1 := by
      simp at hk ⊢; omega
    rw [this, List.take_succ_cons, List.cons_append]
    exact readSign_of_digit hb _

/-- The decimal `FormatFloat` writes of a number with a finite decimal reads back as it. -/
theorem ParseFloat_FormatFloat (x : ℚ) (hx : ∃ j, x.den ∣ 10 ^ j) :
    ParseFloat (FormatFloat x) = some x := by
  have hk := dvd_pow_places hx
  set k := places x.den
  set m := x.num.natAbs * 10 ^ k / x.den
  have hmul : m * x.den = x.num.natAbs * 10 ^ k :=
    Nat.div_mul_cancel (Dvd.dvd.mul_left hk _)
  have hm : (m : ℚ) / 10 ^ k = |x| := by
    conv_rhs => rw [← Rat.num_div_den x]
    rw [abs_div, ← Int.cast_abs, ← Nat.cast_natAbs, Nat.abs_cast,
      div_eq_div_iff (by positivity) (by positivity)]
    exact_mod_cast hmul
  obtain ⟨hd, hv, -⟩ := natDigits_spec m
  set ds := List.replicate (k + 1 - (natDigits m).length) 48 ++ natDigits m
  have hds : ∀ b ∈ ds, isDigit b := by
    intro b hb
    rcases List.mem_append.mp hb with hb | hb
    · rw [List.eq_of_mem_replicate hb]; decide
    · exact hd b hb
  have hlen : k < ds.length := by simp [ds]; omega
  have hread : readUnsigned (withPoint ds k) = some |x| := by
    rw [readUnsigned_withPoint hds hlen, digitsValue_replicate_zero, hv, hm]
  unfold FormatFloat
  split_ifs with hneg
  · rw [List.singleton_append, ParseFloat_minus, hread, abs_of_neg hneg]
    simp
  · rw [List.nil_append, ParseFloat_of_readSign (readSign_withPoint hds hlen), hread,
      abs_of_nonneg (not_lt.mp hneg)]

theorem den_dvd_of_zpow (m : Nat) (z : Int) : ∃ j, ((m : ℚ) * 10 ^ z).den ∣ 10 ^ j := by
  rcases Int.eq_nat_or_neg z with ⟨n, rfl | rfl⟩
  · refine ⟨0, ?_⟩
    have : (m : ℚ) * 10 ^ (n : Int) = ((m * 10 ^ n : Nat) : ℚ) := by
      rw [zpow_natCast]
      push_cast
      rfl
    rw [this, Rat.den_natCast]
    exact one_dvd _
  · refine ⟨n, ?_⟩
    have : (m : ℚ) * 10 ^ (-(n : Int)) = Rat.divInt m ((10 ^ n : Nat) : Int) := by
      rw [Rat.divInt_eq_div, zpow_neg, zpow_natCast, div_eq_mul_inv]
      push_cast
      rfl
    rw [this]
    exact Int.natCast_dvd_natCast.mp (Rat.den_dvd _ _)

/-- What `ParseFloat` reads, `FormatFloat` writes so that it reads back. -/
theorem ParseFloat_FormatFloat_of_ParseFloat {s : List UInt8} {x : ℚ}
    (h : ParseFloat s = some x) : ParseFloat (FormatFloat x) = some x := by
  refine ParseFloat_FormatFloat x ?_
  obtain ⟨v, hv, rfl⟩ := Option.map_eq_some_iff.mp h
  have hden : ∃ j, v.den ∣ 10 ^ j := by
    unfold readUnsigned at hv
    obtain ⟨⟨m, k⟩, -, hv⟩ := Option.bind_eq_some_iff.mp hv
    obtain ⟨e, -, rfl⟩ := Option.map_eq_some_iff.mp hv
    exact den_dvd_of_zpow m (e - k)
  split_ifs
  · rwa [Rat.neg_den]
  · exact hden

end Strconv
