import Tile38.Lib.Strings
import Tile38.Glob.Match
import Mathlib.Algebra.Order.Ring.Star
import Mathlib.Data.Bool.AllAny
import Mathlib.Data.Int.ConditionallyCompleteOrder
import Mathlib.Data.Int.Star
import Mathlib.Data.Nat.SuccPred
import Mathlib.Data.Rat.Star
import Mathlib.Tactic.Linarith
import Mathlib.Tactic.NormNum
import Mathlib.Tactic.Ring

/-!
# Geohashes (pkg/geojson/geohash)

A geohash names a cell of the world by bisections, alternately of longitude and latitude, five
to a character of the base-32 alphabet. `Encode` bisects the world towards a point, keeping the
upper half when the point lies strictly above the middle, and writes each five choices as a
character; `Bounds` repeats the bisections a geohash names, and `Decode` returns the centre of
the cell. Coordinates are read exactly over an ordered field.

The loop of `Encode` counts rounds in `bit` and writes a character at every fifth; it is read
here one character at a time (`encodeRounds`, five rounds from `idx = 0`), as `Bounds` reads
it. Both share one bisection (`halve`), so a geohash names the list of its choices
(`descend`): the cell `Encode` writes is the cell `Bounds` reads (`boundsChars_encodeChars`),
and a point strictly inside a cell makes the choices that name it (`pick_of_inside`), which is
why the centre of a geohash's cell encodes back to the geohash.
-/

namespace Geohash

open Glob Strings

universe u
variable {α : Type u}

/-- The numerals of the cells, two and the longitude's bound. As instances, they make each
numeral of a definition below refer to one fact instead of to an auxiliary lemma of its own. -/
theorem two_atLeastTwo : Nat.AtLeastTwo 2 := ⟨Nat.le_refl 2⟩

theorem atLeastTwo_180 : Nat.AtLeastTwo 180 := ⟨by decide⟩

attribute [local instance] two_atLeastTwo atLeastTwo_180

/-- A cell: `latMin, latMax, lonMin, lonMax`, the variables of both loops, and the
`swLat, swLon, neLat, neLon` that `Bounds` returns. -/
structure Cell (α : Type u) where
  latMin : α
  latMax : α
  lonMin : α
  lonMax : α
  deriving DecidableEq, Repr

/-- The errors of the package. -/
inductive GeohashError where
  | invalidPrecision
  | encodingError
  | invalidGeohash
  deriving DecidableEq, Repr

/-- The alphabet of `base32F` and `base32R`, in the order of their cases. -/
def base32 : List UInt8 := ascii "0123456789bcdefghjkmnpqrstuvwxyz"

/-- `base32R(b)`: the value of a digit, `-1` for any other byte. -/
def base32R (b : UInt8) : Int :=
  match base32.idxOf? b with
  | some i => i
  | none => -1

/-- `base32F(i)`: the digit of a value, `'?'` for any other. -/
def base32F (i : Int) : UInt8 :=
  if 0 ≤ i then base32.getD i.toNat (ch '?') else ch '?'

section Field

variable [Field α] [LinearOrder α]

/-- The world: latitudes `[-90, 90]`, longitudes `[-180, 180]`. -/
def world : Cell α := ⟨-90, 90, -180, 180⟩

/-- One bisection, of longitude on an even round and of latitude on an odd one: the upper
half for a set bit, the lower half otherwise. -/
def halve (evenBit bit : Bool) (c : Cell α) : Cell α :=
  if evenBit then
    let lonMid := (c.lonMin + c.lonMax) / 2
    if bit then { c with lonMin := lonMid } else { c with lonMax := lonMid }
  else
    let latMid := (c.latMin + c.latMax) / 2
    if bit then { c with latMin := latMid } else { c with latMax := latMid }

/-- The choice of a round of `Encode`: whether the point lies above the middle. -/
def above (lat lon : α) (evenBit : Bool) (c : Cell α) : Bool :=
  if evenBit then decide (lon > (c.lonMin + c.lonMax) / 2)
  else decide (lat > (c.latMin + c.latMax) / 2)

/-- The rounds of `Encode` for one character: `idx = idx*2 + 1` and the upper half, or
`idx = idx*2` and the lower half. -/
def encodeRounds (lat lon : α) : Nat → Bool → Cell α → Nat → Nat × Bool × Cell α
  | 0, evenBit, c, idx => (idx, evenBit, c)
  | k + 1, evenBit, c, idx =>
    let b := above lat lon evenBit c
    encodeRounds lat lon k (!evenBit) (halve evenBit b c) (idx * 2 + if b then 1 else 0)

/-- The characters of `Encode`, each from five rounds. -/
def encodeChars (lat lon : α) : Nat → Bool → Cell α → Except GeohashError (List UInt8)
  | 0, _, _ => .ok []
  | p + 1, evenBit, c =>
    let (idx, evenBit', c') := encodeRounds lat lon 5 evenBit c 0
    if base32F idx = ch '?' then .error .encodingError
    else (base32F idx :: ·) <$> encodeChars lat lon p evenBit' c'

def Encode (lat lon : α) (precision : Int) : Except GeohashError (List UInt8) :=
  if precision < 1 then .error .invalidPrecision
  else encodeChars lat lon precision.toNat true world

/-- The rounds of `Bounds` for one character, `n` from `k - 1` down to `0`:
`bitN = idx >> n & 1`. -/
def boundsRounds (idx : Nat) : Nat → Bool → Cell α → Bool × Cell α
  | 0, evenBit, c => (evenBit, c)
  | k + 1, evenBit, c => boundsRounds idx k (!evenBit) (halve evenBit (idx >>> k &&& 1 = 1) c)

/-- The loop of `Bounds` over the characters. -/
def boundsChars : List UInt8 → Bool → Cell α → Except GeohashError (Cell α)
  | [], _, c => .ok c
  | chr :: s, evenBit, c =>
    if base32R chr = -1 then .error .invalidGeohash
    else
      let (evenBit', c') := boundsRounds (base32R chr).toNat 5 evenBit c
      boundsChars s evenBit' c'

def Bounds (geohash : List UInt8) : Except GeohashError (Cell α) :=
  boundsChars (ToLower geohash) true world

/-- `Decode(geohash)`: the centre of the cell, latitude first. -/
def Decode (geohash : List UInt8) : Except GeohashError (α × α) :=
  (Bounds geohash).map fun c => ((c.latMax - c.latMin) / 2 + c.latMin, (c.lonMax - c.lonMin) / 2 + c.lonMin)

end Field

/-! ### Choices as bits -/

/-- The `idx` that rounds build from their choices, starting from `a`. -/
def ofBitsFrom (a : Nat) (bs : List Bool) : Nat :=
  bs.foldl (fun idx b => idx * 2 + if b then 1 else 0) a

/-- The choices `Bounds` reads from `idx` in `k` rounds: `idx >> n & 1` for `n` from `k - 1`
down to `0`. -/
def bitsOf (idx : Nat) : Nat → List Bool
  | 0 => []
  | k + 1 => (idx >>> k &&& 1 = 1) :: bitsOf idx k

theorem ofBitsFrom_cons (a : Nat) (b : Bool) (bs : List Bool) :
    ofBitsFrom a (b :: bs) = ofBitsFrom (a * 2 + if b then 1 else 0) bs := rfl

theorem length_bitsOf (idx k : Nat) : (bitsOf idx k).length = k := by
  induction k with
  | zero => rfl
  | succ k ih => simp [bitsOf, ih]

theorem ofBitsFrom_eq (a : Nat) (bs : List Bool) :
    ofBitsFrom a bs = a * 2 ^ bs.length + ofBitsFrom 0 bs := by
  induction bs generalizing a with
  | nil => simp [ofBitsFrom]
  | cons b bs ih =>
    rw [ofBitsFrom_cons, ofBitsFrom_cons, ih, ih (0 * 2 + _), List.length_cons, Nat.pow_succ]
    cases b <;> simp only [Bool.false_eq_true, if_false, if_true] <;> ring

theorem ofBitsFrom_zero_lt (bs : List Bool) : ofBitsFrom 0 bs < 2 ^ bs.length := by
  induction bs with
  | nil => simp [ofBitsFrom]
  | cons b bs ih =>
    rw [ofBitsFrom_cons, ofBitsFrom_eq, List.length_cons, Nat.pow_succ]
    cases b <;> simp only [Bool.false_eq_true, if_false, if_true] <;> omega

theorem shiftRight_ofBitsFrom (a : Nat) (bs : List Bool) : ofBitsFrom a bs >>> bs.length = a := by
  rw [Nat.shiftRight_eq_div_pow, ofBitsFrom_eq, Nat.mul_comm,
    Nat.mul_add_div (Nat.two_pow_pos _), Nat.div_eq_of_lt (ofBitsFrom_zero_lt bs), Nat.add_zero]

theorem bitsOf_ofBitsFrom (a : Nat) (bs : List Bool) : bitsOf (ofBitsFrom a bs) bs.length = bs := by
  induction bs generalizing a with
  | nil => rfl
  | cons b bs ih =>
    rw [List.length_cons, bitsOf, ofBitsFrom_cons, shiftRight_ofBitsFrom, ih, Nat.and_one_is_mod]
    cases b <;> simp

theorem ofBitsFrom_bitsOf (a idx k : Nat) :
    ofBitsFrom a (bitsOf idx k) = a * 2 ^ k + idx % 2 ^ k := by
  induction k generalizing a with
  | zero => simp [bitsOf, ofBitsFrom, Nat.mod_one]
  | succ k ih =>
    rw [bitsOf, ofBitsFrom_cons, ih, Nat.mod_pow_succ, Nat.and_one_is_mod, Nat.shiftRight_eq_div_pow,
      Nat.pow_succ]
    have hbit : idx / 2 ^ k % 2 < 2 := Nat.mod_lt _ (by decide)
    by_cases h : idx / 2 ^ k % 2 = 1
    · simp only [h, decide_true, if_true]
      ring
    · have h0 : idx / 2 ^ k % 2 = 0 := by omega
      simp only [h0, Nat.zero_ne_one, decide_false, Bool.false_eq_true, if_false]
      ring

/-! ### Cells named by choices -/

section Order

variable [LinearOrder α]

/-- The point lies in the closed cell. -/
def Cell.Mem (c : Cell α) (lat lon : α) : Prop :=
  c.latMin ≤ lat ∧ lat ≤ c.latMax ∧ c.lonMin ≤ lon ∧ lon ≤ c.lonMax

/-- The point lies strictly inside the cell. -/
def Cell.Inside (c : Cell α) (lat lon : α) : Prop :=
  c.latMin < lat ∧ lat < c.latMax ∧ c.lonMin < lon ∧ lon < c.lonMax

/-- A cell of some size on both axes. -/
def Cell.Wide (c : Cell α) : Prop := c.latMin < c.latMax ∧ c.lonMin < c.lonMax

/-- The first cell within the second. -/
def Cell.Sub (c' c : Cell α) : Prop :=
  c.latMin ≤ c'.latMin ∧ c'.latMax ≤ c.latMax ∧ c.lonMin ≤ c'.lonMin ∧ c'.lonMax ≤ c.lonMax

variable {c c' : Cell α} {lat lon : α}

theorem Cell.Sub.trans {c'' : Cell α} (h : c''.Sub c') (h' : c'.Sub c) : c''.Sub c :=
  ⟨h'.1.trans h.1, h.2.1.trans h'.2.1, h'.2.2.1.trans h.2.2.1, h.2.2.2.trans h'.2.2.2⟩

theorem Cell.Inside.of_sub (h : c'.Inside lat lon) (hs : c'.Sub c) : c.Inside lat lon :=
  ⟨lt_of_le_of_lt hs.1 h.1, lt_of_lt_of_le h.2.1 hs.2.1, lt_of_le_of_lt hs.2.2.1 h.2.2.1,
    lt_of_lt_of_le h.2.2.2 hs.2.2.2⟩

end Order

section Cells

variable [Field α] [LinearOrder α]

/-- The cell of a list of choices, each round on the other axis. -/
def descend : List Bool → Bool → Cell α → Cell α
  | [], _, c => c
  | b :: bs, evenBit, c => descend bs (!evenBit) (halve evenBit b c)

/-- The choices of `k` rounds of `Encode`. -/
def pick (lat lon : α) : Nat → Bool → Cell α → List Bool
  | 0, _, _ => []
  | k + 1, evenBit, c =>
    above lat lon evenBit c :: pick lat lon k (!evenBit) (halve evenBit (above lat lon evenBit c) c)

/-- The axis after `k` rounds. -/
def flips : Nat → Bool → Bool
  | 0, evenBit => evenBit
  | k + 1, evenBit => flips k (!evenBit)

variable {lat lon : α}

theorem length_pick (k : Nat) (evenBit : Bool) (c : Cell α) :
    (pick lat lon k evenBit c).length = k := by
  induction k generalizing evenBit c with
  | zero => rfl
  | succ k ih => simp [pick, ih]

omit [LinearOrder α] in
theorem descend_append (bs bs' : List Bool) (evenBit : Bool) (c : Cell α) :
    descend (bs ++ bs') evenBit c = descend bs' (flips bs.length evenBit) (descend bs evenBit c) := by
  induction bs generalizing evenBit c with
  | nil => rfl
  | cons b bs ih => simp [descend, flips, ih]

theorem encodeRounds_eq (k : Nat) (evenBit : Bool) (c : Cell α) (idx : Nat) :
    encodeRounds lat lon k evenBit c idx =
      (ofBitsFrom idx (pick lat lon k evenBit c), flips k evenBit,
        descend (pick lat lon k evenBit c) evenBit c) := by
  induction k generalizing evenBit c idx with
  | zero => rfl
  | succ k ih => rw [encodeRounds, ih]; rfl

omit [LinearOrder α] in
theorem boundsRounds_eq (idx k : Nat) (evenBit : Bool) (c : Cell α) :
    boundsRounds idx k evenBit c = (flips k evenBit, descend (bitsOf idx k) evenBit c) := by
  induction k generalizing evenBit c with
  | zero => rfl
  | succ k ih => rw [boundsRounds, ih]; rfl

variable {c c' : Cell α}

theorem Cell.Mem.halve_above (h : c.Mem lat lon) (evenBit : Bool) :
    (halve evenBit (above lat lon evenBit c) c).Mem lat lon := by
  obtain ⟨h1, h2, h3, h4⟩ := h
  cases evenBit
  · by_cases hup : lat > (c.latMin + c.latMax) / 2
    · simp only [halve, above, hup, decide_true, if_true, Bool.false_eq_true, if_false]
      exact ⟨le_of_lt hup, h2, h3, h4⟩
    · simp only [halve, above, hup, decide_false, Bool.false_eq_true, if_false]
      exact ⟨h1, le_of_not_gt hup, h3, h4⟩
  · by_cases hup : lon > (c.lonMin + c.lonMax) / 2
    · simp only [halve, above, hup, decide_true, if_true]
      exact ⟨h1, h2, le_of_lt hup, h4⟩
    · simp only [halve, above, hup, decide_false, Bool.false_eq_true, if_false, if_true]
      exact ⟨h1, h2, h3, le_of_not_gt hup⟩

theorem Cell.Mem.descend_pick (h : c.Mem lat lon) (k : Nat) (evenBit : Bool) :
    (descend (pick lat lon k evenBit c) evenBit c).Mem lat lon := by
  induction k generalizing evenBit c with
  | zero => exact h
  | succ k ih => exact ih (h.halve_above evenBit) (!evenBit)

section Strict

variable [IsStrictOrderedRing α]

theorem Cell.Wide.halve (h : c.Wide) (evenBit bit : Bool) : (halve evenBit bit c).Wide := by
  obtain ⟨h1, h2⟩ := h
  cases evenBit <;> cases bit <;> simp only [Geohash.halve, Bool.false_eq_true, if_false, if_true] <;>
    refine ⟨?_, ?_⟩ <;> dsimp only <;> linarith

theorem Cell.Wide.descend (h : c.Wide) (bs : List Bool) (evenBit : Bool) :
    (Geohash.descend bs evenBit c).Wide := by
  induction bs generalizing evenBit c with
  | nil => exact h
  | cons b bs ih => exact ih (h.halve evenBit b) (!evenBit)

theorem Cell.Wide.halve_sub (h : c.Wide) (evenBit bit : Bool) :
    (Geohash.halve evenBit bit c).Sub c := by
  obtain ⟨h1, h2⟩ := h
  cases evenBit <;> cases bit <;> simp only [Geohash.halve, Bool.false_eq_true, if_false, if_true] <;>
    refine ⟨?_, ?_, ?_, ?_⟩ <;> dsimp only <;> linarith

theorem Cell.Wide.descend_sub (h : c.Wide) (bs : List Bool) (evenBit : Bool) :
    (Geohash.descend bs evenBit c).Sub c := by
  induction bs generalizing evenBit c with
  | nil => exact ⟨le_refl _, le_refl _, le_refl _, le_refl _⟩
  | cons b bs ih => exact (ih (h.halve evenBit b) (!evenBit)).trans (h.halve_sub evenBit b)

/-- A point strictly inside the cell of some choices makes those choices: in each round it lies
strictly on the side of the middle that the choice keeps. -/
theorem pick_of_inside (hw : c.Wide) {bs : List Bool} {evenBit : Bool}
    (h : (descend bs evenBit c).Inside lat lon) : pick lat lon bs.length evenBit c = bs := by
  induction bs generalizing evenBit c with
  | nil => rfl
  | cons b bs ih =>
    have hhalf : (halve evenBit b c).Inside lat lon :=
      h.of_sub ((hw.halve evenBit b).descend_sub bs (!evenBit))
    have habove : above lat lon evenBit c = b := by
      obtain ⟨h1, h2, h3, h4⟩ := hhalf
      cases evenBit <;> cases b <;>
        simp only [halve, above, Bool.false_eq_true, if_false, if_true] at h1 h2 h3 h4 ⊢ <;>
        simp only [decide_eq_true_eq, decide_eq_false_iff_not, not_lt] <;> linarith
    rw [List.length_cons, pick, habove, ih (hw.halve evenBit b) h]

theorem Cell.Wide.centre_inside (h : c.Wide) :
    c.Inside ((c.latMax - c.latMin) / 2 + c.latMin) ((c.lonMax - c.lonMin) / 2 + c.lonMin) := by
  obtain ⟨h1, h2⟩ := h
  refine ⟨?_, ?_, ?_, ?_⟩ <;> linarith

end Strict

end Cells

/-! ### The alphabet -/

theorem base32F_base32R_of_lt : ∀ i : Fin 32,
    base32F (i : Nat) ∈ base32 ∧ base32R (base32F (i : Nat)) = (i : Nat) := by
  decide

-- The checks over the alphabet go through `List.all`: `decide` on a bounded `∀` over `UInt8`
-- may take the instance that runs through all 256 bytes.
theorem base32F_base32R : ∀ chr ∈ base32, base32F (base32R chr) = chr :=
  List.all_iff_forall_prop.mp (by decide)

theorem base32R_of_mem : ∀ chr ∈ base32, 0 ≤ base32R chr ∧ base32R chr < 32 :=
  List.all_iff_forall_prop.mp (by decide)

theorem ToLower_of_base32 {s : List UInt8} (hs : ∀ chr ∈ s, chr ∈ base32) : ToLower s = s := by
  have hlow : ∀ chr ∈ base32, ¬(65 ≤ chr ∧ chr ≤ 90) := List.all_iff_forall_prop.mp (by decide)
  exact ToLower_of_not_upper fun b hb => hlow b (hs b hb)

/-! ### Encoding and reading back -/

section Strings

variable [Field α] [LinearOrder α]

/-- The choices of a geohash: five to a character. -/
def charBits (s : List UInt8) : List Bool :=
  s.flatMap fun chr => bitsOf (base32R chr).toNat 5

omit [LinearOrder α] in
theorem boundsChars_eq {s : List UInt8} (hs : ∀ chr ∈ s, chr ∈ base32) (evenBit : Bool)
    (c : Cell α) : boundsChars s evenBit c = .ok (descend (charBits s) evenBit c) := by
  induction s generalizing evenBit c with
  | nil => rfl
  | cons chr s ih =>
    have hR := base32R_of_mem chr (hs chr (by simp))
    rw [boundsChars, if_neg (by omega), boundsRounds_eq]
    simp only [charBits, List.flatMap_cons]
    rw [descend_append, length_bitsOf, ih fun d hd => hs d (by simp [hd])]
    rfl

/-- What `Encode` writes, `Bounds` reads back as the cell `Encode` ended in, which holds the
point whenever the first cell does. -/
theorem boundsChars_encodeChars (lat lon : α) (p : Nat) (evenBit : Bool) (c : Cell α) :
    ∃ h c', encodeChars lat lon p evenBit c = .ok h ∧ (∀ chr ∈ h, chr ∈ base32) ∧
      boundsChars h evenBit c = .ok c' ∧ (c.Mem lat lon → c'.Mem lat lon) := by
  induction p generalizing evenBit c with
  | zero => exact ⟨[], c, rfl, by simp, rfl, id⟩
  | succ p ih =>
    have hlen : (pick lat lon 5 evenBit c).length = 5 := length_pick 5 evenBit c
    have hidx : ofBitsFrom 0 (pick lat lon 5 evenBit c) < 32 := hlen ▸ ofBitsFrom_zero_lt _
    obtain ⟨hmem, hR⟩ := base32F_base32R_of_lt ⟨_, hidx⟩
    have hq : base32F (ofBitsFrom 0 (pick lat lon 5 evenBit c) : Int) ≠ ch '?' :=
      fun h => absurd (h ▸ hmem) (by decide)
    obtain ⟨h, c', henc, hall, hbounds, hm⟩ :=
      ih (flips 5 evenBit) (descend (pick lat lon 5 evenBit c) evenBit c)
    refine ⟨base32F (ofBitsFrom 0 (pick lat lon 5 evenBit c) : Int) :: h, c', ?_, ?_, ?_, ?_⟩
    · simp only [encodeChars, encodeRounds_eq, if_neg hq, henc]
      rfl
    · intro chr hchr
      rcases List.mem_cons.mp hchr with rfl | hchr
      · exact hmem
      · exact hall chr hchr
    · have hbits : bitsOf (ofBitsFrom 0 (pick lat lon 5 evenBit c)) 5 = pick lat lon 5 evenBit c := by
        have := bitsOf_ofBitsFrom 0 (pick lat lon 5 evenBit c)
        rwa [hlen] at this
      simp only at hR
      rw [boundsChars, hR, if_neg (by omega), Int.toNat_natCast, boundsRounds_eq, hbits]
      exact hbounds
    · exact fun hc => hm (hc.descend_pick 5 evenBit)

variable [IsStrictOrderedRing α] {lat lon : α}

/-- The centre of the cell of a geohash encodes back to the geohash: a point strictly inside the
cell makes, character after character, the choices that name it. -/
theorem encodeChars_of_inside {s : List UInt8} (hs : ∀ chr ∈ s, chr ∈ base32) {evenBit : Bool}
    {c : Cell α} (hw : c.Wide) (hin : (descend (charBits s) evenBit c).Inside lat lon) :
    encodeChars lat lon s.length evenBit c = .ok s := by
  induction s generalizing evenBit c with
  | nil => rfl
  | cons chr s ih =>
    have hR := base32R_of_mem chr (hs chr (by simp))
    have hlen : (bitsOf (base32R chr).toNat 5).length = 5 := length_bitsOf _ _
    have hsplit : descend (charBits (chr :: s)) evenBit c =
        descend (charBits s) (flips 5 evenBit) (descend (bitsOf (base32R chr).toNat 5) evenBit c) := by
      simp only [charBits, List.flatMap_cons]
      rw [descend_append, hlen]
    rw [hsplit] at hin
    -- the point lies strictly inside the cell of this character's choices
    have hfirst : (descend (bitsOf (base32R chr).toNat 5) evenBit c).Inside lat lon :=
      hin.of_sub ((hw.descend _ evenBit).descend_sub (charBits s) (flips 5 evenBit))
    have hpick : pick lat lon 5 evenBit c = bitsOf (base32R chr).toNat 5 :=
      hlen ▸ pick_of_inside hw hfirst
    have hidx : (ofBitsFrom 0 (bitsOf (base32R chr).toNat 5) : Int) = base32R chr := by
      rw [ofBitsFrom_bitsOf, Nat.zero_mul, Nat.zero_add, Nat.mod_eq_of_lt (by omega)]
      omega
    have hF : base32F (base32R chr) = chr := base32F_base32R chr (hs chr (by simp))
    have hq : chr ≠ ch '?' := fun h => absurd (h ▸ hs chr (by simp)) (by decide)
    simp only [List.length_cons, encodeChars, encodeRounds_eq, hpick, hidx, hF, if_neg hq,
      ih (fun d hd => hs d (by simp [hd])) (hw.descend _ evenBit) hin]
    rfl

/-- `Bounds` of what `Encode` writes holds the point, and the centre of the cell of a geohash
encodes back to the geohash in lower case, at its length; the empty geohash has no precision. -/
theorem geohash_round_trips :
    (∀ (lat lon : α) (precision : Int), -90 ≤ lat → lat ≤ 90 → -180 ≤ lon → lon ≤ 180 →
      1 ≤ precision →
      ∃ geohash c, Encode lat lon precision = .ok geohash ∧ Bounds geohash = .ok c ∧
        c.Mem lat lon) ∧
    (∀ geohash : List UInt8, (∀ chr ∈ ToLower geohash, chr ∈ base32) →
      ((Decode geohash : Except GeohashError (α × α)).bind fun q =>
          Encode q.1 q.2 geohash.length) =
        if geohash = [] then .error .invalidPrecision else .ok (ToLower geohash)) := by
  constructor
  · intro lat lon precision h1 h2 h3 h4 hp
    obtain ⟨h, c, henc, hall, hb, hm⟩ := boundsChars_encodeChars lat lon precision.toNat true world
    refine ⟨h, c, ?_, ?_, hm ⟨h1, h2, h3, h4⟩⟩
    · rw [Encode, if_neg (by omega)]
      exact henc
    · rw [Bounds, ToLower_of_base32 hall]
      exact hb
  · intro geohash hg
    have hlen : (ToLower geohash).length = geohash.length := by simp [ToLower]
    have hwide : (world : Cell α).Wide := ⟨by norm_num [world], by norm_num [world]⟩
    have hdec : (Decode geohash : Except GeohashError (α × α)) =
        .ok (((descend (charBits (ToLower geohash)) true world).latMax -
            (descend (charBits (ToLower geohash)) true world).latMin) / 2 +
            (descend (charBits (ToLower geohash)) true world).latMin,
          ((descend (charBits (ToLower geohash)) true world).lonMax -
            (descend (charBits (ToLower geohash)) true world).lonMin) / 2 +
            (descend (charBits (ToLower geohash)) true world).lonMin) := by
      rw [Decode, Bounds, boundsChars_eq hg]
      rfl
    rw [hdec]
    by_cases hnil : geohash = []
    · subst hnil
      rfl
    · have hpos : 0 < geohash.length := List.length_pos_iff.mpr hnil
      rw [if_neg hnil]
      simp only [Except.bind]
      rw [Encode, if_neg (by omega), Int.toNat_natCast, ← hlen]
      exact encodeChars_of_inside hg hwide (hwide.descend _ true).centre_inside

/-- The point `(0, 0)` at precision 1, and the geohash `9Q`. -/
theorem geohash_round_trips_9Q :
    (∃ (geohash : List UInt8) (c : Cell ℚ), Encode (0 : ℚ) 0 1 = .ok geohash ∧
      Bounds geohash = .ok c ∧ c.Mem 0 0) ∧
    ((Decode (ascii "9Q") : Except GeohashError (ℚ × ℚ)).bind fun q =>
        Encode q.1 q.2 (ascii "9Q").length) =
      if ascii "9Q" = [] then .error .invalidPrecision else .ok (ToLower (ascii "9Q")) :=
  ⟨geohash_round_trips.1 0 0 1 (by norm_num) (by norm_num) (by norm_num) (by norm_num)
      (by norm_num),
    geohash_round_trips.2 _ (List.all_iff_forall_prop.mp (by decide))⟩

end Strings

end Geohash
