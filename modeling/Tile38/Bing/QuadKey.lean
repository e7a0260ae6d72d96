import Mathlib.Algebra.Order.Ring.Nat
import Mathlib.Data.Int.ConditionallyCompleteOrder
import Mathlib.Data.Nat.Cast.Order.Basic
import Mathlib.Data.Nat.SuccPred

/-!
# Quadkeys (pkg/bing/bing.go)

A quadkey names a tile of the Bing Maps tile system by the bits of its coordinates, most
significant first: the digit for the bit `1 << (i - 1)` is `'0'`, `'1'` for a set bit of `X`,
`'2'` for a set bit of `Y` and `'3'` for both. `TileXYToQuadKey` writes the digits for
`i = levelOfDetail` down to `1`; `QuadKeyToTileXY` reads them back, ORing each mask into the
coordinates, and panics on a byte that is not a digit (`none` here).

Tile coordinates are Go `int64`s, modelled by their 64 bits, and the mask by Go's shift, which
is zero once the count reaches the width (`mask`). Each digit is fixed by the two bits it
stands for (`digit_eq`), so both loops are read bit by bit: reading a quadkey back ORs in the
coordinates' bits below the level (`tileLoop_quadKeyLoop`), and every quadkey of at most 64
digits is the quadkey of a tile with no bits above its level (`exists_quadKeyLoop`).
-/

namespace Bing

/-- A Go string: its bytes. -/
abbrev Bytes := List UInt8

/-- `int64(1 << (i - 1))`. -/
def mask (i : Nat) : BitVec 64 := 1 <<< (i - 1)

/-- The body of the loop of `TileXYToQuadKey` for the mask of `i`. -/
def digit (tileX tileY : BitVec 64) (i : Nat) : UInt8 :=
  if tileX &&& mask i ≠ 0 then (if tileY &&& mask i ≠ 0 then '3'.toUInt8 else '1'.toUInt8)
  else if tileY &&& mask i ≠ 0 then '2'.toUInt8
  else '0'.toUInt8

/-- The loop of `TileXYToQuadKey` from `i` down to `1`. -/
def quadKeyLoop (tileX tileY : BitVec 64) : Nat → Bytes
  | 0 => []
  | i + 1 => digit tileX tileY (i + 1) :: quadKeyLoop tileX tileY i

def TileXYToQuadKey (tileX tileY : BitVec 64) (levelOfDetail : Nat) : Bytes :=
  quadKeyLoop tileX tileY levelOfDetail

/-- The loop of `QuadKeyToTileXY` over the digits left: the digit at their head is the one for
`i`, their number. -/
def tileLoop : Bytes → BitVec 64 → BitVec 64 → Option (BitVec 64 × BitVec 64)
  | [], tileX, tileY => some (tileX, tileY)
  | c :: cs, tileX, tileY =>
    let m := mask (cs.length + 1)
    if c = '0'.toUInt8 then tileLoop cs tileX tileY
    else if c = '1'.toUInt8 then tileLoop cs (tileX ||| m) tileY
    else if c = '2'.toUInt8 then tileLoop cs tileX (tileY ||| m)
    else if c = '3'.toUInt8 then tileLoop cs (tileX ||| m) (tileY ||| m)
    -- panic("Invalid QuadKey digit sequence.")
    else none

/-- `QuadKeyToTileXY(quadKey)`: the coordinates and the level, `none` where the source
panics. -/
def QuadKeyToTileXY (quadKey : Bytes) : Option (BitVec 64 × BitVec 64 × Nat) :=
  (tileLoop quadKey 0 0).map fun t => (t.1, t.2, quadKey.length)

/-- A string of the digits `'0'` to `'3'`. -/
def IsQuadKey (q : Bytes) : Prop :=
  ∀ c ∈ q, c = '0'.toUInt8 ∨ c = '1'.toUInt8 ∨ c = '2'.toUInt8 ∨ c = '3'.toUInt8

instance (q : Bytes) : Decidable (IsQuadKey q) :=
  List.decidableBAll _ q

/-! ### Masks and digits bit by bit -/

/-- The digit standing for a bit of `X` and a bit of `Y`. -/
def digitOf (bx b_y : Bool) : UInt8 :=
  if bx then (if b_y then '3'.toUInt8 else '1'.toUInt8)
  else if b_y then '2'.toUInt8
  else '0'.toUInt8

/-- The mask of `i` if the bit is set. -/
def maskIf (b : Bool) (i : Nat) : BitVec 64 :=
  if b then mask i else 0

/-- The masks of the digits `1` to `L`. -/
def lowMask : Nat → BitVec 64
  | 0 => 0
  | i + 1 => mask (i + 1) ||| lowMask i

variable {x y ax ay : BitVec 64}

theorem mask_eq_twoPow (i : Nat) : mask i = BitVec.twoPow 64 (i - 1) :=
  (BitVec.twoPow_eq _ _).symm

theorem getLsbD_mask (i k : Nat) :
    (mask i).getLsbD k = (decide (i - 1 < 64) && decide (i - 1 = k)) := by
  rw [mask_eq_twoPow, BitVec.getLsbD_twoPow]

theorem getLsbD_maskIf (b : Bool) (i k : Nat) :
    (maskIf b i).getLsbD k = (b && (mask i).getLsbD k) := by
  cases b <;> simp [maskIf]

theorem and_mask (x : BitVec 64) (i : Nat) : x &&& mask i = maskIf (x.getLsbD (i - 1)) i := by
  rw [maskIf, mask_eq_twoPow, BitVec.and_twoPow]
  rfl

theorem mask_ne_zero {i : Nat} (hi : i - 1 < 64) : mask i ≠ 0 := by
  rw [mask_eq_twoPow]
  intro h
  have hbit := congrArg (fun v => BitVec.getLsbD v (i - 1)) h
  simp [hi] at hbit

theorem and_mask_ne_zero (x : BitVec 64) (i : Nat) :
    x &&& mask i ≠ 0 ↔ x.getLsbD (i - 1) = true := by
  rw [and_mask]
  by_cases hx : x.getLsbD (i - 1) = true
  · simp only [hx, maskIf, if_true, iff_true]
    exact mask_ne_zero (BitVec.lt_of_getLsbD hx)
  · simp [hx, maskIf]

/-- The digit of the mask of `i` stands for the bits `i - 1` of the coordinates. -/
theorem digit_eq (x y : BitVec 64) (i : Nat) :
    digit x y i = digitOf (x.getLsbD (i - 1)) (y.getLsbD (i - 1)) := by
  simp only [digit, digitOf, and_mask_ne_zero]

theorem getLsbD_lowMask (L k : Nat) :
    (lowMask L).getLsbD k = (decide (k < L) && decide (k < 64)) := by
  induction L with
  | zero => simp [lowMask]
  | succ L ih =>
    simp only [lowMask, BitVec.getLsbD_or, getLsbD_mask, ih]
    by_cases hk : k = L <;> grind

/-! ### Both loops -/

theorem length_quadKeyLoop (x y : BitVec 64) (L : Nat) : (quadKeyLoop x y L).length = L := by
  induction L with
  | zero => rfl
  | succ L ih => simp [quadKeyLoop, ih]

theorem tileLoop_digit {cs : Bytes} {i : Nat} (hi : cs.length + 1 = i) (x y ax ay : BitVec 64) :
    tileLoop (digit x y i :: cs) ax ay =
      tileLoop cs (ax ||| (x &&& mask i)) (ay ||| (y &&& mask i)) := by
  subst hi
  rw [digit_eq, and_mask, and_mask]
  cases x.getLsbD (cs.length + 1 - 1) <;> cases y.getLsbD (cs.length + 1 - 1) <;>
    simp +decide [tileLoop, maskIf]

/-- Reading back the quadkey of a tile ORs in the tile's bits below the level. -/
theorem tileLoop_quadKeyLoop (x y : BitVec 64) (L : Nat) (ax ay : BitVec 64) :
    tileLoop (quadKeyLoop x y L) ax ay =
      some (ax ||| (x &&& lowMask L), ay ||| (y &&& lowMask L)) := by
  induction L generalizing ax ay with
  | zero => simp [quadKeyLoop, tileLoop, lowMask]
  | succ L ih =>
    rw [quadKeyLoop, tileLoop_digit (by rw [length_quadKeyLoop]), ih]
    simp only [lowMask, BitVec.and_or_distrib_left, BitVec.or_assoc]

theorem and_lowMask {L : Nat} (hx : ∀ k, L ≤ k → x.getLsbD k = false) : x &&& lowMask L = x := by
  apply BitVec.eq_of_getLsbD_eq
  intro k hk
  rw [BitVec.getLsbD_and, getLsbD_lowMask]
  by_cases hkL : k < L
  · simp [hkL, hk]
  · simp [hkL, hx k (by omega)]

/-- A tile with no bits at or above the level reads back from its quadkey, at every level. -/
theorem QuadKeyToTileXY_quadKeyLoop {L : Nat} (hx : ∀ k, L ≤ k → x.getLsbD k = false)
    (hy : ∀ k, L ≤ k → y.getLsbD k = false) :
    QuadKeyToTileXY (quadKeyLoop x y L) = some (x, y, L) := by
  simp [QuadKeyToTileXY, tileLoop_quadKeyLoop, and_lowMask hx, and_lowMask hy,
    length_quadKeyLoop]

theorem quadKeyLoop_congr {x' y' : BitVec 64} {L : Nat}
    (hx : ∀ k < L, x.getLsbD k = x'.getLsbD k) (hy : ∀ k < L, y.getLsbD k = y'.getLsbD k) :
    quadKeyLoop x y L = quadKeyLoop x' y' L := by
  induction L with
  | zero => rfl
  | succ L ih =>
    rw [quadKeyLoop, quadKeyLoop, digit_eq, digit_eq, Nat.add_sub_cancel, hx L (by omega),
      hy L (by omega), ih (fun k hk => hx k (by omega)) (fun k hk => hy k (by omega))]

theorem exists_digitOf {c : UInt8}
    (hc : c = '0'.toUInt8 ∨ c = '1'.toUInt8 ∨ c = '2'.toUInt8 ∨ c = '3'.toUInt8) :
    ∃ bx b_y, c = digitOf bx b_y := by
  rcases hc with rfl | rfl | rfl | rfl
  · exact ⟨false, false, rfl⟩
  · exact ⟨true, false, rfl⟩
  · exact ⟨false, true, rfl⟩
  · exact ⟨true, true, rfl⟩

/-- Every quadkey of at most 64 digits is the quadkey of a tile with no bits at or above its
level: each digit adds the mask of its place to the coordinates it names. -/
theorem exists_quadKeyLoop {q : Bytes} (hq : IsQuadKey q) (hlen : q.length ≤ 64) :
    ∃ x y : BitVec 64, (∀ k, q.length ≤ k → x.getLsbD k = false) ∧
      (∀ k, q.length ≤ k → y.getLsbD k = false) ∧ quadKeyLoop x y q.length = q := by
  induction q with
  | nil => exact ⟨0, 0, by simp, by simp, rfl⟩
  | cons c cs ih =>
    have hn : cs.length < 64 := by simp at hlen; omega
    obtain ⟨x, y, hx, hy, hcs⟩ := ih (fun d hd => hq d (by simp [hd])) (by omega)
    obtain ⟨bx, b_y, rfl⟩ := exists_digitOf (hq c (by simp))
    -- the bit of the head digit sits at `cs.length`, above all the bits of the tail
    have hbit : ∀ (b : Bool) (v : BitVec 64) (k : Nat),
        (maskIf b (cs.length + 1) ||| v).getLsbD k = ((b && decide (cs.length = k)) || v.getLsbD k) := by
      intro b v k
      simp [getLsbD_maskIf, getLsbD_mask, hn]
    refine ⟨maskIf bx (cs.length + 1) ||| x, maskIf b_y (cs.length + 1) ||| y, ?_, ?_, ?_⟩
    · intro k hk
      simp only [List.length_cons] at hk
      simp [hbit, hx k (by omega), show cs.length ≠ k by omega]
    · intro k hk
      simp only [List.length_cons] at hk
      simp [hbit, hy k (by omega), show cs.length ≠ k by omega]
    · have htail : quadKeyLoop (maskIf bx (cs.length + 1) ||| x)
          (maskIf b_y (cs.length + 1) ||| y) cs.length = cs := by
        refine (quadKeyLoop_congr ?_ ?_).trans hcs <;> intro k hk <;>
          simp [hbit, show cs.length ≠ k by omega]
      rw [List.length_cons, quadKeyLoop, digit_eq, Nat.add_sub_cancel, htail]
      simp [hbit, hx, hy]

theorem getLsbD_of_toInt {L : Nat} (h0 : 0 ≤ x.toInt) (hL : x.toInt < 2 ^ L) :
    ∀ k, L ≤ k → x.getLsbD k = false := by
  intro k hk
  have hnat : x.toInt = x.toNat := by
    have hcond := BitVec.toInt_eq_toNat_cond x
    have hlt64 := x.isLt
    split_ifs at hcond <;> omega
  have hlt : x.toNat < 2 ^ k := by
    have hle : (2 : Nat) ^ L ≤ 2 ^ k := Nat.pow_le_pow_right (by decide) hk
    have hxL : x.toNat < 2 ^ L := by exact_mod_cast hnat ▸ hL
    exact Nat.lt_of_lt_of_le hxL hle
  exact Nat.testBit_lt_two_pow hlt

/-- The two encodings are inverse at every level from 1 to 63: a tile reads back from its
quadkey, and a quadkey from the tile it names. -/
theorem quadKey_round_trips :
    (∀ (L : Nat) (tileX tileY : BitVec 64), 1 ≤ L → L ≤ 63 → 0 ≤ tileX.toInt →
      tileX.toInt < 2 ^ L → 0 ≤ tileY.toInt → tileY.toInt < 2 ^ L →
      QuadKeyToTileXY (TileXYToQuadKey tileX tileY L) = some (tileX, tileY, L)) ∧
    (∀ q : Bytes, IsQuadKey q → 1 ≤ q.length → q.length ≤ 63 →
      (QuadKeyToTileXY q).map (fun t => TileXYToQuadKey t.1 t.2.1 t.2.2) = some q) := by
  constructor
  · intro L tileX tileY _ _ hx0 hxL hy0 hyL
    exact QuadKeyToTileXY_quadKeyLoop (getLsbD_of_toInt hx0 hxL) (getLsbD_of_toInt hy0 hyL)
  · intro q hq _ hlen
    obtain ⟨x, y, hx, hy, hxy⟩ := exists_quadKeyLoop hq (by omega)
    rw [← hxy, QuadKeyToTileXY_quadKeyLoop hx hy]
    rfl

/-- The tile `(3, 1)` of level 2 is `"13"`, and `"0123"` names the tile `(5, 3)` of level 4. -/
theorem quadKey_round_trips_small :
    QuadKeyToTileXY (TileXYToQuadKey 3 1 2) = some (3, 1, 2) ∧
      (QuadKeyToTileXY ['0'.toUInt8, '1'.toUInt8, '2'.toUInt8, '3'.toUInt8]).map
        (fun t => TileXYToQuadKey t.1 t.2.1 t.2.2) =
        some ['0'.toUInt8, '1'.toUInt8, '2'.toUInt8, '3'.toUInt8] :=
  ⟨quadKey_round_trips.1 2 3 1 (by decide) (by decide) (by decide) (by decide) (by decide)
      (by decide),
    quadKey_round_trips.2 _ (by decide) (by decide) (by decide)⟩

example : TileXYToQuadKey 3 1 2 = ['1'.toUInt8, '3'.toUInt8] := by decide

example : QuadKeyToTileXY ['0'.toUInt8, '1'.toUInt8, '2'.toUInt8, '3'.toUInt8] = some (5, 3, 4) := by
  decide

end Bing
