import Tile38.Resp.Reader
import Mathlib.Data.Bool.AllAny

/-!
# The `maxmemory` property (config.go)

`CONFIG SET maxmemory s` parses `s` with `parseMemSize`: decimal digits, optionally followed by
`kb`, `mb` or `gb` in any case (lowered by `ToLower`, on ASCII letters only), the count
multiplied by the unit in `uint64` and read as an `int64`. `CONFIG REWRITE` writes the limit
back with `formatMemSize`, which keeps the largest unit below the value and drops the
remainder, and a restart parses the text written.

Neither step keeps the limit. The product wraps: a count of 2³⁴ gigabytes parses as `0`, no
limit at all, and one of 2³³ as `int64`'s least value (`parseMemSize_gb`). And a limit that is
not a whole number of its unit comes back rounded down (`parseMemSize_formatMemSize_kb`): the
limit `1500` is written as `1kb` and restarts as `1024`.
-/

namespace Controller

open Resp Strings

/-! ### The functions of config.go -/

/-- `strconv.ParseUint(s, 10, 64)`: digits, below `2 ^ 64`. -/
def ParseUint (s : List UInt8) : Option Nat :=
  (parseDigits s).bind fun u => if u < 2 ^ 64 then some u else none

def HasSuffix (s suffix : List UInt8) : Bool :=
  decide (suffix.length ≤ s.length ∧ s.drop (s.length - suffix.length) = suffix)

/-- `int64(u)` of a `uint64`. -/
def int64 (u : Nat) : Int :=
  if u < 2 ^ 63 then u else (u : Int) - 2 ^ 64

def FormatInt (sz : Int) : List UInt8 := word (toString sz)

/-- `parseMemSize(s)`: the limit, `none` for `ok == false`. -/
def parseMemSize (s : List UInt8) : Option Int :=
  if s = [] then some 0
  else
    let s := ToLower s
    if HasSuffix s (word "gb") then
      (ParseUint (s.take (s.length - 2))).map fun n => int64 (n * 1024 * 1024 * 1024 % 2 ^ 64)
    else if HasSuffix s (word "mb") then
      (ParseUint (s.take (s.length - 2))).map fun n => int64 (n * 1024 * 1024 % 2 ^ 64)
    else if HasSuffix s (word "kb") then
      (ParseUint (s.take (s.length - 2))).map fun n => int64 (n * 1024 % 2 ^ 64)
    else (ParseUint s).map fun n => int64 n

/-- `formatMemSize(sz)`: the value in the largest unit it reaches, rounded down. -/
def formatMemSize (sz : Int) : List UInt8 :=
  if sz ≤ 0 then []
  else if sz < 1024 then FormatInt sz
  else
    let sz := sz.tdiv 1024
    if sz < 1024 then FormatInt sz ++ word "kb"
    else
      let sz := sz.tdiv 1024
      if sz < 1024 then FormatInt sz ++ word "mb"
      else FormatInt (sz.tdiv 1024) ++ word "gb"

/-- The `maxmemory` part of `Config`: the limit `_maxMemory`, and `_maxMemoryP`, the text the
file holds. -/
structure Config where
  maxMemory : Int
  maxMemoryP : List UInt8
  deriving DecidableEq, Repr

/-- `setProperty(MaxMemory, value, fromLoad)`. -/
def setMaxMemory (config : Config) (value : List UInt8) : Except (List UInt8) Config :=
  match parseMemSize value with
  | none => .error (word "Invalid argument '" ++ value ++ word "' for CONFIG SET 'maxmemory'")
  | some sz => .ok { config with maxMemory := sz }

/-- `write(true)`, `CONFIG REWRITE`: the text of the limit is saved. -/
def write (config : Config) : Config :=
  { config with maxMemoryP := formatMemSize config.maxMemory }

/-- Loading the file at a restart: `setProperty(MaxMemory, config._maxMemoryP, true)`. -/
def load (config : Config) : Except (List UInt8) Config :=
  setMaxMemory config config.maxMemoryP

/-! ### Reading a count and its unit -/

theorem ParseUint_toString {n : Nat} (hn : n < 2 ^ 64) : ParseUint (word (toString n)) = some n := by
  rw [ParseUint, parseDigits_toString, Option.bind_some, if_pos hn]

/-- The units, in lower case. -/
def IsUnit (unit : List UInt8) : Prop :=
  unit = word "gb" ∨ unit = word "mb" ∨ unit = word "kb"

theorem ToLower_count_unit (n : Nat) {unit : List UInt8} (hu : IsUnit unit) :
    ToLower (word (toString n) ++ unit) = word (toString n) ++ unit := by
  -- checked with `List.all`: `decide` on the bounded `∀` may run through all 256 bytes
  have hunit : ∀ b ∈ unit, ¬(65 ≤ b ∧ b ≤ 90) := by
    rcases hu with rfl | rfl | rfl <;> exact List.all_iff_forall_prop.mp (by decide)
  apply ToLower_of_not_upper
  intro b hb
  rcases List.mem_append.mp hb with hb | hb
  · have := digit_of_mem_toString hb
    exact fun h => absurd (UInt8.le_trans h.1 this.2) (by decide)
  · exact hunit b hb

theorem HasSuffix_append (s : List UInt8) {t u : List UInt8} (h : t.length = u.length) :
    HasSuffix (s ++ t) u = decide (t = u) := by
  simp [HasSuffix, h]

theorem take_count_unit (n : Nat) {unit : List UInt8} (hu : IsUnit unit) :
    (word (toString n) ++ unit).take ((word (toString n) ++ unit).length - 2) = word (toString n) := by
  have h2 : unit.length = 2 := by rcases hu with rfl | rfl | rfl <;> rfl
  rw [List.length_append, h2, Nat.add_sub_cancel, List.take_left]

/-- A count of gigabytes: the product wraps in `uint64` before it is read as an `int64`. -/
theorem parseMemSize_gb {n : Nat} (hn : n < 2 ^ 64) :
    parseMemSize (word (toString n) ++ word "gb") =
      some (int64 (n * 1024 * 1024 * 1024 % 2 ^ 64)) := by
  have hu : IsUnit (word "gb") := Or.inl rfl
  have hne : word (toString n) ++ word "gb" ≠ [] := by simp [word]
  simp only [parseMemSize, if_neg hne, ToLower_count_unit n hu,
    HasSuffix_append _ (rfl : (word "gb").length = (word "gb").length), decide_true, if_true,
    take_count_unit n hu, ParseUint_toString hn, Option.map_some]

theorem parseMemSize_kb {n : Nat} (hn : n < 2 ^ 64) :
    parseMemSize (word (toString n) ++ word "kb") = some (int64 (n * 1024 % 2 ^ 64)) := by
  have hu : IsUnit (word "kb") := Or.inr (Or.inr rfl)
  have hne : word (toString n) ++ word "kb" ≠ [] := by simp [word]
  have hgb : HasSuffix (word (toString n) ++ word "kb") (word "gb") = false := by
    rw [HasSuffix_append _ (show (word "kb").length = (word "gb").length from rfl)]
    decide
  have hmb : HasSuffix (word (toString n) ++ word "kb") (word "mb") = false := by
    rw [HasSuffix_append _ (show (word "kb").length = (word "mb").length from rfl)]
    decide
  simp only [parseMemSize, if_neg hne, ToLower_count_unit n hu, hgb, hmb,
    HasSuffix_append _ (rfl : (word "kb").length = (word "kb").length), decide_true, if_true,
    Bool.false_eq_true, if_false, take_count_unit n hu, ParseUint_toString hn, Option.map_some]

/-! ### Writing the limit and reading it back -/

/-- A limit of a thousand or more kilobytes' worth below a megabyte is written in kilobytes,
rounded down. -/
theorem formatMemSize_kb {v : Int} (h1 : 1024 ≤ v) (h2 : v < 1024 * 1024) :
    formatMemSize v = word (toString (v.tdiv 1024).toNat) ++ word "kb" := by
  have hq : 0 ≤ v.tdiv 1024 := Int.tdiv_nonneg (by omega) (by decide)
  have hlt : v.tdiv 1024 < 1024 := by
    rw [Int.tdiv_eq_ediv_of_nonneg (by omega)]
    omega
  have hstr : FormatInt (v.tdiv 1024) = word (toString (v.tdiv 1024).toNat) := by
    rw [FormatInt, ← Int.toNat_of_nonneg hq]
    rfl
  simp only [formatMemSize, if_neg (show ¬v ≤ 0 by omega), if_neg (show ¬v < 1024 by omega),
    if_pos hlt, hstr]

/-- Written and read back, a limit between a kilobyte and a megabyte loses what is not a whole
kilobyte. -/
theorem parseMemSize_formatMemSize_kb {v : Int} (h1 : 1024 ≤ v) (h2 : v < 1024 * 1024) :
    parseMemSize (formatMemSize v) = some (v.tdiv 1024 * 1024) := by
  have hq : 0 ≤ v.tdiv 1024 := Int.tdiv_nonneg (by omega) (by decide)
  have hlt : v.tdiv 1024 < 1024 := by
    rw [Int.tdiv_eq_ediv_of_nonneg (by omega)]
    omega
  rw [formatMemSize_kb h1 h2, parseMemSize_kb (by omega)]
  -- a count below 1024 kilobytes fits without wrapping
  have hsmall : (v.tdiv 1024).toNat * 1024 < 2 ^ 63 := by omega
  rw [Nat.mod_eq_of_lt (by omega), int64, if_pos hsmall]
  push_cast
  rw [Int.toNat_of_nonneg hq]

theorem setMaxMemory_of_parse {config : Config} {value : List UInt8} {sz : Int}
    (h : parseMemSize value = some sz) :
    setMaxMemory config value = .ok { config with maxMemory := sz } := by
  simp [setMaxMemory, h]

/-- The limit is not kept. A count of gigabytes wraps: the limit is the product modulo `2 ^ 64`
read as an `int64`, not a refusal when the product does not fit. And `CONFIG SET` of a limit
between a kilobyte and a megabyte, `CONFIG REWRITE` and a restart leave the limit rounded down
to whole kilobytes. -/
theorem maxMemory_not_kept :
    (∀ n : Nat, n < 2 ^ 64 →
      parseMemSize (word (toString n) ++ word "gb") =
        some (int64 (n * 1024 * 1024 * 1024 % 2 ^ 64))) ∧
    (∀ (config : Config) (s : List UInt8) (v : Int), parseMemSize s = some v → 1024 ≤ v →
      v < 1024 * 1024 →
      ((setMaxMemory config s).map write).bind load = .ok ⟨v.tdiv 1024 * 1024, formatMemSize v⟩) := by
  refine ⟨fun n hn => parseMemSize_gb hn, fun config s v hs h1 h2 => ?_⟩
  rw [setMaxMemory_of_parse hs]
  simp only [Except.map, Except.bind, write, load]
  rw [setMaxMemory_of_parse (parseMemSize_formatMemSize_kb h1 h2)]

/-- `17179869184gb` (2³⁴ gigabytes) parses as no limit, and the limit `1500`, set, rewritten and
reloaded, is `1024`. -/
theorem maxMemory_not_kept_1500 :
    parseMemSize (word (toString (2 ^ 34)) ++ word "gb") = some 0 ∧
      parseMemSize (word "1500") = some 1500 ∧
      ((setMaxMemory ⟨0, []⟩ (word "1500")).map write).bind load = .ok ⟨1024, word "1kb"⟩ := by
  obtain ⟨hgb, hround⟩ := maxMemory_not_kept
  have h1500 : parseMemSize (word "1500") = some 1500 := by decide
  refine ⟨(hgb _ (by decide)).trans (by decide), h1500, ?_⟩
  rw [hround _ _ _ h1500 (by decide) (by decide)]
  rfl

end Controller
