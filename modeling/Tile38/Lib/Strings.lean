import Mathlib.Data.List.Basic

/-!
# `strings.ToLower` on bytes

Go lowers each Unicode letter of a UTF-8 text. The model lowers the ASCII capitals `A` to `Z`
and keeps every other byte. Letters outside ASCII are kept too, among them the Kelvin sign,
which Go lowers to the ASCII `k`: a command name or a unit written with it is read by Go and
refused by the model. On text whose letters are ASCII the two agree.
-/

namespace Strings

/-- `strings.ToLower(s)` on ASCII. -/
def ToLower (s : List UInt8) : List UInt8 :=
  s.map fun b => if 65 ≤ b ∧ b ≤ 90 then b + 32 else b

@[simp] theorem length_ToLower (s : List UInt8) : (ToLower s).length = s.length :=
  List.length_map _

theorem ToLower_of_not_upper {s : List UInt8} (h : ∀ b ∈ s, ¬(65 ≤ b ∧ b ≤ 90)) :
    ToLower s = s := by
  unfold ToLower
  conv_rhs => rw [← List.map_id s]
  exact List.map_congr_left fun b hb => if_neg (h b hb)

end Strings
