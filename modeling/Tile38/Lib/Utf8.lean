import Mathlib.Data.List.Basic

/-!
# Decoding one UTF-8 rune

`utf8.DecodeRuneInString` of the Go library as it is documented: the first rune of a byte
string and its width. An empty string gives `(RuneError, 0)`; an encoding that is invalid
(a stray continuation byte, a sequence cut short, a surrogate, a value above U+10FFFF, or one
that is not the shortest form) gives `(RuneError, 1)`. The well-formed sequences are those of
RFC 3629 §4: the second byte's range depends on the first byte, and every later byte is a
continuation byte `0x80-0xBF`.
-/

namespace Utf8

/-- `utf8.RuneError`, U+FFFD. -/
def RuneError : Nat := 0xFFFD

/-- A continuation byte `10xxxxxx`. -/
def IsCont (b : UInt8) : Prop := 0x80 ≤ b ∧ b ≤ 0xBF

instance (b : UInt8) : Decidable (IsCont b) := inferInstanceAs (Decidable (_ ∧ _))

/-- The width a first byte announces (`0` for a byte that starts no sequence) and the range
of the second byte after it. -/
def firstByte (b : UInt8) : Nat × UInt8 × UInt8 :=
  if b < 0x80 then (1, 0, 0)
  else if b < 0xC2 then (0, 0, 0)
  else if b < 0xE0 then (2, 0x80, 0xBF)
  else if b = 0xE0 then (3, 0xA0, 0xBF)
  else if b = 0xED then (3, 0x80, 0x9F)
  else if b < 0xF0 then (3, 0x80, 0xBF)
  else if b = 0xF0 then (4, 0x90, 0xBF)
  else if b < 0xF4 then (4, 0x80, 0xBF)
  else if b = 0xF4 then (4, 0x80, 0x8F)
  else (0, 0, 0)

/-- The low six bits of a continuation byte. -/
def low6 (b : UInt8) : Nat := b.toNat % 64

/-- `DecodeRuneInString(s)`: the rune at the head of `s` and its width in bytes. -/
def decodeRune : List UInt8 → Nat × Nat
  | [] => (RuneError, 0)
  | b0 :: rest =>
    match firstByte b0, rest with
    | (1, _, _), _ => (b0.toNat, 1)
    | (2, lo, hi), b1 :: _ =>
      if lo ≤ b1 ∧ b1 ≤ hi then ((b0.toNat % 32) * 64 + low6 b1, 2) else (RuneError, 1)
    | (3, lo, hi), b1 :: b2 :: _ =>
      if lo ≤ b1 ∧ b1 ≤ hi ∧ IsCont b2 then
        ((b0.toNat % 16) * 4096 + low6 b1 * 64 + low6 b2, 3)
      else (RuneError, 1)
    | (4, lo, hi), b1 :: b2 :: b3 :: _ =>
      if lo ≤ b1 ∧ b1 ≤ hi ∧ IsCont b2 ∧ IsCont b3 then
        ((b0.toNat % 8) * 262144 + low6 b1 * 4096 + low6 b2 * 64 + low6 b3, 4)
      else (RuneError, 1)
    | _, _ => (RuneError, 1)

example : decodeRune [0x61, 0x62] = (0x61, 1) := by decide
example : decodeRune [0xC3, 0xA9] = (0xE9, 2) := by decide
example : decodeRune [0xE2, 0x82, 0xAC] = (0x20AC, 3) := by decide
example : decodeRune [0xC0, 0x80] = (RuneError, 1) := by decide
example : decodeRune [0xE2, 0x82] = (RuneError, 1) := by decide

theorem decodeRune_width_pos {s : List UInt8} (hs : s ≠ []) :
    0 < (decodeRune s).2 ∧ (decodeRune s).2 ≤ s.length := by
  obtain ⟨b0, rest, rfl⟩ := List.exists_cons_of_ne_nil hs
  simp only [decodeRune]
  split <;> (try split_ifs) <;> simp_all

theorem firstByte_cont {c : UInt8} (hc : IsCont c) : firstByte c = (0, 0, 0) := by
  obtain ⟨h1, h2⟩ := hc
  simp only [firstByte, UInt8.le_iff_toNat_le, UInt8.lt_iff_toNat_lt] at *
  simp at *
  split_ifs <;> first | rfl | omega

theorem firstByte_second {b : UInt8} {n : Nat} {lo hi : UInt8} (h : firstByte b = (n, lo, hi))
    (hn : 2 ≤ n) : 0x80 ≤ lo ∧ hi ≤ 0xBF := by
  unfold firstByte at h
  split_ifs at h <;> cases h <;> first | omega | decide

theorem isCont_of_range {lo hi b : UInt8} (hr : 0x80 ≤ lo ∧ hi ≤ 0xBF) (hb : lo ≤ b ∧ b ≤ hi) :
    IsCont b := by
  simp only [IsCont, UInt8.le_iff_toNat_le] at *
  omega

theorem decodeRune_cont {c : UInt8} (hc : IsCont c) (rest : List UInt8) :
    decodeRune (c :: rest) = (RuneError, 1) := by
  -- the match on the announced width is read off by reduction: no width matches `0`
  unfold decodeRune
  dsimp only
  rw [firstByte_cont hc]
  rfl

theorem decodeRune_ascii {c : UInt8} (hc : c < 0x80) (rest : List UInt8) :
    decodeRune (c :: rest) = (c.toNat, 1) := by
  have hfb : firstByte c = (1, 0, 0) := if_pos hc
  unfold decodeRune
  dsimp only
  rw [hfb]
  rfl

/-- Three bytes read as one rune end in two continuation bytes, and read the same with more
bytes after them. -/
theorem decodeRune_three {b0 b1 b2 : UInt8} (rest : List UInt8)
    (h : (decodeRune [b0, b1, b2]).2 = 3) :
    decodeRune (b0 :: b1 :: b2 :: rest) = decodeRune [b0, b1, b2] ∧ IsCont b1 ∧ IsCont b2 := by
  cases hfb : firstByte b0 with
  | mk n lohi =>
    obtain ⟨lo, hi⟩ := lohi
    unfold decodeRune at h ⊢
    dsimp only at h ⊢
    rw [hfb] at h ⊢
    rcases n with _ | _ | _ | _ | _ | n <;> simp at h ⊢ <;> split_ifs at h with hc <;> simp at h
    exact ⟨isCont_of_range (firstByte_second hfb (by omega)) ⟨hc.1, hc.2.1⟩, hc.2.2⟩

theorem decodeRune_four {b0 b1 b2 b3 : UInt8} (h : (decodeRune [b0, b1, b2, b3]).2 = 4) :
    IsCont b1 ∧ IsCont b2 ∧ IsCont b3 := by
  cases hfb : firstByte b0 with
  | mk n lohi =>
    obtain ⟨lo, hi⟩ := lohi
    unfold decodeRune at h
    dsimp only at h
    rw [hfb] at h
    rcases n with _ | _ | _ | _ | _ | n <;> simp at h <;> split_ifs at h with hc <;> simp at h
    exact ⟨isCont_of_range (firstByte_second hfb (by omega)) ⟨hc.1, hc.2.1⟩, hc.2.2⟩

end Utf8
