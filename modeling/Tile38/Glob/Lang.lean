import Mathlib.Computability.Language
import Tile38.Glob.Match

/-!
# The glob language (pkg/glob/match.go)

What a pattern means term by term, as the package states it: `*` any bytes, `?` one rune, a
class one rune in (after `^`, not in) its ranges, `\c` the byte `c`, any other byte itself.
`terms` cuts a pattern into terms with the class syntax `matchChunk` reads (`getEsc`,
`rangeHi`), and `lang` concatenates the languages of the terms.

"One rune" has two readings on bytes that are not UTF-8. Read strictly, `?` matches the
encoding of a rune; read as the decoder reads, it matches whatever `decodeRune` takes whole, a
stray byte included (`strict = false`). `wildcardMatch` decides neither. After a star it tries
the next chunk at every byte, inside a rune too, where `?` takes one byte: a name of one rune of
three or four bytes matches `*??`. And it keeps the leftmost match of each chunk, which with
runes of different widths need not leave the most of the name: a rune of three bytes and an
ASCII byte do not match `*?*??`, though the decoder reads four runes after the first byte
(`Match_not_lang`).
-/

namespace Glob

/-- A term of a pattern. -/
inductive Term where
  | star
  | any
  | cls (negated : Bool) (ranges : List (Nat × Nat))
  | lit (c : UInt8)
  deriving DecidableEq, Repr

/-! ### Reading a pattern into terms -/

set_option linter.unusedVariables false in
/-- The ranges of a class up to the `]` that closes it, read as `classRanges` reads them. -/
def classTerms (chunk : Bytes) (ranges : List (Nat × Nat)) :
    Except GlobError (List (Nat × Nat) × Bytes) :=
  if chunk.head? = some (ch ']') ∧ ranges ≠ [] then .ok (ranges, chunk.tail)
  else
    match h1 : getEsc chunk with
    | .error e => .error e
    | .ok (lo, chunk1) =>
      match h2 : rangeHi lo chunk1 with
      | .error e => .error e
      | .ok (hi, chunk2) => classTerms chunk2 (ranges ++ [(lo, hi)])
termination_by chunk.length
decreasing_by
  have := getEsc_length h1
  have := rangeHi_length h2
  omega

theorem classTerms_length {chunk : Bytes} {ranges : List (Nat × Nat)}
    {ranges' : List (Nat × Nat)} {chunk' : Bytes}
    (h : classTerms chunk ranges = .ok (ranges', chunk')) : chunk'.length < chunk.length := by
  induction chunk, ranges using classTerms.induct with
  | case1 chunk ranges hclose =>
    rw [classTerms, if_pos hclose] at h
    cases h
    cases chunk with
    | nil => simp at hclose
    | cons c rest => simp
  | case2 chunk ranges hclose e h1 =>
    rw [classTerms, if_neg hclose] at h
    split at h <;> simp_all
  | case3 chunk ranges hclose lo chunk1 h1 e h2 =>
    rw [classTerms, if_neg hclose] at h
    split at h <;> simp_all
    split at h <;> simp_all
  | case4 chunk ranges hclose lo chunk1 h1 hi chunk2 h2 ih =>
    rw [classTerms, if_neg hclose] at h
    split at h
    · simp_all
    · rename_i lo' chunk1' h1'
      rw [h1] at h1'
      cases h1'
      split at h
      · simp_all
      · rename_i hi' chunk2' h2'
        rw [h2] at h2'
        cases h2'
        have := getEsc_length h1
        have := rangeHi_length h2
        have := ih h
        omega

theorem classTerms_body_lt {b : Prop} [Decidable b] {c c1 : UInt8} {rest p' : Bytes}
    {ranges : List (Nat × Nat)}
    (h : classTerms (if b then rest else c1 :: rest) [] = .ok (ranges, p')) :
    p'.length < (c :: c1 :: rest).length := by
  have := classTerms_length h
  split_ifs at this <;> simp only [List.length_cons] at this ⊢ <;> omega

set_option linter.unusedVariables false in
/-- The terms of a pattern; a trailing backslash or a class that is not closed is
`ErrBadPattern`. -/
def terms (pattern : Bytes) : Except GlobError (List Term) :=
  match pattern with
  | [] => .ok []
  | c :: p =>
    if c = ch '*' then (terms p).map (.star :: ·)
    else if c = ch '?' then (terms p).map (.any :: ·)
    else if c = ch '\\' then
      match p with
      | [] => .error .ErrBadPattern
      | c1 :: p' => (terms p').map (.lit c1 :: ·)
    else if c = ch '[' then
      match p with
      | [] => .error .ErrBadPattern
      | c1 :: rest =>
        let negated : Bool := c1 = ch '^'
        match h : classTerms (if negated then rest else c1 :: rest) [] with
        | .error e => .error e
        | .ok (ranges, p') => (terms p').map (.cls negated ranges :: ·)
    else (terms p).map (.lit c :: ·)
termination_by pattern.length
decreasing_by
  all_goals first
    | (simp only [List.length_cons]; omega)
    | exact classTerms_body_lt h

/-! ### The language of the terms -/

/-- The bytes of one rune that passes `P`: bytes `decodeRune` takes whole, and read strictly
not a byte it can only read as `RuneError`. -/
def runeLang (strict : Bool) (P : Nat → Prop) : Language UInt8 :=
  {w | w ≠ [] ∧ (Utf8.decodeRune w).2 = w.length ∧
    (strict = true → Utf8.decodeRune w ≠ (Utf8.RuneError, 1)) ∧ P (Utf8.decodeRune w).1}

/-- The language of one term. -/
def Term.lang (strict : Bool) : Term → Language UInt8
  | .star => ⊤
  | .any => runeLang strict fun _ => True
  | .cls negated ranges =>
    runeLang strict fun r => (∃ lh ∈ ranges, lh.1 ≤ r ∧ r ≤ lh.2) ↔ negated = false
  | .lit c => {[c]}

/-- The language of a pattern's terms, one after the other. -/
def lang (strict : Bool) (ts : List Term) : Language UInt8 :=
  (ts.map (Term.lang strict)).prod

theorem mem_lang_nil {strict : Bool} {s : Bytes} : s ∈ lang strict [] ↔ s = [] := by
  simp [lang, Language.mem_one]

theorem mem_lang_cons {strict : Bool} {t : Term} {ts : List Term} {s : Bytes} :
    s ∈ lang strict (t :: ts) ↔ ∃ u ∈ t.lang strict, ∃ v ∈ lang strict ts, u ++ v = s := by
  simp only [lang, List.map_cons, List.prod_cons, Language.mem_mul]

theorem terms_star_any_any : terms (ascii "*??") = .ok [.star, .any, .any] := by
  simp +decide [terms, ascii, ch]

theorem terms_star_any_star_any_any :
    terms (ascii "*?*??") = .ok [.star, .any, .star, .any, .any] := by
  simp +decide [terms, ascii, ch]

/-! ### Read as the decoder reads: a split the matcher misses -/

theorem mem_any_cont {c : UInt8} (hc : Utf8.IsCont c) : [c] ∈ Term.any.lang false :=
  ⟨List.cons_ne_nil _ _, by simp [Utf8.decodeRune_cont hc], by simp, trivial⟩

theorem mem_any_ascii (strict : Bool) {a : UInt8} (ha : a < 0x80) : [a] ∈ Term.any.lang strict := by
  refine ⟨List.cons_ne_nil _ _, by simp [Utf8.decodeRune_ascii ha], fun _ => ?_, trivial⟩
  have hlt : a.toNat < 0x80 := by simpa [UInt8.lt_iff_toNat_lt] using ha
  rw [Utf8.decodeRune_ascii ha]
  intro h
  have := congrArg Prod.fst h
  simp only [Utf8.RuneError] at this
  omega

/-- A rune of three bytes and an ASCII byte are five runes of `*?*??` as the decoder reads
them: the first star takes the first byte, and each continuation byte is a rune. -/
theorem mem_lang_three_ascii {b0 b1 b2 a : UInt8} (h1 : Utf8.IsCont b1) (h2 : Utf8.IsCont b2)
    (ha : a < 0x80) : [b0, b1, b2, a] ∈ lang false [.star, .any, .star, .any, .any] := by
  simp only [mem_lang_cons, mem_lang_nil]
  exact ⟨[b0], trivial, [b1, b2, a], ⟨[b1], mem_any_cont h1, [b2, a],
    ⟨[], trivial, [b2, a], ⟨[b2], mem_any_cont h2, [a], ⟨[a], mem_any_ascii false ha, [], rfl,
    rfl⟩, rfl⟩, rfl⟩, rfl⟩, rfl⟩

/-- The matcher keeps the first rune for the first `?` and then finds no two runes in what is
left. -/
theorem Match_three_ascii {b0 b1 b2 a : UInt8} (h : (Utf8.decodeRune [b0, b1, b2]).2 = 3)
    (ha : a < 0x80) : Match (ascii "*?*??") [b0, b1, b2, a] = .ok false := by
  obtain ⟨h3, -, -⟩ := Utf8.decodeRune_three [a] h
  simp +decide [Match, wildcardMatch, scanChunk, skipStars, chunkLen, nextName, starScan,
    matchChunk, h, h3, Utf8.decodeRune_ascii ha, ascii, ch]

/-! ### Read strictly: a rune the matcher splits -/

/-- A nonempty suffix of the bytes of one rune, shorter than they are, begins with a
continuation byte. -/
theorem cont_head_of_suffix {b0 : UInt8} {cs w : Bytes} (hcs : ∀ c ∈ cs, Utf8.IsCont c)
    (hw : w <:+ b0 :: cs) (hne : w ≠ []) (hlen : w.length ≤ cs.length) :
    ∃ c rest, w = c :: rest ∧ Utf8.IsCont c := by
  rcases List.suffix_cons_iff.mp hw with rfl | hw'
  · simp only [List.length_cons] at hlen
    omega
  · obtain ⟨c, rest, rfl⟩ := List.exists_cons_of_ne_nil hne
    exact ⟨c, rest, rfl, hcs c (hw'.subset List.mem_cons_self)⟩

/-- Read strictly, the bytes of one rune are not two runes after a star: the last one would
begin inside the first. -/
theorem not_mem_lang_rune {b0 : UInt8} {cs : Bytes} (hcs : ∀ c ∈ cs, Utf8.IsCont c) :
    b0 :: cs ∉ lang true [.star, .any, .any] := by
  intro hmem
  simp only [mem_lang_cons, mem_lang_nil] at hmem
  obtain ⟨u, -, v, ⟨v1, hv1, v', ⟨v2, hv2, w, rfl, rfl⟩, rfl⟩, huv⟩ := hmem
  obtain ⟨hv2ne, -, hv2err, -⟩ := hv2
  rw [List.append_nil] at huv
  have hsuf : v2 <:+ b0 :: cs :=
    huv ▸ (List.suffix_append v1 v2).trans (List.suffix_append u (v1 ++ v2))
  have hlen : v2.length ≤ cs.length := by
    have := congrArg List.length huv
    have := List.length_pos_of_ne_nil hv1.1
    simp only [List.length_append, List.length_cons] at *
    omega
  obtain ⟨c, rest, rfl, hc⟩ := cont_head_of_suffix hcs hsuf hv2ne hlen
  exact hv2err rfl (Utf8.decodeRune_cont hc rest)

/-- After the star the matcher tries `??` at the second byte, where each `?` takes one
continuation byte. -/
theorem Match_three {b0 b1 b2 : UInt8} (h : (Utf8.decodeRune [b0, b1, b2]).2 = 3) :
    Match (ascii "*??") [b0, b1, b2] = .ok true := by
  obtain ⟨-, h1, h2⟩ := Utf8.decodeRune_three [] h
  simp +decide [Match, wildcardMatch, scanChunk, skipStars, chunkLen, nextName, starScan,
    matchChunk, h, Utf8.decodeRune_cont h1, Utf8.decodeRune_cont h2, ascii, ch]

/-- After the star the matcher tries `??` at the third byte, where each `?` takes one
continuation byte. -/
theorem Match_four {b0 b1 b2 b3 : UInt8} (h : (Utf8.decodeRune [b0, b1, b2, b3]).2 = 4) :
    Match (ascii "*??") [b0, b1, b2, b3] = .ok true := by
  obtain ⟨h1, h2, h3⟩ := Utf8.decodeRune_four h
  simp +decide [Match, wildcardMatch, scanChunk, skipStars, chunkLen, nextName, starScan,
    matchChunk, h, Utf8.decodeRune_cont h1, Utf8.decodeRune_cont h2, Utf8.decodeRune_cont h3,
    ascii, ch]

/-- `Match` decides neither reading of the glob language. Read as the decoder reads, a rune of
three bytes and an ASCII byte are in the language of `*?*??` but do not match it; read strictly,
a rune of three or four bytes is not in the language of `*??` but matches it. -/
theorem Match_not_lang :
    (∀ b0 b1 b2 a : UInt8, (Utf8.decodeRune [b0, b1, b2]).2 = 3 → a < 0x80 →
      terms (ascii "*?*??") = .ok [.star, .any, .star, .any, .any] ∧
        Match (ascii "*?*??") [b0, b1, b2, a] = .ok false ∧
        [b0, b1, b2, a] ∈ lang false [.star, .any, .star, .any, .any]) ∧
    (∀ e : Bytes, (e.length = 3 ∧ (Utf8.decodeRune e).2 = 3) ∨
        (e.length = 4 ∧ (Utf8.decodeRune e).2 = 4) →
      terms (ascii "*??") = .ok [.star, .any, .any] ∧ Match (ascii "*??") e = .ok true ∧
        e ∉ lang true [.star, .any, .any]) := by
  refine ⟨fun b0 b1 b2 a h ha => ?_, fun e he => ?_⟩
  · obtain ⟨-, h1, h2⟩ := Utf8.decodeRune_three [] h
    exact ⟨terms_star_any_star_any_any, Match_three_ascii h ha, mem_lang_three_ascii h1 h2 ha⟩
  · refine ⟨terms_star_any_any, ?_⟩
    rcases he with ⟨hlen, h⟩ | ⟨hlen, h⟩
    · match e, hlen with
      | [b0, b1, b2], _ =>
        obtain ⟨-, h1, h2⟩ := Utf8.decodeRune_three [] h
        exact ⟨Match_three h, not_mem_lang_rune (by simp [h1, h2])⟩
    · match e, hlen with
      | [b0, b1, b2, b3], _ =>
        obtain ⟨h1, h2, h3⟩ := Utf8.decodeRune_four h
        exact ⟨Match_four h, not_mem_lang_rune (by simp [h1, h2, h3])⟩

theorem Match_not_lang_euro :
    ((Utf8.decodeRune [0xE2, 0x82, 0xAC]).2 = 3 ∧ (0x61 : UInt8) < 0x80 ∧
      terms (ascii "*?*??") = .ok [.star, .any, .star, .any, .any] ∧
      Match (ascii "*?*??") [0xE2, 0x82, 0xAC, 0x61] = .ok false ∧
      [0xE2, 0x82, 0xAC, 0x61] ∈ lang false [.star, .any, .star, .any, .any]) ∧
    (([0xE2, 0x82, 0xAC] : Bytes).length = 3 ∧ (Utf8.decodeRune [0xE2, 0x82, 0xAC]).2 = 3) ∧
      terms (ascii "*??") = .ok [.star, .any, .any] ∧
      Match (ascii "*??") [0xE2, 0x82, 0xAC] = .ok true ∧
      [0xE2, 0x82, 0xAC] ∉ lang true [.star, .any, .any] :=
  ⟨⟨by decide, by decide, Match_not_lang.1 _ _ _ _ (by decide) (by decide)⟩,
    ⟨rfl, by decide⟩, Match_not_lang.2 _ (.inl ⟨rfl, by decide⟩)⟩

end Glob
