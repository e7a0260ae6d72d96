import Tile38.Lib.Utf8

/-!
# Glob matching (pkg/glob/match.go)

`wildcardMatch` is the shell-pattern matcher of Go's `path.Match` on byte strings: a pattern
is cut into chunks by `scanChunk` (a run of single-character terms, possibly after stars),
each chunk is matched at the head of the name by `matchChunk`, and after a star the chunk is
tried at every later position. Character classes are parsed by the `for` loop of
`matchChunk` (here `classRanges`), with escapes read by `getEsc`. The Go function returns a
triple `(rest, ok, err)` from `matchChunk`; since `ok` holds only without an error, it is
modelled as `Except GlobError (Option Bytes)`: an error, no match, or a match with the rest of
the name.
-/

namespace Glob

/-- A Go string: its bytes. -/
abbrev Bytes := List UInt8

/-- The byte of an ASCII character literal of the source. -/
def ch (c : Char) : UInt8 := c.toNat.toUInt8

/-- The bytes of an ASCII string literal of the source. -/
def ascii (s : String) : Bytes := s.toList.map ch

/-- The one error of the package. -/
inductive GlobError where
  | ErrBadPattern
  deriving DecidableEq, Repr

/-- The text of the error. -/
def GlobError.Error : GlobError → String
  | .ErrBadPattern => "syntax error in pattern"

/-! ### scanChunk -/

/-- The first loop of `scanChunk`: drop the leading stars, noting whether there was one. -/
def skipStars (star : Bool) : Bytes → Bool × Bytes
  | [] => (star, [])
  | c :: p => if c = ch '*' then skipStars true p else (star, c :: p)

/-- The `Scan` loop of `scanChunk`: the index of the first star outside a character class.
A backslash skips the byte after it, when there is one; `[` and `]` open and close a class. -/
def chunkLen (inrange : Bool) : Bytes → Nat
  | [] => 0
  | c :: p =>
    if c = ch '\\' then
      match p with
      | [] => 1
      | _ :: p' => 2 + chunkLen inrange p'
    else if c = ch '[' then 1 + chunkLen true p
    else if c = ch ']' then 1 + chunkLen false p
    else if c = ch '*' ∧ inrange = false then 0
    else 1 + chunkLen inrange p

/-- `scanChunk(pattern)`: whether stars lead, the chunk after them, and the rest. -/
def scanChunk (pattern : Bytes) : Bool × Bytes × Bytes :=
  match skipStars false pattern with
  | (star, p) => (star, p.take (chunkLen false p), p.drop (chunkLen false p))

/-! ### Character classes -/

/-- `getEsc(chunk)`: a possibly escaped character of a class and what follows it. The
character may not be `-` or `]`, must decode as a rune, and must not end the chunk. -/
def getEsc (chunk : Bytes) : Except GlobError (Nat × Bytes) :=
  match chunk with
  | [] => .error .ErrBadPattern
  | c :: rest =>
    if c = ch '-' ∨ c = ch ']' then .error .ErrBadPattern
    else
      let chunk := if c = ch '\\' then rest else c :: rest
      if chunk = [] then .error .ErrBadPattern
      else
        let d := Utf8.decodeRune chunk
        if (d.1 = Utf8.RuneError ∧ d.2 = 1) ∨ chunk.drop d.2 = [] then .error .ErrBadPattern
        else .ok (d.1, chunk.drop d.2)

/-- The upper end of a range: after `-` a second character, otherwise `lo` itself. -/
def rangeHi (lo : Nat) (chunk : Bytes) : Except GlobError (Nat × Bytes) :=
  if chunk.head? = some (ch '-') then getEsc chunk.tail else .ok (lo, chunk)

theorem getEsc_length {chunk chunk' : Bytes} {r : Nat} (h : getEsc chunk = .ok (r, chunk')) :
    chunk'.length < chunk.length := by
  match chunk, h with
  | c :: rest, h =>
    simp only [getEsc] at h
    have hbody : (if c = ch '\\' then rest else c :: rest).length ≤ (c :: rest).length := by
      split_ifs <;> simp
    generalize (if c = ch '\\' then rest else c :: rest) = body at h hbody
    split_ifs at h with h1 h2 h3
    have hw := Utf8.decodeRune_width_pos h2
    cases h
    simp only [List.length_drop, List.length_cons] at hbody ⊢
    omega

theorem rangeHi_length {lo : Nat} {chunk chunk' : Bytes} {hi : Nat}
    (h : rangeHi lo chunk = .ok (hi, chunk')) : chunk'.length ≤ chunk.length := by
  unfold rangeHi at h
  split_ifs at h
  · have := getEsc_length h
    simp only [List.length_tail] at this
    omega
  · cases h
    exact Nat.le_refl _

set_option linter.unusedVariables false in
/-- The range loop of a character class, after `[` and an optional `^`: read ranges until a
`]` that follows at least one range; `m` records whether the rune `r` fell in one. -/
def classRanges (r : Nat) (chunk : Bytes) (nrange : Nat) (m : Bool) :
    Except GlobError (Bytes × Bool) :=
  if chunk.head? = some (ch ']') ∧ 0 < nrange then .ok (chunk.tail, m)
  else
    match h1 : getEsc chunk with
    | .error e => .error e
    | .ok (lo, chunk1) =>
      match h2 : rangeHi lo chunk1 with
      | .error e => .error e
      | .ok (hi, chunk2) => classRanges r chunk2 (nrange + 1) (m || (lo ≤ r && r ≤ hi))
termination_by chunk.length
decreasing_by
  have := getEsc_length h1
  have := rangeHi_length h2
  omega

theorem classRanges_close {r : Nat} {chunk : Bytes} {nrange : Nat} {m : Bool}
    (hclose : chunk.head? = some (ch ']') ∧ 0 < nrange) :
    classRanges r chunk nrange m = .ok (chunk.tail, m) := by
  rw [classRanges, if_pos hclose]

theorem classRanges_step {r : Nat} {chunk : Bytes} {nrange : Nat} {m : Bool} {lo hi : Nat}
    {chunk1 chunk2 : Bytes} (hclose : ¬(chunk.head? = some (ch ']') ∧ 0 < nrange))
    (h1 : getEsc chunk = .ok (lo, chunk1)) (h2 : rangeHi lo chunk1 = .ok (hi, chunk2)) :
    classRanges r chunk nrange m = classRanges r chunk2 (nrange + 1) (m || (lo ≤ r && r ≤ hi)) := by
  rw [classRanges, if_neg hclose]
  split
  · rename_i heq
    rw [h1] at heq
    cases heq
  · rename_i lo' chunk1' heq
    rw [h1] at heq
    cases heq
    split
    · rename_i heq'
      rw [h2] at heq'
      cases heq'
    · rename_i hi' chunk2' heq'
      rw [h2] at heq'
      cases heq'
      rfl

theorem classRanges_length {r : Nat} {chunk : Bytes} {nrange : Nat} {m : Bool}
    {chunk' : Bytes} {m' : Bool} (h : classRanges r chunk nrange m = .ok (chunk', m')) :
    chunk'.length < chunk.length := by
  induction chunk, nrange, m using classRanges.induct r with
  | case1 chunk nrange m hclose =>
    rw [classRanges_close hclose] at h
    cases h
    cases chunk with
    | nil => simp at hclose
    | cons c rest => simp
  | case2 chunk nrange m hclose e h1 =>
    rw [classRanges, if_neg hclose] at h
    split at h <;> simp_all
  | case3 chunk nrange m hclose lo chunk1 h1 e h2 =>
    rw [classRanges, if_neg hclose] at h
    split at h <;> simp_all
    split at h <;> simp_all
  | case4 chunk nrange m hclose lo chunk1 h1 hi chunk2 h2 ih =>
    rw [classRanges_step hclose h1 h2] at h
    have := getEsc_length h1
    have := rangeHi_length h2
    have := ih h
    omega

/-! ### matchChunk -/

set_option linter.unusedVariables false in
/-- `matchChunk(chunk, s)`: match a chunk of single-character terms at the head of `s`;
`none` when it does not match, otherwise the rest of `s`. -/
def matchChunk (chunk s : Bytes) : Except GlobError (Option Bytes) :=
  match chunk, s with
  | [], s => .ok (some s)
  | _ :: _, [] => .ok none
  | c :: chunk', b :: s' =>
    if c = ch '[' then
      -- a character class consumes one rune of the name
      match chunk' with
      | [] => .error .ErrBadPattern
      | c1 :: rest =>
        let negated : Bool := c1 = ch '^'
        match h : classRanges (Utf8.decodeRune (b :: s')).1 (if negated then rest else c1 :: rest)
            0 false with
        | .error e => .error e
        | .ok (chunk'', m) =>
          if m = negated then .ok none
          else matchChunk chunk'' ((b :: s').drop (Utf8.decodeRune (b :: s')).2)
    else if c = ch '?' then matchChunk chunk' ((b :: s').drop (Utf8.decodeRune (b :: s')).2)
    else if c = ch '\\' then
      match chunk' with
      | [] => .error .ErrBadPattern
      | c1 :: chunk'' => if c1 ≠ b then .ok none else matchChunk chunk'' s'
    else if c ≠ b then .ok none else matchChunk chunk' s'
termination_by chunk.length
decreasing_by
  · have := classRanges_length h
    split_ifs at this <;> simp_all <;> omega
  all_goals simp only [List.length_cons]; omega

/-! ### wildcardMatch -/

/-- The star loop of `wildcardMatch`: try the chunk at `name[i+1:]` for `i = 0, 1, …`; a match
that leaves bytes over is skipped when the chunk is the last one. -/
def starScan (chunk rest : Bytes) : Bytes → Except GlobError (Option Bytes)
  | [] => .ok none
  | _ :: name =>
    match matchChunk chunk name with
    | .ok (some t) => if rest = [] ∧ t ≠ [] then starScan chunk rest name else .ok (some t)
    | .ok none => starScan chunk rest name
    | .error e => .error e

/-- One pass of the `Pattern` loop after `scanChunk`: match the chunk at the current position
(the last chunk must exhaust the name), or after a star at a later one; the name to go on with,
or `none` when the pattern fails. -/
def nextName (star : Bool) (chunk rest name : Bytes) : Except GlobError (Option Bytes) :=
  match matchChunk chunk name with
  | .ok (some t) =>
    if t = [] ∨ rest ≠ [] then .ok (some t)
    else if star then starScan chunk rest name else .ok none
  | .ok none => if star then starScan chunk rest name else .ok none
  | .error e => .error e

theorem skipStars_length (star : Bool) (p : Bytes) :
    (skipStars star p).2.length ≤ p.length := by
  induction p generalizing star with
  | nil => simp [skipStars]
  | cons c p ih =>
    unfold skipStars
    split_ifs
    · have := ih true
      simp only [List.length_cons]
      omega
    · exact Nat.le_refl _

theorem skipStars_of_head {star : Bool} {c : UInt8} {p : Bytes} (hc : c ≠ ch '*') :
    skipStars star (c :: p) = (star, c :: p) := by
  simp [skipStars, hc]

theorem chunkLen_pos {inrange : Bool} {c : UInt8} {p : Bytes} (hc : c ≠ ch '*') :
    0 < chunkLen inrange (c :: p) := by
  unfold chunkLen
  split_ifs <;> (try split) <;> first | omega | simp_all

theorem scanChunk_rest_length {pattern : Bytes} (hp : pattern ≠ [])
    (hne : ¬((scanChunk pattern).1 = true ∧ (scanChunk pattern).2.1 = [])) :
    (scanChunk pattern).2.2.length < pattern.length := by
  unfold scanChunk at hne ⊢
  obtain ⟨c, p, rfl⟩ := List.exists_cons_of_ne_nil hp
  by_cases hc : c = ch '*'
  · have h1 : skipStars false (c :: p) = skipStars true p := by simp [skipStars, hc]
    have := skipStars_length true p
    rw [h1]
    simp only [List.length_drop, List.length_cons]
    omega
  · rw [skipStars_of_head hc] at hne ⊢
    have := @chunkLen_pos false _ p hc
    simp only [List.length_drop, List.length_cons]
    omega

set_option linter.unusedVariables false in
/-- `wildcardMatch(pattern, name)`: whether the whole name matches the pattern. -/
def wildcardMatch (pattern name : Bytes) : Except GlobError Bool :=
  if hp : pattern = [] then .ok (name = [])
  else
    if hs : (scanChunk pattern).1 = true ∧ (scanChunk pattern).2.1 = [] then
      -- a trailing star matches the rest of the name
      .ok true
    else
      match nextName (scanChunk pattern).1 (scanChunk pattern).2.1 (scanChunk pattern).2.2
          name with
      | .error e => .error e
      | .ok none => .ok false
      | .ok (some t) => wildcardMatch (scanChunk pattern).2.2 t
termination_by pattern.length
decreasing_by exact scanChunk_rest_length hp hs

def Match (pattern name : Bytes) : Except GlobError Bool :=
  wildcardMatch pattern name

/-- What a caller that drops the error reads of `Match`: false on a bad pattern. -/
def Matched (pattern name : Bytes) : Bool :=
  match Match pattern name with
  | .ok b => b
  | .error _ => false

/-- The bytes that make a pattern a glob. -/
def isSpecial (c : UInt8) : Bool :=
  c = ch '[' || c = ch '*' || c = ch '?'

/-- `IsGlob(pattern)`: the pattern has a `[`, `*` or `?` and is well formed (matching it
against "whatever" gives no error). -/
def IsGlob (pattern : Bytes) : Bool :=
  if pattern.any isSpecial then (Match pattern (ascii "whatever")).isOk else false

/-! ### The literal head of a pattern -/

/-- A byte that a pattern matches literally: none of `[`, `*`, `?` and `\`. -/
def Plain (c : UInt8) : Prop := isSpecial c = false ∧ c ≠ ch '\\'

instance (c : UInt8) : Decidable (Plain c) := inferInstanceAs (Decidable (_ ∧ _))

theorem Plain.ne {c : UInt8} (hc : Plain c) :
    c ≠ ch '[' ∧ c ≠ ch '*' ∧ c ≠ ch '?' ∧ c ≠ ch '\\' := by
  obtain ⟨hs, hb⟩ := hc
  simp only [isSpecial, Bool.or_eq_false_iff, decide_eq_false_iff_not] at hs
  exact ⟨hs.1.1, hs.1.2, hs.2, hb⟩

theorem matchChunk_plain {c : UInt8} (hc : Plain c) (chunk : Bytes) (b : UInt8) (s : Bytes) :
    matchChunk (c :: chunk) (b :: s) = if c ≠ b then .ok none else matchChunk chunk s := by
  obtain ⟨h1, -, h3, h4⟩ := hc.ne
  cases chunk <;> simp only [matchChunk, if_neg h1, if_neg h3, if_neg h4]

theorem matchChunk_isPrefix {a : Bytes} (ha : ∀ c ∈ a, Plain c) (chunk : Bytes) :
    ∀ {s t : Bytes}, matchChunk (a ++ chunk) s = .ok (some t) → a <+: s := by
  induction a with
  | nil => intro s t _; exact List.nil_prefix
  | cons c a ih =>
    intro s t h
    have hc : Plain c := ha c (by simp)
    cases s with
    | nil => simp [matchChunk] at h
    | cons b s =>
      rw [List.cons_append, matchChunk_plain hc] at h
      split_ifs at h with hcb
      · cases h
      · simp only [ne_eq, Decidable.not_not] at hcb
        subst hcb
        exact List.cons_prefix_cons.mpr ⟨rfl, ih (fun x hx => ha x (by simp [hx])) h⟩

theorem chunkLen_cons_of_ne {inrange : Bool} {c : UInt8} (hc : c ≠ ch '\\') (p : Bytes) :
    chunkLen inrange (c :: p) =
      if c = ch '[' then 1 + chunkLen true p
      else if c = ch ']' then 1 + chunkLen false p
      else if c = ch '*' ∧ inrange = false then 0
      else 1 + chunkLen inrange p := by
  cases p <;> simp only [chunkLen, if_neg hc]

theorem chunkLen_plain_append {a : Bytes} (ha : ∀ c ∈ a, Plain c) (r : Bytes) :
    chunkLen false (a ++ r) = a.length + chunkLen false r := by
  induction a with
  | nil => simp
  | cons c a ih =>
    obtain ⟨h1, h2, -, h4⟩ := (ha c (by simp)).ne
    have ih' := ih (fun x hx => ha x (by simp [hx]))
    rw [List.cons_append, chunkLen_cons_of_ne h4, if_neg h1]
    by_cases hr : c = ch ']'
    · rw [if_pos hr, ih', List.length_cons]
      omega
    · rw [if_neg hr, if_neg (fun h => h2 h.1), ih', List.length_cons]
      omega

theorem scanChunk_plain_append {a : Bytes} (ha : ∀ c ∈ a, Plain c) (hne : a ≠ []) (r : Bytes) :
    scanChunk (a ++ r) =
      (false, a ++ r.take (chunkLen false r), r.drop (chunkLen false r)) := by
  obtain ⟨c, a', rfl⟩ := List.exists_cons_of_ne_nil hne
  have hc : c ≠ ch '*' := (ha c (by simp)).ne.2.1
  rw [scanChunk, List.cons_append, skipStars_of_head hc, ← List.cons_append]
  dsimp only
  rw [chunkLen_plain_append ha, List.take_append, List.drop_append,
    List.take_of_length_le (by omega), List.drop_eq_nil_of_le (by omega)]
  simp

theorem nextName_false {chunk rest name t : Bytes}
    (h : nextName false chunk rest name = .ok (some t)) : matchChunk chunk name = .ok (some t) := by
  unfold nextName at h
  simp only [Bool.false_eq_true, if_false] at h
  split at h
  · rename_i t' heq
    split_ifs at h <;> cases h
    exact heq
  · cases h
  · cases h

theorem wildcardMatch_isPrefix {a : Bytes} (ha : ∀ c ∈ a, Plain c) (hne : a ≠ []) (r : Bytes)
    {s : Bytes} (h : wildcardMatch (a ++ r) s = .ok true) : a <+: s := by
  have hp : a ++ r ≠ [] := by simp [hne]
  rw [wildcardMatch, dif_neg hp, scanChunk_plain_append ha hne] at h
  simp only [Bool.false_eq_true, false_and, dite_false] at h
  split at h
  · cases h
  · cases h
  · rename_i t hnext
    exact matchChunk_isPrefix ha _ (nextName_false hnext)


/-! ### Patterns of plain bytes -/

theorem matchChunk_plain_eq {a : Bytes} (ha : ∀ c ∈ a, Plain c) (s : Bytes) :
    matchChunk a s = .ok (if a <+: s then some (s.drop a.length) else none) := by
  induction a generalizing s with
  | nil => simp [matchChunk]
  | cons c a ih =>
    have hc : Plain c := ha c List.mem_cons_self
    have ih' := ih (fun x hx => ha x (List.mem_cons_of_mem c hx))
    cases s with
    | nil => simp [matchChunk]
    | cons b s =>
      rw [matchChunk_plain hc]
      by_cases hcb : c = b
      · subst hcb
        rw [if_neg (not_not.mpr rfl), ih']
        simp [List.cons_prefix_cons]
      · rw [if_pos hcb]
        simp [List.cons_prefix_cons, hcb]

theorem wildcardMatch_plain {a : Bytes} (ha : ∀ c ∈ a, Plain c) (hne : a ≠ []) (s : Bytes) :
    wildcardMatch a s = .ok (decide (s = a)) := by
  have hscan := scanChunk_plain_append ha hne []
  rw [List.append_nil] at hscan
  rw [wildcardMatch, dif_neg hne, hscan]
  simp only [List.take_nil, List.drop_nil, List.append_nil, Bool.false_eq_true, false_and,
    dite_false]
  rw [nextName, matchChunk_plain_eq ha]
  by_cases hp : a <+: s
  · obtain ⟨t, rfl⟩ := hp
    simp only [List.prefix_append, if_true, List.drop_left]
    cases t with
    | nil => simp [wildcardMatch]
    | cons x t => simp
  · simp only [hp, if_false]
    have : s ≠ a := fun h => hp (h ▸ List.prefix_refl a)
    simp [this]

theorem wildcardMatch_plain_star {a : Bytes} (ha : ∀ c ∈ a, Plain c) (hne : a ≠ []) (s : Bytes) :
    wildcardMatch (a ++ [ch '*']) s = .ok (decide (a <+: s)) := by
  have hp : a ++ [ch '*'] ≠ [] := by simp
  have hscan := scanChunk_plain_append ha hne [ch '*']
  have hlen : chunkLen false [ch '*'] = 0 := by decide
  rw [hlen, List.take_zero, List.drop_zero, List.append_nil] at hscan
  rw [wildcardMatch, dif_neg hp, hscan]
  simp only [Bool.false_eq_true, false_and, dite_false]
  rw [nextName, matchChunk_plain_eq ha]
  by_cases hpre : a <+: s
  · have hstar : wildcardMatch [ch '*'] (s.drop a.length) = .ok true := by
      rw [wildcardMatch, dif_neg (List.cons_ne_nil _ _)]
      simp [scanChunk, skipStars, chunkLen]
    simp [hpre, hstar]
  · simp [hpre]

end Glob
