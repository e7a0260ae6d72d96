import Tile38.Glob.Parse

/-!
# SCAN and PDEL with a MATCH pattern (controller/scan.go, crud.go, scanner.go)

`cmdScan` and `cmdPdel` narrow the scan of a collection's ids by the limits of
`glob.Parse(pattern, desc)`: both limits empty means a full scan of the items btree
(`Collection.Scan`), otherwise `Collection.ScanRange(Limits[0], Limits[1], desc)`, which is the
btree's `AscendRange [start, stop)` or `DescendRange [start, stop)` read downwards, i.e. the ids
`x` with `stop < x ≤ start`. Every visited id then goes through the scan writer's `globMatch`
(SCAN) or through `Match` (PDEL).

The items btree is represented by its ids in ascending order; only the order of visits and the
ranges matter here.

Narrowing is exact when the pattern starts with a star, is empty, or has a nonempty literal
prefix without a backslash whose last byte is not `0xFF` (`PrefixSound`): then SCAN and PDEL
report what the full scan reports. A pattern that starts with `[` or `?` gets the empty range
and reports nothing at all.
-/

namespace Controller

open Glob

/-- `Collection.Scan(desc, …)`: every id, ascending or descending. -/
def Scan (ids : List Bytes) (desc : Bool) : List Bytes :=
  if desc then ids.reverse else ids

/-- The ids `Collection.ScanRange(start, stop, desc, …)` visits: `[start, stop)` ascending,
`stop < x ≤ start` descending. -/
def InRange (start stop : Bytes) (desc : Bool) (x : Bytes) : Prop :=
  if desc then stop < x ∧ x ≤ start else start ≤ x ∧ x < stop

instance (start stop : Bytes) (desc : Bool) (x : Bytes) : Decidable (InRange start stop desc x) :=
  inferInstanceAs (Decidable (if desc then _ else _))

def ScanRange (ids : List Bytes) (start stop : Bytes) (desc : Bool) : List Bytes :=
  Scan (ids.filter (fun x => InRange start stop desc x)) desc

/-- The glob state of `newScanWriter`: `*` and the empty pattern match everything, a pattern
that is not a glob matches only the id equal to it. -/
structure ScanGlob where
  globPattern : Bytes
  globEverything : Bool
  globSingle : Bool

/-- The glob fields set by `newScanWriter`. -/
def newScanGlob (globPattern : Bytes) : ScanGlob :=
  if globPattern = ascii "*" ∨ globPattern = [] then ⟨globPattern, true, false⟩
  else ⟨globPattern, false, !IsGlob globPattern⟩

/-- `scanWriter.globMatch(id, o)` for a scan of ids (`matchValues` false): whether the id
matches, and whether the scan goes on. -/
def ScanGlob.globMatch (sw : ScanGlob) (id : Bytes) : Bool × Bool :=
  if !sw.globEverything then
    if sw.globSingle then
      if sw.globPattern ≠ id then (false, true) else (true, false)
    else if !Matched sw.globPattern id then (false, true)
    else (true, true)
  else (true, true)

/-- The ids that `writeObject` passes on along a scan, before its field, cursor and limit
tests: an id that does not match is skipped, and a matching one ends the scan when
`globMatch` says so. -/
def ScanGlob.writeIds (sw : ScanGlob) : List Bytes → List Bytes
  | [] => []
  | id :: rest =>
    match sw.globMatch id with
    | (false, _) => sw.writeIds rest
    | (true, keepGoing) => id :: if keepGoing then sw.writeIds rest else []

/-- The ids `cmdScan` hands to the writer for `SCAN key [DESC] MATCH pattern`. -/
def ScanIds (ids : List Bytes) (pattern : Bytes) (desc : Bool) : List Bytes :=
  let g := Parse pattern desc
  if g.Limits.1 = [] ∧ g.Limits.2 = [] then (newScanGlob pattern).writeIds (Scan ids desc)
  else (newScanGlob pattern).writeIds (ScanRange ids g.Limits.1 g.Limits.2 desc)

/-- The ids `cmdPdel` deletes for `PDEL key pattern`. -/
def PdelIds (ids : List Bytes) (pattern : Bytes) : List Bytes :=
  let g := Parse pattern false
  if g.Limits.1 = [] ∧ g.Limits.2 = [] then (Scan ids false).filter (Matched pattern)
  else (ScanRange ids g.Limits.1 g.Limits.2 false).filter (Matched pattern)

/-- The patterns whose limits are right: a leading star, the empty pattern, or a nonempty
literal prefix with no backslash whose last byte is not `0xFF`. -/
def PrefixSound (pattern : Bytes) : Prop :=
  pattern.head? = some (ch '*') ∨ pattern = [] ∨
    (literalPrefix pattern ≠ [] ∧ ch '\\' ∉ literalPrefix pattern ∧
      (literalPrefix pattern).getLast? ≠ some 0xFF)

instance (pattern : Bytes) : Decidable (PrefixSound pattern) :=
  inferInstanceAs (Decidable (_ ∨ _ ∨ _))

/-! ### Dropping ids that cannot match -/

theorem writeIds_filter (sw : ScanGlob) (P : Bytes → Bool) :
    ∀ l : List Bytes, (∀ x ∈ l, P x = false → (sw.globMatch x).1 = false) →
      sw.writeIds (l.filter P) = sw.writeIds l
  | [], _ => rfl
  | x :: l, h => by
    have ih := writeIds_filter sw P l (fun y hy => h y (List.mem_cons_of_mem x hy))
    by_cases hx : P x = true
    · rw [List.filter_cons_of_pos hx]
      simp only [ScanGlob.writeIds, ih]
    · have hskip := h x List.mem_cons_self (by simpa using hx)
      rw [List.filter_cons_of_neg hx, ih]
      rcases hm : sw.globMatch x with ⟨ok, keep⟩
      rw [hm] at hskip
      cases hskip
      simp only [ScanGlob.writeIds, hm]

theorem scan_filter (ids : List Bytes) (desc : Bool) (P : Bytes → Bool) :
    Scan (ids.filter P) desc = (Scan ids desc).filter P := by
  cases desc <;> simp [Scan, List.filter_reverse]

/-! ### Where the matches of a sound pattern lie -/

section Sound

variable {pattern : Bytes}

theorem literalPrefix_plain (hb : ch '\\' ∉ literalPrefix pattern) :
    ∀ c ∈ literalPrefix pattern, Plain c := by
  intro c hc
  exact ⟨literalPrefix_not_special hc, fun h => hb (h ▸ hc)⟩

theorem globMatch_isPrefix (hne : literalPrefix pattern ≠ [])
    (hb : ch '\\' ∉ literalPrefix pattern) {x : Bytes}
    (hx : ((newScanGlob pattern).globMatch x).1 = true) : literalPrefix pattern <+: x := by
  obtain ⟨rest, hpat⟩ := literalPrefix_append pattern
  have hplain := literalPrefix_plain hb
  have hev : ¬(pattern = ascii "*" ∨ pattern = []) := by
    obtain ⟨c, p, hcp⟩ := List.exists_cons_of_ne_nil hne
    have hc := (hplain c (hcp ▸ List.mem_cons_self)).ne.2.1
    rintro (h | h) <;> rw [hpat, hcp] at h
    · have h1 := congrArg List.head? h
      simp only [List.cons_append, List.head?_cons] at h1
      exact hc (Option.some.inj h1)
    · simp at h
  simp only [newScanGlob, if_neg hev, ScanGlob.globMatch] at hx
  by_cases hs : IsGlob pattern
  · simp only [hs, Bool.not_true, Bool.false_eq_true, if_false, Bool.not_false, if_true] at hx
    split_ifs at hx with hm
    simp only [Bool.not_eq_true', Bool.not_eq_false] at hm
    unfold Matched at hm
    split at hm
    · rename_i b hmatch
      subst hm
      rw [hpat] at hmatch
      exact wildcardMatch_isPrefix hplain hne rest hmatch
    · cases hm
  · simp only [Bool.not_eq_true] at hs
    simp only [hs, Bool.not_false, if_true] at hx
    split_ifs at hx with hx'
    simp only [ne_eq, Decidable.not_not] at hx'
    rw [← hx']
    exact ⟨rest, hpat.symm⟩

theorem inRange_of_isPrefix (desc : Bool) (hne : literalPrefix pattern ≠ [])
    (hff : (literalPrefix pattern).getLast? ≠ some 0xFF) {x : Bytes}
    (hx : literalPrefix pattern <+: x) :
    InRange (Parse pattern desc).Limits.1 (Parse pattern desc).Limits.2 desc x := by
  obtain ⟨u, rfl⟩ := hx
  obtain ⟨init, last, hsplit⟩ : ∃ init last, literalPrefix pattern = init ++ [last] :=
    ⟨_, _, (List.dropLast_append_getLast hne).symm⟩
  have hlast : last ≠ 0xFF := by
    intro h
    rw [hsplit, h] at hff
    simp at hff
  rw [Parse_limits_of_literal desc hne, hsplit]
  cases desc
  · exact ⟨List.le_append_left, append_lt_incLast hlast u⟩
  · exact ⟨decLast_lt init last u, List.le_of_lt (append_lt_incLast hlast u)⟩

theorem globMatch_inRange (hp : PrefixSound pattern) (desc : Bool) {x : Bytes}
    (hlim : ¬((Parse pattern desc).Limits.1 = [] ∧ (Parse pattern desc).Limits.2 = []))
    (hx : ((newScanGlob pattern).globMatch x).1 = true) :
    InRange (Parse pattern desc).Limits.1 (Parse pattern desc).Limits.2 desc x := by
  rcases hp with hstar | hnil | ⟨hne, hb, hff⟩
  · exact absurd (by simp [Parse_limits_of_star desc (Or.inl hstar)]) hlim
  · exact absurd (by simp [Parse_limits_of_star desc (Or.inr hnil)]) hlim
  · exact inRange_of_isPrefix desc hne hff (globMatch_isPrefix hne hb hx)

end Sound

/-! ### SCAN and PDEL report what the full scan reports -/

theorem ScanIds_eq_full_scan (ids : List Bytes) {pattern : Bytes} (hp : PrefixSound pattern)
    (desc : Bool) :
    ScanIds ids pattern desc = (newScanGlob pattern).writeIds (Scan ids desc) := by
  unfold ScanIds
  dsimp only
  split_ifs with hlim
  · rfl
  · rw [ScanRange, scan_filter]
    apply writeIds_filter
    intro x _ hout
    by_contra hm
    simp only [Bool.not_eq_false] at hm
    simp only [decide_eq_false_iff_not] at hout
    exact hout (globMatch_inRange hp desc hlim hm)

theorem PdelIds_eq_filter (ids : List Bytes) {pattern : Bytes} (hp : PrefixSound pattern) :
    PdelIds ids pattern = ids.filter (Matched pattern) := by
  unfold PdelIds
  dsimp only
  split_ifs with hlim
  · rfl
  · rw [ScanRange, scan_filter, Scan, if_neg Bool.false_ne_true, List.filter_filter]
    apply List.filter_congr
    intro x _
    by_cases hm : Matched pattern x = true
    · rcases hp with hstar | hnil | ⟨hne, hb, hff⟩
      · exact absurd (by simp [Parse_limits_of_star false (Or.inl hstar)]) hlim
      · exact absurd (by simp [Parse_limits_of_star false (Or.inr hnil)]) hlim
      · have hpre : literalPrefix pattern <+: x := by
          obtain ⟨rest, hpat⟩ := literalPrefix_append pattern
          unfold Matched at hm
          split at hm
          · rename_i b hmatch
            subst hm
            rw [hpat] at hmatch
            exact wildcardMatch_isPrefix (literalPrefix_plain hb) hne rest hmatch
          · cases hm
        simp [hm, inRange_of_isPrefix false hne hff hpre]
    · simp [hm]

/-- Narrowing by the limits of a sound pattern loses nothing: `SCAN … MATCH pattern` passes on
what the full scan passes on, and `PDEL key pattern` deletes every id that matches. -/
theorem scan_pdel_sound (ids : List Bytes) {pattern : Bytes} (hp : PrefixSound pattern)
    (desc : Bool) :
    ScanIds ids pattern desc = (newScanGlob pattern).writeIds (Scan ids desc) ∧
      PdelIds ids pattern = ids.filter (Matched pattern) :=
  ⟨ScanIds_eq_full_scan ids hp desc, PdelIds_eq_filter ids hp⟩

theorem scan_pdel_sound_trucks :
    PrefixSound (ascii "truck*") ∧
      ScanIds [ascii "car", ascii "truck1"] (ascii "truck*") true =
        (newScanGlob (ascii "truck*")).writeIds (Scan [ascii "car", ascii "truck1"] true) ∧
      PdelIds [ascii "car", ascii "truck1"] (ascii "truck*") =
        [ascii "car", ascii "truck1"].filter (Matched (ascii "truck*")) :=
  ⟨by decide, scan_pdel_sound _ (by decide) true⟩

example : PrefixSound (ascii "truck*") ∧ ¬PrefixSound (ascii "a\\*b") ∧
    ¬PrefixSound [0xFF, ch '*'] := by
  decide

/-! ### A pattern that starts with `[` or `?` -/

theorem not_inRange_self (p : Bytes) (desc : Bool) (x : Bytes) : ¬InRange p p desc x := by
  cases desc
  · rintro ⟨h1, h2⟩
    exact List.not_lt.mpr h1 h2
  · rintro ⟨h1, h2⟩
    exact List.not_lt.mpr h2 h1

theorem filter_inRange_self (p : Bytes) (desc : Bool) (l : List Bytes) :
    l.filter (fun x => InRange p p desc x) = [] := by
  rw [List.filter_eq_nil_iff]
  intro x _
  simpa using not_inRange_self p desc x

/-- A pattern that starts with `[` or `?` scans the empty range `[pattern, pattern)`: SCAN
reports no id, whatever matches it. -/
theorem ScanIds_of_special_head (ids : List Bytes) {c : UInt8} {p : Bytes}
    (hs : isSpecial c = true) (hc : c ≠ ch '*') (desc : Bool) :
    ScanIds ids (c :: p) desc = [] := by
  unfold ScanIds
  simp only [Parse_limits_of_special_head desc hs hc, reduceCtorEq, and_self, if_false,
    ScanRange, filter_inRange_self]
  cases desc <;> rfl

theorem PdelIds_of_special_head (ids : List Bytes) {c : UInt8} {p : Bytes}
    (hs : isSpecial c = true) (hc : c ≠ ch '*') :
    PdelIds ids (c :: p) = [] := by
  unfold PdelIds
  simp only [Parse_limits_of_special_head false hs hc, reduceCtorEq, and_self, if_false,
    ScanRange, filter_inRange_self]
  rfl

theorem scan_match_question_misses :
    Matched (ascii "?") (ascii "a") = true ∧
      (newScanGlob (ascii "?")).writeIds (Scan [ascii "a"] false) = [ascii "a"] ∧
      ScanIds [ascii "a"] (ascii "?") false = [] ∧
      PdelIds [ascii "a"] (ascii "?") = [] := by
  have hq : ascii "?" = [63] := by decide
  have ha : ascii "a" = [97] := by decide
  have hs : isSpecial 63 = true := by decide
  have hc : (63 : UInt8) ≠ ch '*' := by decide
  rw [hq, ha]
  -- "?" matches "a" and is a glob, so the full scan writes "a"
  have hm : Matched [63] [97] = true := by
    simp [Matched, Match, wildcardMatch, scanChunk, skipStars, chunkLen, ch, nextName,
      matchChunk, Utf8.decodeRune, Utf8.firstByte]
  have hglob : IsGlob [63] = true := by
    simp [IsGlob, isSpecial, Match, wildcardMatch, scanChunk, skipStars, chunkLen, ch, ascii,
      nextName, matchChunk, Utf8.decodeRune, Utf8.firstByte, Except.isOk, Except.toBool]
  have hsw : newScanGlob [63] = ⟨[63], false, !IsGlob [63]⟩ := if_neg (by decide)
  refine ⟨hm, ?_, ScanIds_of_special_head _ hs hc false, PdelIds_of_special_head _ hs hc⟩
  simp [Scan, ScanGlob.writeIds, ScanGlob.globMatch, hsw, hglob, hm]

end Controller
