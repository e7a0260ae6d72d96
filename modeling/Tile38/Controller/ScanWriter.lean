import Tile38.Controller.ScanMatch
import Tile38.Collection.Search

/-!
# The scan writer (controller/scanner.go, scan.go, search.go)

Every search command hands the records it visits to `scanWriter.writeObject`, in the order of
its own iteration, and answers with `writeFoot`. The writer counts the records that pass the
MATCH pattern and the WHERE, WHEREIN and WHEREEVAL filters, skips the first `cursor` of them,
writes the next ones until `limit` are written, and stops there; the next cursor is
`cursor + numberItems` when the limit was hit and 0 otherwise.

Over any iteration of distinct ids that does not change between calls, following the cursors
from 0 gives the records that pass, each once and in order (`collectPages_fresh`). A record that
stops the scan (the one id a pattern that is not a glob names) must be the last that passes,
which distinct ids make true (`scan_stopsLast`); an iteration that hands over one id twice
breaks this.

`SCAN` and `SEARCH` with `COUNT` output, no WHERE (and for `SCAN` no WHEREIN) and a pattern
that matches everything answer `col.Count() - int(cursor)` without a scan. The scan counts
every record, the ones under the cursor included (`scan_count`), and `SEARCH` scans only
the `String` values while `Count()` counts every object.

Records are `(id, object, field values)`, as the collection hands them over. The scripts of
WHEREEVAL are functions of the named field values; text output is the list of ids written.
-/

open Geojson Glob

namespace Controller

universe u
variable {α : Type u}

/-- `outputT`. -/
inductive outputT where
  | outputUnknown
  | outputIDs
  | outputObjects
  | outputCount
  | outputPoints
  | outputHashes
  | outputBounds
  deriving DecidableEq, Repr

/-- `limitItems`, the page size when no LIMIT is given. -/
def limitItems : Nat := 100

/-- `math.MaxUint64`, the limit of a count. -/
def MaxUint64 : Nat := 2 ^ 64 - 1

/-- `int(x)` of a `uint64`: values from `2^63` on turn negative. -/
def goInt (x : Nat) : Int := if x < 2 ^ 63 then x else (x : Int) - 2 ^ 64

/-! ### Filters -/

/-- `whereT`: a field between two bounds, each inclusive or exclusive (`minx`, `maxx`). -/
structure whereT (α : Type u) where
  field : Bytes
  minx : Bool
  min : α
  maxx : Bool
  max : α

/-- `whereinT`: a field whose value is one of `valMap`. -/
structure whereinT (α : Type u) where
  field : Bytes
  valMap : List α

/-- `whereevalT`: a script, read as its verdict on the named field values. -/
structure whereevalT (α : Type u) where
  fn : List (Bytes × α) → Bool

def whereT.match [LinearOrder α] (w : whereT α) (value : α) : Bool :=
  (if !w.minx then !decide (value < w.min) else !decide (value ≤ w.min)) &&
    (if !w.maxx then !decide (value > w.max) else !decide (value ≥ w.max))

def whereinT.match [DecidableEq α] (w : whereinT α) (value : α) : Bool :=
  decide (value ∈ w.valMap)

/-! ### The writer -/

/-- The fields of `scanWriter` that `writeObject` and `writeFoot` read or change; `written`
holds the ids written, in order. -/
structure scanWriter (α : Type u) where
  fmap : List (Bytes × Nat)
  output : outputT
  wheres : List (whereT α)
  whereins : List (whereinT α)
  whereevals : List (whereevalT α)
  numberItems : Nat
  cursor : Nat
  limit : Nat
  hitLimit : Bool
  count : Nat
  globPattern : Bytes
  globEverything : Bool
  globSingle : Bool
  matchValues : Bool
  written : List Bytes

/-- `newScanWriter(...)`: an unknown output is an error; a zero limit becomes `MaxUint64` for
`COUNT` and `limitItems` otherwise. -/
def newScanWriter (fmap : List (Bytes × Nat)) (output : outputT) (globPattern : Bytes)
    (matchValues : Bool) (cursor limit : Nat) (wheres : List (whereT α))
    (whereins : List (whereinT α)) (whereevals : List (whereevalT α)) : Option (scanWriter α) :=
  if output = .outputUnknown then none
  else
    let everything := decide (globPattern = ascii "*" ∨ globPattern = [])
    some ⟨fmap, output, wheres, whereins, whereevals, 0, cursor,
      if limit = 0 then (if output = .outputCount then MaxUint64 else limitItems) else limit,
      false, 0, globPattern, everything, !everything && !IsGlob globPattern, matchValues, []⟩

/-- The tokens of a search or scan command that the writer and `SCAN` read
(`searchScanBaseTokens`). -/
structure searchScanBaseTokens (α : Type u) where
  cursor : Nat
  output : outputT
  glob : Bytes
  wheres : List (whereT α)
  whereins : List (whereinT α)
  whereevals : List (whereevalT α)
  limit : Nat
  desc : Bool

/-- The value of a named field: 0 for a field the collection does not know or the record does
not have. -/
def fieldValue [Zero α] (fmap : List (Bytes × Nat)) (fields : List α) (field : Bytes) : α :=
  match fmap.lookup field with
  | some idx => fields.getD idx 0
  | none => 0

variable [Field α] [LinearOrder α]

/-- `fieldMatch(fields, o)`: every WHERE, WHEREIN and WHEREEVAL accepts the record; `z` is the
object's calculated point. Both loops of the source decide the same. -/
def scanWriter.fieldMatch (sw : scanWriter α) (fields : List α) (o : Object α) : Bool :=
  sw.wheres.all (fun w => w.match
      (if w.field = ascii "z" then o.CalculatedPoint.Z else fieldValue sw.fmap fields w.field)) &&
    sw.whereins.all (fun w => w.match (fieldValue sw.fmap fields w.field)) &&
    sw.whereevals.all (fun w => w.fn (sw.fmap.map fun f => (f.1, fields.getD f.2 0)))

/-- `globMatch(id, o)`: whether the record matches, and whether the scan goes on. A pattern
that is not a glob names one id, and the scan ends at it; otherwise the id, or the value for
`SEARCH`, goes through `Match`. -/
def scanWriter.globMatch (sw : scanWriter α) (str : Object α → Bytes) (id : Bytes)
    (o : Object α) : Bool × Bool :=
  if !sw.globEverything then
    if sw.globSingle then
      if sw.globPattern ≠ id then (false, true) else (true, false)
    else if !Matched sw.globPattern (if sw.matchValues then str o else id) then (false, true)
    else (true, true)
  else (true, true)

/-- `writeObject(opts)`: the writer after the record, and whether the scan goes on. -/
def scanWriter.writeObject (sw : scanWriter α) (str : Object α → Bytes) (ignoreGlobMatch : Bool)
    (id : Bytes) (o : Object α) (fields : List α) : scanWriter α × Bool :=
  let (ok, keepGoing) := if ignoreGlobMatch then (true, true) else sw.globMatch str id o
  if !ok then (sw, true)
  else if !sw.fieldMatch fields o then (sw, true)
  else
    let sw := { sw with count := sw.count + 1 }
    if sw.count ≤ sw.cursor then (sw, true)
    else if sw.output = .outputCount then (sw, decide (sw.count < sw.limit))
    else
      let sw := { sw with written := sw.written ++ [id], numberItems := sw.numberItems + 1 }
      if sw.numberItems = sw.limit then ({ sw with hitLimit := true }, false)
      else (sw, keepGoing)

/-- A scan that feeds `writeObject` the records in order until it answers false. -/
def scanWriter.scan (sw : scanWriter α) (str : Object α → Bytes) (ignoreGlobMatch : Bool) :
    List (Bytes × Object α × List α) → scanWriter α
  | [] => sw
  | (id, o, fields) :: rest =>
    match sw.writeObject str ignoreGlobMatch id o fields with
    | (sw', true) => sw'.scan str ignoreGlobMatch rest
    | (sw', false) => sw'

/-- What `writeFoot` answers: the count for `COUNT` output, otherwise the next cursor and the
ids written. -/
inductive ScanReply where
  | count (n : Nat)
  | page (cursor : Nat) (ids : List Bytes)
  deriving DecidableEq, Repr

/-- `writeFoot()`: the next cursor is `cursor + numberItems` (a `uint64`) when the limit was
hit, 0 otherwise. -/
def scanWriter.writeFoot (sw : scanWriter α) : ScanReply :=
  if sw.output = .outputCount then .count sw.count
  else .page (if sw.hitLimit then (sw.cursor + sw.numberItems) % 2 ^ 64 else 0) sw.written

/-! ### One record -/

section Record

variable (sw : scanWriter α) (str : Object α → Bytes) (ign : Bool)

/-- A record passes the pattern (unless `ignoreGlobMatch`) and the filters. -/
def scanWriter.passes (e : Bytes × Object α × List α) : Bool :=
  (if ign then true else (sw.globMatch str e.1 e.2.1).1) && sw.fieldMatch e.2.2 e.2.1

/-- A passing record lets the scan go on. -/
def scanWriter.keeps (e : Bytes × Object α × List α) : Bool :=
  if ign then true else (sw.globMatch str e.1 e.2.1).2

/-- The ids of the records that pass, in the order of the iteration. -/
def scanWriter.matches (es : List (Bytes × Object α × List α)) : List Bytes :=
  (es.filter (sw.passes str ign)).map (·.1)

/-- No record passes after one that stops the scan. -/
def scanWriter.StopsLast (es : List (Bytes × Object α × List α)) : Prop :=
  ∀ pre e post, es = pre ++ e :: post → sw.passes str ign e = true →
    sw.keeps str ign e = false → ∀ e' ∈ post, sw.passes str ign e' = false

theorem writeObject_eq (id : Bytes) (o : Object α) (fields : List α) :
    sw.writeObject str ign id o fields =
      if sw.passes str ign (id, o, fields) = false then (sw, true)
      else if sw.count + 1 ≤ sw.cursor then ({ sw with count := sw.count + 1 }, true)
      else if sw.output = .outputCount then
        ({ sw with count := sw.count + 1 }, decide (sw.count + 1 < sw.limit))
      else if sw.numberItems + 1 = sw.limit then
        ({ sw with
            count := sw.count + 1, written := sw.written ++ [id],
            numberItems := sw.numberItems + 1, hitLimit := true }, false)
      else
        ({ sw with
            count := sw.count + 1, written := sw.written ++ [id],
            numberItems := sw.numberItems + 1 }, sw.keeps str ign (id, o, fields)) := by
  unfold scanWriter.writeObject scanWriter.passes scanWriter.keeps
  cases ign <;> dsimp only <;> cases sw.globMatch str id o with
  | mk ok keep => cases ok <;> cases sw.fieldMatch fields o <;> simp

theorem writeObject_frame (id : Bytes) (o : Object α) (fields : List α) :
    ∃ n k w h, (sw.writeObject str ign id o fields).1 =
      { sw with count := n, written := w, numberItems := k, hitLimit := h } := by
  rw [writeObject_eq]
  split_ifs <;> exact ⟨_, _, _, _, rfl⟩

omit [Field α] [LinearOrder α] in
theorem keeps_eq_false (e : Bytes × Object α × List α) :
    sw.keeps str ign e = false ↔
      ign = false ∧ sw.globEverything = false ∧ sw.globSingle = true ∧ sw.globPattern = e.1 := by
  unfold scanWriter.keeps scanWriter.globMatch
  by_cases hpat : sw.globPattern = e.1 <;>
    cases ign <;> cases sw.globEverything <;> cases sw.globSingle <;> simp [hpat, apply_ite Prod.snd]

theorem globPattern_of_passes {e : Bytes × Object α × List α} (hign : ign = false)
    (hE : sw.globEverything = false) (hS : sw.globSingle = true)
    (hp : sw.passes str ign e = true) : sw.globPattern = e.1 := by
  unfold scanWriter.passes scanWriter.globMatch at hp
  simp only [hign, hE, hS, Bool.not_false, if_true, Bool.false_eq_true, if_false,
    Bool.and_eq_true] at hp
  by_contra hne
  simp [hne] at hp

@[simp] theorem passes_counters (n k : Nat) (w : List Bytes) (h : Bool) (e : Bytes × Object α × List α) :
    ({ sw with count := n, written := w, numberItems := k, hitLimit := h } : scanWriter α).passes
      str ign e = sw.passes str ign e := rfl

omit [Field α] [LinearOrder α] in
@[simp] theorem keeps_counters (n k : Nat) (w : List Bytes) (h : Bool) (e : Bytes × Object α × List α) :
    ({ sw with count := n, written := w, numberItems := k, hitLimit := h } : scanWriter α).keeps
      str ign e = sw.keeps str ign e := rfl

@[simp] theorem matches_counters (n k : Nat) (w : List Bytes) (h : Bool)
    (es : List (Bytes × Object α × List α)) :
    ({ sw with count := n, written := w, numberItems := k, hitLimit := h } : scanWriter α).matches
      str ign es = sw.matches str ign es := rfl

theorem scan_cons (e : Bytes × Object α × List α) (rest : List (Bytes × Object α × List α)) :
    sw.scan str ign (e :: rest) =
      if (sw.writeObject str ign e.1 e.2.1 e.2.2).2 then
        (sw.writeObject str ign e.1 e.2.1 e.2.2).1.scan str ign rest
      else (sw.writeObject str ign e.1 e.2.1 e.2.2).1 := by
  obtain ⟨id, o, fields⟩ := e
  rcases h : sw.writeObject str ign id o fields with ⟨sw', _ | _⟩ <;> simp [scanWriter.scan, h]

theorem matches_cons (e : Bytes × Object α × List α) (rest : List (Bytes × Object α × List α)) :
    sw.matches str ign (e :: rest) =
      if sw.passes str ign e then e.1 :: sw.matches str ign rest else sw.matches str ign rest := by
  by_cases hp : sw.passes str ign e <;> simp [scanWriter.matches, hp]

theorem matches_of_everything (hE : sw.globEverything = true) (hw : sw.wheres = [])
    (hwi : sw.whereins = []) (hwe : sw.whereevals = []) (es : List (Bytes × Object α × List α)) :
    sw.matches str ign es = es.map (·.1) := by
  have hp : ∀ e, sw.passes str ign e = true := by
    intro e
    simp [scanWriter.passes, scanWriter.globMatch, scanWriter.fieldMatch, hE, hw, hwi, hwe]
  simp [scanWriter.matches, List.filter_eq_self.mpr fun e _ => hp e]

variable {sw str ign}

theorem scanWriter.StopsLast.tail {e : Bytes × Object α × List α}
    {rest : List (Bytes × Object α × List α)} (h : sw.StopsLast str ign (e :: rest)) :
    sw.StopsLast str ign rest :=
  fun pre e' post hsplit => h (e :: pre) e' post (by rw [hsplit, List.cons_append])

theorem scanWriter.StopsLast.matches_eq_nil {e : Bytes × Object α × List α}
    {rest : List (Bytes × Object α × List α)} (h : sw.StopsLast str ign (e :: rest))
    (hp : sw.passes str ign e = true) (hk : sw.keeps str ign e = false) :
    sw.matches str ign rest = [] := by
  simp only [scanWriter.matches, List.map_eq_nil_iff, List.filter_eq_nil_iff]
  intro e' he'
  simp [h [] e rest rfl hp hk e' he']

end Record

/-! ### A scan -/

section Run

variable (str : Object α → Bytes) (ign : Bool)

/-- A scan that has not hit its limit, over records in which nothing passes after a stop,
skips the passing records the cursor has not yet passed, writes the next ones up to the limit,
and hits the limit when that many are left. The induction is on the records; each case is one
branch of `writeObject_eq`. -/
theorem scan_run : ∀ (sw : scanWriter α) (es : List (Bytes × Object α × List α)),
    sw.output ≠ .outputCount → sw.numberItems < sw.limit → sw.StopsLast str ign es →
    let r := (sw.matches str ign es).drop (sw.cursor - sw.count)
    (sw.scan str ign es).written = sw.written ++ r.take (sw.limit - sw.numberItems) ∧
    (sw.scan str ign es).numberItems =
      sw.numberItems + (r.take (sw.limit - sw.numberItems)).length ∧
    (sw.scan str ign es).hitLimit = (sw.hitLimit || decide (sw.limit - sw.numberItems ≤ r.length))
  | sw, [], _, hlim, _ => by
    simp [scanWriter.scan, scanWriter.matches]
    omega
  | sw, (id, o, fields) :: rest, hout, hlim, hstop => by
    have htail := hstop.tail
    rw [scan_cons, matches_cons]
    by_cases hp : sw.passes str ign (id, o, fields) = true
    swap
    · have hw : sw.writeObject str ign id o fields = (sw, true) := by
        rw [writeObject_eq]
        simp [hp]
      simpa [hw, hp] using scan_run sw rest hout hlim htail
    rw [if_pos hp]
    by_cases hskip : sw.count + 1 ≤ sw.cursor
    · have hw : sw.writeObject str ign id o fields = ({ sw with count := sw.count + 1 }, true) := by
        rw [writeObject_eq]
        simp [hp, hskip]
      have hd : sw.cursor - sw.count = sw.cursor - (sw.count + 1) + 1 := by omega
      simpa [hw, hd] using scan_run { sw with count := sw.count + 1 } rest hout hlim htail
    have hd : sw.cursor - sw.count = 0 := by omega
    by_cases hlast : sw.numberItems + 1 = sw.limit
    · have hw : sw.writeObject str ign id o fields =
          ({ sw with
              count := sw.count + 1, written := sw.written ++ [id],
              numberItems := sw.numberItems + 1, hitLimit := true }, false) := by
        rw [writeObject_eq]
        simp [hp, hskip, hout, hlast]
      have h1 : sw.limit - sw.numberItems = 1 := by omega
      simp [hw, hd, h1]
    have h2 : sw.limit - sw.numberItems = sw.limit - (sw.numberItems + 1) + 1 := by omega
    have hw : sw.writeObject str ign id o fields =
        ({ sw with
            count := sw.count + 1, written := sw.written ++ [id],
            numberItems := sw.numberItems + 1 }, sw.keeps str ign (id, o, fields)) := by
      rw [writeObject_eq]
      simp [hp, hskip, hout, hlast]
    cases hk : sw.keeps str ign (id, o, fields)
    · have hnil := hstop.matches_eq_nil hp hk
      simp [hw, hk, hd, hnil, h2]
      omega
    · have hd' : sw.cursor - (sw.count + 1) = 0 := by omega
      obtain ⟨hw', hn, hh⟩ := scan_run
        { sw with
            count := sw.count + 1, written := sw.written ++ [id],
            numberItems := sw.numberItems + 1 } rest hout (by simp; omega) htail
      simp only [hd', List.drop_zero, matches_counters] at hw' hn hh
      simp only [hw, hk, hd, if_true, List.drop_zero, hw', hn, hh, h2, List.take_succ_cons]
      refine ⟨by simp, by simp; omega, by simp⟩

/-- With `COUNT` output a scan counts every passing record, those under the cursor included,
while the count stays within the limit; a stop of the pattern is not heeded. -/
theorem scan_count : ∀ (sw : scanWriter α) (es : List (Bytes × Object α × List α)),
    sw.output = .outputCount → sw.count + (sw.matches str ign es).length ≤ sw.limit →
    (sw.scan str ign es).count = sw.count + (sw.matches str ign es).length
  | sw, [], _, _ => by simp [scanWriter.scan, scanWriter.matches]
  | sw, (id, o, fields) :: rest, hout, hlim => by
    rw [scan_cons, matches_cons]
    rw [matches_cons] at hlim
    by_cases hp : sw.passes str ign (id, o, fields) = true
    swap
    · have hw : sw.writeObject str ign id o fields = (sw, true) := by
        rw [writeObject_eq]
        simp [hp]
      simp only [hp, Bool.false_eq_true, if_false] at hlim ⊢
      simpa [hw] using scan_count sw rest hout hlim
    simp only [hp, if_true, List.length_cons] at hlim ⊢
    have hw : sw.writeObject str ign id o fields =
        ({ sw with count := sw.count + 1 },
          if sw.count + 1 ≤ sw.cursor then true else decide (sw.count + 1 < sw.limit)) := by
      rw [writeObject_eq]
      by_cases hskip : sw.count + 1 ≤ sw.cursor <;> simp [hp, hskip, hout]
    by_cases hmore : sw.count + 1 ≤ sw.cursor ∨ sw.count + 1 < sw.limit
    · have ih := scan_count { sw with count := sw.count + 1 } rest hout (by simp; omega)
      have hgo : (if sw.count + 1 ≤ sw.cursor then true else decide (sw.count + 1 < sw.limit)) =
          true := by
        rcases hmore with h | h <;> simp [h]
      simp only [hw, hgo, if_true, ih, matches_counters]
      omega
    · have hstop : (if sw.count + 1 ≤ sw.cursor then true else decide (sw.count + 1 < sw.limit)) =
          false := by
        simp only [not_or, not_le, not_lt] at hmore
        simp [Nat.not_le.mpr hmore.1, Nat.not_lt.mpr hmore.2]
      have hnil : (sw.matches str ign rest).length = 0 := by omega
      simp only [hw, hstop, Bool.false_eq_true, if_false, hnil]

theorem scan_frame : ∀ (sw : scanWriter α) (es : List (Bytes × Object α × List α)),
    ∃ n k w h, sw.scan str ign es =
      { sw with count := n, written := w, numberItems := k, hitLimit := h }
  | sw, [] => ⟨_, _, _, _, rfl⟩
  | sw, e :: rest => by
    obtain ⟨n, k, w, h, hw⟩ := writeObject_frame sw str ign e.1 e.2.1 e.2.2
    rw [scan_cons, hw]
    split
    · obtain ⟨n', k', w', h', hs⟩ := scan_frame { sw with
        count := n, written := w, numberItems := k, hitLimit := h } rest
      exact ⟨n', k', w', h', hs⟩
    · exact ⟨n, k, w, h, rfl⟩

/-- A `COUNT` writer that starts from 0, has no filters and a pattern that matches everything
answers the number of records, within its limit. -/
theorem writeFoot_scan_count (sw : scanWriter α) (es : List (Bytes × Object α × List α))
    (hout : sw.output = .outputCount) (hc0 : sw.count = 0) (hE : sw.globEverything = true)
    (hw : sw.wheres = []) (hwi : sw.whereins = []) (hwe : sw.whereevals = [])
    (hsize : es.length ≤ sw.limit) :
    (sw.scan str ign es).writeFoot = .count es.length := by
  have hall := matches_of_everything sw str ign hE hw hwi hwe es
  have hcount := scan_count str ign sw es hout (by simpa [hall, hc0] using hsize)
  obtain ⟨n, k, w, h, hs⟩ := scan_frame str ign sw es
  rw [hs] at hcount ⊢
  simp_all [scanWriter.writeFoot]

/-- Over distinct ids a scan stops at its last passing record: a stop is the one id a pattern
without glob characters names, and no other record carries it. -/
theorem scan_stopsLast (sw : scanWriter α) {es : List (Bytes × Object α × List α)}
    (hids : (es.map (·.1)).Nodup) : sw.StopsLast str ign es := by
  intro pre e post hsplit hp hk e' he'
  obtain ⟨hign, hE, hS, hpat⟩ := (keeps_eq_false sw str ign e).mp hk
  by_contra hp'
  have hpat' := globPattern_of_passes sw str ign hign hE hS (by simpa using hp')
  rw [hsplit, List.map_append, List.map_cons] at hids
  have hnot : e.1 ∉ post.map (·.1) := (List.nodup_cons.mp (List.nodup_append.mp hids).2.1).1
  exact hnot (hpat ▸ hpat' ▸ List.mem_map_of_mem he')

/-- A fresh writer answers with the passing records from its cursor on, up to its limit, and
with the cursor past them when the limit was hit. -/
theorem writeFoot_scan_fresh (sw : scanWriter α) {es : List (Bytes × Object α × List α)}
    (hout : sw.output ≠ .outputCount) (hl : 0 < sw.limit) (hn : sw.numberItems = 0)
    (hc : sw.count = 0) (hh : sw.hitLimit = false) (hw : sw.written = [])
    (hstop : sw.StopsLast str ign es) :
    let r := (sw.matches str ign es).drop sw.cursor
    (sw.scan str ign es).writeFoot =
      .page (if sw.limit ≤ r.length then (sw.cursor + sw.limit) % 2 ^ 64 else 0) (r.take sw.limit) := by
  obtain ⟨hw', hn', hh'⟩ := scan_run str ign sw es hout (by omega) hstop
  obtain ⟨n, k, w, h, hs⟩ := scan_frame str ign sw es
  rw [hs] at hw' hn' hh' ⊢
  simp only [hn, hc, hh, hw, Nat.sub_zero, List.nil_append, Nat.zero_add, Bool.false_or] at hw' hn' hh'
  simp only [scanWriter.writeFoot, if_neg hout, hw', hn', hh', decide_eq_true_eq]
  split_ifs with hlim
  · rw [List.length_take_of_le hlim]
  · rfl

/-- A fresh writer without filters, whose pattern matches everything, answers every id in one
page when they are fewer than its limit. -/
theorem writeFoot_scan_everything (sw : scanWriter α) (es : List (Bytes × Object α × List α))
    (hout : sw.output ≠ .outputCount) (hn : sw.numberItems = 0) (hc : sw.count = 0)
    (hh : sw.hitLimit = false) (hw0 : sw.written = []) (hcur : sw.cursor = 0)
    (hE : sw.globEverything = true) (hw : sw.wheres = []) (hwi : sw.whereins = [])
    (hwe : sw.whereevals = []) (hlim : es.length < sw.limit) :
    (sw.scan str ign es).writeFoot = .page 0 (es.map (·.1)) := by
  have hstop : sw.StopsLast str ign es := by
    intro _ e _ _ _ hk
    have := ((keeps_eq_false sw str ign e).mp hk).2.1
    simp [hE] at this
  rw [writeFoot_scan_fresh str ign sw hout (by omega) hn hc hh hw0 hstop,
    matches_of_everything sw str ign hE hw hwi hwe, hcur]
  simp [Nat.not_le.mpr hlim, hlim.le]

end Run

/-! ### Paging -/

section Paging

omit [Field α] [LinearOrder α] in
/-- A client paging through a command: it issues the command at `cursor`, and again at each
cursor an answer returns until that is 0, and gathers the ids. `none` when an answer is not a
page or the fuel runs out. -/
def collectPages (page : Nat → Option ScanReply) : (fuel cursor : Nat) → Option (List Bytes)
  | 0, _ => none
  | fuel + 1, cursor =>
    match page cursor with
    | some (.page next ids) =>
      if next = 0 then some ids else (collectPages page fuel next).map (ids ++ ·)
    | _ => none

omit [Field α] [LinearOrder α] in
/-- Paging through a server that answers each cursor with the next `l` ids of `M` and the
cursor past them, as long as some are left, gives the rest of `M`. The induction is on the
fuel; each page takes `l` ids off. -/
theorem collectPages_drop {page : Nat → Option ScanReply} {M : List Bytes} {l : Nat} (hl : 0 < l)
    (hM : M.length < 2 ^ 64)
    (hpage : ∀ c ≤ M.length, page c = some (.page
      (if l ≤ (M.drop c).length then (c + l) % 2 ^ 64 else 0) ((M.drop c).take l))) :
    ∀ fuel c, c ≤ M.length → (M.length - c) / l < fuel →
      collectPages page fuel c = some (M.drop c)
  | 0, _, _, hfuel => absurd hfuel (Nat.not_lt_zero _)
  | fuel + 1, c, hc, hfuel => by
    rw [collectPages, hpage c hc]
    simp only [List.length_drop]
    by_cases hmore : l ≤ M.length - c
    · have hnext : (c + l) % 2 ^ 64 = c + l := Nat.mod_eq_of_lt (by omega)
      have hdiv : (M.length - c) / l = (M.length - (c + l)) / l + 1 := by
        rw [Nat.div_eq_sub_div hl hmore, Nat.sub_sub]
      rw [if_pos hmore, hnext, if_neg (by omega),
        collectPages_drop hl hM hpage fuel (c + l) (by omega) (by omega), Option.map_some,
        ← List.drop_drop, List.take_append_drop]
    · rw [if_neg hmore, if_pos rfl, List.take_of_length_le (by simp; omega)]

@[simp] theorem matches_cursor_limit (sw : scanWriter α) (str : Object α → Bytes) (ign : Bool)
    (c l : Nat) (es : List (Bytes × Object α × List α)) :
    ({ sw with cursor := c, limit := l } : scanWriter α).matches str ign es =
      sw.matches str ign es := rfl

/-- A command that makes a fresh writer from its cursor and limit, `mk c l`, and feeds it the
same records on every call, records with distinct ids. Following its cursors from 0, with any
limit of at least 1, gives the ids that one call with a limit past the records answers: each
once and in the same order. -/
theorem collectPages_fresh (str : Object α → Bytes) (ign : Bool) (mk : Nat → Nat → scanWriter α)
    (es : List (Bytes × Object α × List α))
    (hmk : ∀ c l, mk c l = { mk 0 1 with cursor := c, limit := l })
    (hout : (mk 0 1).output ≠ .outputCount) (hn : (mk 0 1).numberItems = 0)
    (hc : (mk 0 1).count = 0) (hh : (mk 0 1).hitLimit = false) (hw : (mk 0 1).written = [])
    (hids : (es.map (·.1)).Nodup) (hsize : es.length < 2 ^ 64) {L l : Nat} (hL : es.length < L)
    (hl : 0 < l) (fuel : Nat) (hfuel : es.length / l < fuel) :
    ∃ ids, ((mk 0 L).scan str ign es).writeFoot = .page 0 ids ∧
      collectPages (fun c => some ((mk c l).scan str ign es).writeFoot) fuel 0 = some ids := by
  let M := (mk 0 1).matches str ign es
  have hpage : ∀ c l, 0 < l → ((mk c l).scan str ign es).writeFoot =
      .page (if l ≤ (M.drop c).length then (c + l) % 2 ^ 64 else 0) ((M.drop c).take l) := by
    intro c l hl'
    rw [hmk c l]
    exact writeFoot_scan_fresh str ign _ hout hl' hn hc hh hw (scan_stopsLast str ign _ hids)
  have hMlen : M.length ≤ es.length := by
    simpa [M, scanWriter.matches] using List.length_filter_le _ es
  refine ⟨M, ?_, ?_⟩
  · rw [hpage 0 L (by omega), List.drop_zero, if_neg (by omega),
      List.take_of_length_le (by omega)]
  · have h := collectPages_drop hl (by omega) (fun c _ => congrArg some (hpage c l hl)) fuel 0
      (Nat.zero_le _) (lt_of_le_of_lt (Nat.div_le_div_right (by omega)) hfuel)
    simpa using h

end Paging

end Controller
