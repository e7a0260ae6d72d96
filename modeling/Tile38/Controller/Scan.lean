import Tile38.Controller.ScanWriter
import Tile38.Collection.Invariant

/-!
# SCAN and SEARCH (controller/scan.go, search.go)

`cmdScan` hands the writer the items of a collection in the order of their ids, and
`cmdSearch` the `String` values in the order of the values B-tree (`String()`, then id); both
narrow the iteration to the limits of `glob.Parse` when the pattern has a literal prefix.

With `COUNT` output, no WHERE (for `SCAN` no WHEREIN either) and a pattern that matches
everything, both answer `col.Count() - int(cursor)` (0 when negative) without iterating. The
iteration counts every record that passes, those under the cursor included
(`scanGeneral_count`), and `SEARCH` iterates only the `String` values while `Count()` counts
every object; WHEREEVAL is left out of the test and `int(cursor)` turns cursors from `2^63` on
negative.

Both iterations are fixed by the collection, so the paging of `ScanWriter` applies to them:
their ids are distinct (`scanRecords_ids_nodup`, `searchRecords_ids_nodup`).
-/

open Geojson Glob Collection

namespace Controller

universe u
variable {α : Type u} {str : Object α → Bytes}

/-! ### The iterations -/

/-- `itemT.Less` in the `valueOrdered` context: by `String()`, then by id. -/
def valueLess (a b : Bytes × Bytes) : Bool :=
  decide (a.1 < b.1) || (decide (a.1 = b.1) && decide (a.2 < b.2))

/-- The records `Collection.Scan(desc, …)` hands over: the items in the order of their ids,
ascending or descending. -/
def scanRecords (c : Collection α str) (desc : Bool) : List (Bytes × Object α × List α) :=
  let asc := (c.items.items.mergeSort fun a b => decide (a.id ≤ b.id)).map (itemT.found c)
  if desc then asc.reverse else asc

/-- The records `Collection.SearchValues(desc, …)` hands over: the `String` items in the order
of the values B-tree, ascending or descending. -/
def searchRecords (c : Collection α str) (desc : Bool) : List (Bytes × Object α × List α) :=
  let asc := (c.values.items.mergeSort fun a b => !valueLess (valueKey str b) (valueKey str a)).map
    (itemT.found c)
  if desc then asc.reverse else asc

/-- The values `SearchValuesRange(start, end, desc, …)` visits: the B-tree range between the
pivots `itemT{object: String(start)}` and `itemT{object: String(end)}`, whose ids are empty. -/
def valueInRange (start stop : Bytes) (desc : Bool) (key : Bytes × Bytes) : Bool :=
  if desc then !valueLess (start, []) key && valueLess (stop, []) key
  else !valueLess key (start, []) && valueLess key (stop, [])

/-- Go's `int` arithmetic: two's complement on 64 bits. -/
def wrapInt64 (x : Int) : Int := (x + 2 ^ 63) % 2 ^ 64 - 2 ^ 63

/-- The count of the shortcut: `col.Count() - int(cursor)`, 0 when that is negative. -/
def shortcutCount (count : Int) (cursor : Nat) : Nat :=
  let n := wrapInt64 (count - goInt cursor)
  if n < 0 then 0 else n.toNat

section Commands

variable [Field α] [LinearOrder α]

/-- The iteration of `cmdScan`: `Scan`, or `ScanRange` between the limits of the pattern. -/
def scanIterate (c : Collection α str) (desc : Bool) (sw : scanWriter α) : scanWriter α :=
  let g := Parse sw.globPattern desc
  if g.Limits.1 = [] ∧ g.Limits.2 = [] then sw.scan str false (scanRecords c desc)
  else sw.scan str false ((scanRecords c desc).filter fun r =>
    decide (InRange g.Limits.1 g.Limits.2 desc r.1))

/-- `cmdScan(msg)` on a collection: the count shortcut, or the iteration. -/
def cmdScan (c : Collection α str) (s : searchScanBaseTokens α) : Option ScanReply :=
  (newScanWriter c.fieldMap.items s.output s.glob false s.cursor s.limit s.wheres s.whereins
    s.whereevals).map fun sw =>
      if sw.output = .outputCount ∧ sw.wheres = [] ∧ sw.whereins = [] ∧ sw.globEverything = true
      then { sw with count := shortcutCount c.Count s.cursor }.writeFoot
      else (scanIterate c s.desc sw).writeFoot

/-- What `cmdScan` answers by its iteration, the shortcut left out. -/
def scanGeneral (c : Collection α str) (s : searchScanBaseTokens α) : Option ScanReply :=
  (newScanWriter c.fieldMap.items s.output s.glob false s.cursor s.limit s.wheres s.whereins
    s.whereevals).map fun sw => (scanIterate c s.desc sw).writeFoot

/-- The iteration of `cmdSearch`: `SearchValues`, or `SearchValuesRange` between the limits of
the pattern, where `globSingle` is switched off: it compares ids, not values. -/
def searchIterate (c : Collection α str) (desc : Bool) (sw : scanWriter α) : scanWriter α :=
  let g := Parse sw.globPattern desc
  if g.Limits.1 = [] ∧ g.Limits.2 = [] then sw.scan str false (searchRecords c desc)
  else { sw with globSingle := false }.scan str false ((searchRecords c desc).filter fun r =>
    valueInRange g.Limits.1 g.Limits.2 desc (str r.2.1, r.1))

/-- `cmdSearch(msg)` on a collection: the count shortcut, which does not look at WHEREIN, or
the iteration. -/
def cmdSearch (c : Collection α str) (s : searchScanBaseTokens α) : Option ScanReply :=
  (newScanWriter c.fieldMap.items s.output s.glob true s.cursor s.limit s.wheres s.whereins
    s.whereevals).map fun sw =>
      if sw.output = .outputCount ∧ sw.wheres = [] ∧ sw.globEverything = true
      then { sw with count := shortcutCount c.Count s.cursor }.writeFoot
      else (searchIterate c s.desc sw).writeFoot

/-- What `cmdSearch` answers by its iteration, the shortcut left out. -/
def searchGeneral (c : Collection α str) (s : searchScanBaseTokens α) : Option ScanReply :=
  (newScanWriter c.fieldMap.items s.output s.glob true s.cursor s.limit s.wheres s.whereins
    s.whereevals).map fun sw => (searchIterate c s.desc sw).writeFoot

end Commands

/-! ### What the iterations hand over -/

theorem sorted_records_ids_perm (c : Collection α str) (l : List (itemT α))
    (le : itemT α → itemT α → Bool) (desc : Bool) :
    (((if desc then ((l.mergeSort le).map (itemT.found c)).reverse
      else (l.mergeSort le).map (itemT.found c))).map (·.1)).Perm (l.map itemT.id) := by
  have hasc : (((l.mergeSort le).map (itemT.found c)).map (·.1)).Perm (l.map itemT.id) := by
    rw [List.map_map]
    exact (List.mergeSort_perm _ _).map _
  cases desc
  · exact hasc
  · simpa [List.map_reverse] using (List.reverse_perm _).trans hasc

theorem scanRecords_ids_perm (c : Collection α str) (desc : Bool) :
    ((scanRecords c desc).map (·.1)).Perm (c.items.items.map itemT.id) :=
  sorted_records_ids_perm c _ _ desc

/-- `SCAN` hands over each id once. -/
theorem scanRecords_ids_nodup (c : Collection α str) (desc : Bool) :
    ((scanRecords c desc).map (·.1)).Nodup :=
  (scanRecords_ids_perm c desc).nodup_iff.mpr c.items.nodup

theorem scanRecords_length (c : Collection α str) (desc : Bool) :
    (scanRecords c desc).length = c.items.items.length := by
  simpa using (scanRecords_ids_perm c desc).length_eq

theorem searchRecords_ids_perm (c : Collection α str) (desc : Bool) :
    ((searchRecords c desc).map (·.1)).Perm (c.values.items.map itemT.id) :=
  sorted_records_ids_perm c _ _ desc

/-- On a consistent collection `SEARCH` hands over each id once: the values B-tree holds the
items that are not geometries. -/
theorem searchRecords_ids_nodup [Zero α] [LinearOrder α] {c : Collection α str} (hc : Consistent c)
    (desc : Bool) : ((searchRecords c desc).map (·.1)).Nodup := by
  have hvalues : (c.values.items.map itemT.id).Perm
      ((c.items.items.filter fun x => !x.object.IsGeometry).map itemT.id) :=
    hc.values_perm.map _
  exact ((searchRecords_ids_perm c desc).trans hvalues).nodup_iff.mpr (c.items.nodup_filter _)

theorem searchRecords_length (c : Collection α str) (desc : Bool) :
    (searchRecords c desc).length = c.values.items.length := by
  simpa using (searchRecords_ids_perm c desc).length_eq

/-! ### The count shortcut -/

theorem shortcutCount_eq {count : Int} {cursor : Nat} (h0 : 0 ≤ count) (hc : count < 2 ^ 63)
    (hcur : cursor < 2 ^ 63) : shortcutCount count cursor = (count - cursor).toNat := by
  have hgo : goInt cursor = cursor := by rw [goInt, if_pos hcur]
  -- no wrap: the difference lies in `(-2^63, 2^63)`
  have hwrap : wrapInt64 (count - cursor) = count - cursor := by
    have hlo : 0 ≤ count - cursor + 2 ^ 63 := by omega
    have hhi : count - cursor + 2 ^ 63 < 2 ^ 64 := by omega
    simp only [wrapInt64, Int.emod_eq_of_lt hlo hhi, add_sub_cancel_right]
  simp only [shortcutCount, hgo, hwrap]
  split_ifs with hneg <;> omega

theorem Parse_limits_of_everything {glob : Bytes} (hglob : glob = ascii "*" ∨ glob = [])
    (desc : Bool) : (Parse glob desc).Limits = ([], []) := by
  rcases hglob with rfl | rfl <;> exact Parse_limits_of_star desc (by simp [ascii, ch])

section Count

variable [Field α] [LinearOrder α] {c : Collection α str} {s : searchScanBaseTokens α}

omit [Field α] [LinearOrder α] in
/-- The writer of a command with `COUNT` output and a pattern that matches everything: it
counts from 0, and a zero limit becomes `MaxUint64`. -/
theorem newScanWriter_count (fmap : List (Bytes × Nat)) (matchValues : Bool)
    (hout : s.output = .outputCount) (hglob : s.glob = ascii "*" ∨ s.glob = []) :
    ∃ sw, newScanWriter fmap s.output s.glob matchValues s.cursor s.limit s.wheres s.whereins
        s.whereevals = some sw ∧ sw.output = .outputCount ∧ sw.count = 0 ∧
      sw.globEverything = true ∧ sw.globPattern = s.glob ∧ sw.wheres = s.wheres ∧
      sw.whereins = s.whereins ∧ sw.whereevals = s.whereevals ∧
      sw.limit = if s.limit = 0 then MaxUint64 else s.limit := by
  have hne : s.output ≠ .outputUnknown := by rw [hout]; decide
  refine ⟨_, by rw [newScanWriter, if_neg hne], hout, rfl, by simpa using hglob, rfl, rfl, rfl,
    rfl, by simp [hout]⟩

/-- `SCAN` answers by its shortcut `col.Count() - int(cursor)`. -/
theorem cmdScan_shortcut (hout : s.output = .outputCount) (hw : s.wheres = [])
    (hwi : s.whereins = []) (hglob : s.glob = ascii "*" ∨ s.glob = []) :
    cmdScan c s = some (.count (shortcutCount c.Count s.cursor)) := by
  obtain ⟨sw, hsw, hsout, -, hE, -, hsw', hswi, -⟩ :=
    newScanWriter_count c.fieldMap.items false hout hglob
  rw [cmdScan, hsw, Option.map_some]
  simp [hsout, hE, hsw', hswi, hw, hwi, scanWriter.writeFoot]

theorem cmdSearch_shortcut (hout : s.output = .outputCount) (hw : s.wheres = [])
    (hglob : s.glob = ascii "*" ∨ s.glob = []) :
    cmdSearch c s = some (.count (shortcutCount c.Count s.cursor)) := by
  obtain ⟨sw, hsw, hsout, -, hE, -, hsw', -, -⟩ :=
    newScanWriter_count c.fieldMap.items true hout hglob
  rw [cmdSearch, hsw, Option.map_some]
  simp [hsout, hE, hsw', hw, scanWriter.writeFoot]

/-- The iteration of `SCAN` without filters counts every item, those under the cursor
included. -/
theorem scanGeneral_count (hout : s.output = .outputCount) (hw : s.wheres = [])
    (hwi : s.whereins = []) (hwe : s.whereevals = []) (hglob : s.glob = ascii "*" ∨ s.glob = [])
    (hlim : s.limit = 0) (hsize : c.items.items.length ≤ MaxUint64) :
    scanGeneral c s = some (.count c.items.items.length) := by
  obtain ⟨sw, hsw, hsout, hc0, hE, hpat, hsw', hswi, hswe, hslim⟩ :=
    newScanWriter_count c.fieldMap.items false hout hglob
  have hlimits : (Parse sw.globPattern s.desc).Limits = ([], []) := by
    rw [hpat]
    exact Parse_limits_of_everything hglob s.desc
  rw [scanGeneral, hsw, Option.map_some, scanIterate]
  simp only [hlimits, and_self, if_true]
  rw [writeFoot_scan_count str false sw _ hsout hc0 hE (hsw'.trans hw) (hswi.trans hwi)
    (hswe.trans hwe) (by simp [hslim, hlim, scanRecords_length, hsize]), scanRecords_length]

/-- The iteration of `SEARCH` without filters counts every `String` value, those under the
cursor included. -/
theorem searchGeneral_count (hout : s.output = .outputCount) (hw : s.wheres = [])
    (hwi : s.whereins = []) (hwe : s.whereevals = []) (hglob : s.glob = ascii "*" ∨ s.glob = [])
    (hlim : s.limit = 0) (hsize : c.values.items.length ≤ MaxUint64) :
    searchGeneral c s = some (.count c.values.items.length) := by
  obtain ⟨sw, hsw, hsout, hc0, hE, hpat, hsw', hswi, hswe, hslim⟩ :=
    newScanWriter_count c.fieldMap.items true hout hglob
  have hlimits : (Parse sw.globPattern s.desc).Limits = ([], []) := by
    rw [hpat]
    exact Parse_limits_of_everything hglob s.desc
  rw [searchGeneral, hsw, Option.map_some, searchIterate]
  simp only [hlimits, and_self, if_true]
  rw [writeFoot_scan_count str false sw _ hsout hc0 hE (hsw'.trans hw) (hswi.trans hwi)
    (hswe.trans hwe) (by simp [hslim, hlim, searchRecords_length, hsize]), searchRecords_length]

/-- `SCAN` with ids output, no filters, MATCH `*`, cursor 0 and a limit past the collection's
size lists every id in one page. -/
theorem cmdScan_lists_all (hout : s.output ≠ .outputCount) (hunknown : s.output ≠ .outputUnknown)
    (hw : s.wheres = []) (hwi : s.whereins = []) (hwe : s.whereevals = [])
    (hglob : s.glob = ascii "*" ∨ s.glob = []) (hcur : s.cursor = 0)
    (hlim : c.items.items.length < s.limit) :
    cmdScan c s = some (.page 0 ((scanRecords c s.desc).map (·.1))) := by
  have hne : s.limit ≠ 0 := by omega
  have hE : decide (s.glob = ascii "*" ∨ s.glob = []) = true := by simpa using hglob
  rw [cmdScan, newScanWriter, if_neg hunknown, Option.map_some]
  simp only [hout, false_and, if_false, scanIterate, Parse_limits_of_everything hglob, and_self,
    if_true, if_neg hne]
  rw [writeFoot_scan_everything str false _ _ hout rfl rfl rfl rfl hcur hE hw hwi hwe
    (by rw [scanRecords_length]; exact hlim)]

/-- On a consistent collection, with `COUNT` output, no filters, a pattern that matches
everything, no LIMIT and a cursor below `2^63`: the shortcut of `SCAN` answers the number of
items less the cursor while its iteration answers the number of items, and the shortcut of
`SEARCH` answers the number of items less the cursor while its iteration answers the number of
items that are not geometries. -/
theorem count_shortcut_vs_iteration (hc : Consistent c)
    (hout : s.output = .outputCount) (hw : s.wheres = []) (hwi : s.whereins = [])
    (hwe : s.whereevals = []) (hglob : s.glob = ascii "*" ∨ s.glob = []) (hlim : s.limit = 0)
    (hcur : s.cursor < 2 ^ 63) (hsize : c.items.items.length < 2 ^ 63) :
    cmdScan c s = some (.count (c.items.items.length - s.cursor)) ∧
      scanGeneral c s = some (.count c.items.items.length) ∧
      cmdSearch c s = some (.count (c.items.items.length - s.cursor)) ∧
      searchGeneral c s = some (.count (c.items.items.filter fun x => !x.object.IsGeometry).length) := by
  have hstr : c.values.items.length =
      (c.items.items.filter fun x => !x.object.IsGeometry).length := hc.values_perm.length_eq
  have hstr_le : c.values.items.length ≤ c.items.items.length := by
    rw [hstr]
    exact List.length_filter_le _ _
  have hmax : c.items.items.length ≤ MaxUint64 := by unfold MaxUint64; omega
  have hshort : shortcutCount c.Count s.cursor = c.items.items.length - s.cursor := by
    rw [shortcutCount_eq (by rw [hc.Count_eq]; omega) (by rw [hc.Count_eq]; omega) hcur,
      hc.Count_eq]
    omega
  refine ⟨?_, scanGeneral_count hout hw hwi hwe hglob hlim hmax, ?_, ?_⟩
  · rw [cmdScan_shortcut hout hw hwi hglob, hshort]
  · rw [cmdSearch_shortcut hout hw hglob, hshort]
  · rw [searchGeneral_count hout hw hwi hwe hglob hlim (hstr_le.trans hmax), hstr]

theorem count_shortcut_vs_iteration_one_point :
    let c : Collection ℚ (fun _ => []) :=
      (Collection.New.ReplaceOrInsert (ascii "a") (.simplePoint 0 0) none []).1
    let s : searchScanBaseTokens ℚ := ⟨1, .outputCount, ascii "*", [], [], [], 0, false⟩
    cmdScan c s = some (.count 0) ∧ scanGeneral c s = some (.count 1) ∧
      cmdSearch c s = some (.count 0) ∧ searchGeneral c s = some (.count 0) :=
  count_shortcut_vs_iteration
    (consistent_New.ReplaceOrInsert (fun o h => by simp [Collection.New, KeyedSet.get] at h) none [])
    rfl rfl rfl rfl (.inl rfl) rfl (by decide) (by decide)

end Count

/-! ### Paging -/

section Paging

variable [Field α] [LinearOrder α]

/-- The records the iteration of `SCAN` visits: all of them, or those in the range of the
pattern's limits. -/
def scanVisits (c : Collection α str) (desc : Bool) (glob : Bytes) :
    List (Bytes × Object α × List α) :=
  let g := Parse glob desc
  if g.Limits.1 = [] ∧ g.Limits.2 = [] then scanRecords c desc
  else (scanRecords c desc).filter fun r => decide (InRange g.Limits.1 g.Limits.2 desc r.1)

/-- The records the iteration of `SEARCH` visits. -/
def searchVisits (c : Collection α str) (desc : Bool) (glob : Bytes) :
    List (Bytes × Object α × List α) :=
  let g := Parse glob desc
  if g.Limits.1 = [] ∧ g.Limits.2 = [] then searchRecords c desc
  else (searchRecords c desc).filter fun r => valueInRange g.Limits.1 g.Limits.2 desc (str r.2.1, r.1)

theorem scanIterate_eq (c : Collection α str) (desc : Bool) (sw : scanWriter α) :
    scanIterate c desc sw = sw.scan str false (scanVisits c desc sw.globPattern) := by
  unfold scanIterate scanVisits
  dsimp only
  split_ifs <;> rfl

/-- In the range of its pattern `SEARCH` compares ids, not values: its writer has `globSingle`
switched off there. -/
theorem searchIterate_eq (c : Collection α str) (desc : Bool) (sw : scanWriter α) :
    searchIterate c desc sw =
      (if (Parse sw.globPattern desc).Limits.1 = [] ∧ (Parse sw.globPattern desc).Limits.2 = []
        then sw else { sw with globSingle := false }).scan str false
        (searchVisits c desc sw.globPattern) := by
  unfold searchIterate searchVisits
  dsimp only
  split_ifs <;> rfl

omit [Field α] [LinearOrder α] in
theorem scanVisits_ids_nodup (c : Collection α str) (desc : Bool) (glob : Bytes) :
    ((scanVisits c desc glob).map (·.1)).Nodup := by
  unfold scanVisits
  dsimp only
  split_ifs
  · exact scanRecords_ids_nodup c desc
  · exact (scanRecords_ids_nodup c desc).sublist (List.filter_sublist.map _)

omit [Field α] [LinearOrder α] in
theorem scanVisits_length (c : Collection α str) (desc : Bool) (glob : Bytes) :
    (scanVisits c desc glob).length ≤ c.items.items.length := by
  rw [← scanRecords_length c desc]
  unfold scanVisits
  dsimp only
  split_ifs
  · exact le_rfl
  · exact List.length_filter_le _ _

theorem searchVisits_ids_nodup {c : Collection α str} (hc : Consistent c) (desc : Bool)
    (glob : Bytes) : ((searchVisits c desc glob).map (·.1)).Nodup := by
  unfold searchVisits
  dsimp only
  split_ifs
  · exact searchRecords_ids_nodup hc desc
  · exact (searchRecords_ids_nodup hc desc).sublist (List.filter_sublist.map _)

theorem searchVisits_length {c : Collection α str} (hc : Consistent c) (desc : Bool)
    (glob : Bytes) : (searchVisits c desc glob).length ≤ c.items.items.length := by
  have hvalues : c.values.items.length ≤ c.items.items.length := by
    rw [hc.values_perm.length_eq]
    exact List.length_filter_le _ _
  refine le_trans ?_ ((searchRecords_length c desc).trans_le hvalues)
  unfold searchVisits
  dsimp only
  split_ifs
  · exact le_rfl
  · exact List.length_filter_le _ _

variable {s : searchScanBaseTokens α}

omit [Field α] [LinearOrder α] in
theorem newScanWriter_tokens (fmap : List (Bytes × Nat)) (matchValues : Bool)
    (hunknown : s.output ≠ .outputUnknown) (k l : Nat) (hl : 0 < l) :
    newScanWriter fmap s.output s.glob matchValues k l s.wheres s.whereins s.whereevals =
      some ⟨fmap, s.output, s.wheres, s.whereins, s.whereevals, 0, k, l, false, 0, s.glob,
        decide (s.glob = ascii "*" ∨ s.glob = []),
        !decide (s.glob = ascii "*" ∨ s.glob = []) && !IsGlob s.glob, matchValues, []⟩ := by
  simp [newScanWriter, hunknown, Nat.pos_iff_ne_zero.mp hl]

/-- Following the cursors of `SCAN` from 0, with any LIMIT of at least 1, gives the ids one
call with a limit past the collection's size answers, each once and in the same order. -/
theorem cmdScan_pages (c : Collection α str) (hout : s.output ≠ .outputCount)
    (hunknown : s.output ≠ .outputUnknown) (hl : 0 < s.limit)
    (hsize : c.items.items.length < 2 ^ 64) (fuel : Nat)
    (hfuel : c.items.items.length / s.limit < fuel) :
    ∃ ids, cmdScan c { s with cursor := 0, limit := c.items.items.length + 1 } =
        some (.page 0 ids) ∧
      collectPages (fun k => cmdScan c { s with cursor := k }) fuel 0 = some ids := by
  let w : Nat → Nat → scanWriter α := fun k l =>
    ⟨c.fieldMap.items, s.output, s.wheres, s.whereins, s.whereevals, 0, k, l, false, 0, s.glob,
      decide (s.glob = ascii "*" ∨ s.glob = []),
      !decide (s.glob = ascii "*" ∨ s.glob = []) && !IsGlob s.glob, false, []⟩
  have hcall : ∀ k l, 0 < l → cmdScan c { s with cursor := k, limit := l } =
      some ((w k l).scan str false (scanVisits c s.desc s.glob)).writeFoot := by
    intro k l hl'
    rw [cmdScan, newScanWriter_tokens _ _ hunknown k l hl', Option.map_some]
    simp only [hout, false_and, if_false, scanIterate_eq]
    rfl
  have hlen := scanVisits_length c s.desc s.glob
  obtain ⟨ids, h₁, h₂⟩ := collectPages_fresh str false w (scanVisits c s.desc s.glob)
    (fun _ _ => rfl) hout rfl rfl rfl rfl (scanVisits_ids_nodup c s.desc s.glob) (by omega)
    (Nat.lt_succ_of_le hlen) hl fuel (lt_of_le_of_lt (Nat.div_le_div_right hlen) hfuel)
  refine ⟨ids, by rw [hcall 0 _ (Nat.succ_pos _), h₁], ?_⟩
  rw [← h₂]
  congr 1
  funext k
  exact hcall k s.limit hl

/-- The same for `SEARCH`, on a consistent collection: its writer compares values, and ids in
the range of a pattern. -/
theorem cmdSearch_pages {c : Collection α str} (hc : Consistent c) (hout : s.output ≠ .outputCount)
    (hunknown : s.output ≠ .outputUnknown) (hl : 0 < s.limit)
    (hsize : c.items.items.length < 2 ^ 64) (fuel : Nat)
    (hfuel : c.items.items.length / s.limit < fuel) :
    ∃ ids, cmdSearch c { s with cursor := 0, limit := c.items.items.length + 1 } =
        some (.page 0 ids) ∧
      collectPages (fun k => cmdSearch c { s with cursor := k }) fuel 0 = some ids := by
  let w : Nat → Nat → scanWriter α := fun k l =>
    ⟨c.fieldMap.items, s.output, s.wheres, s.whereins, s.whereevals, 0, k, l, false, 0, s.glob,
      decide (s.glob = ascii "*" ∨ s.glob = []),
      !decide (s.glob = ascii "*" ∨ s.glob = []) && !IsGlob s.glob, true, []⟩
  let mk : Nat → Nat → scanWriter α := fun k l =>
    if (Parse s.glob s.desc).Limits.1 = [] ∧ (Parse s.glob s.desc).Limits.2 = [] then w k l
    else { w k l with globSingle := false }
  have hmk : ∀ k l, mk k l = { mk 0 1 with cursor := k, limit := l } := by
    intro k l
    simp only [mk]
    split_ifs <;> rfl
  have hcall : ∀ k l, 0 < l → cmdSearch c { s with cursor := k, limit := l } =
      some ((mk k l).scan str false (searchVisits c s.desc s.glob)).writeFoot := by
    intro k l hl'
    rw [cmdSearch, newScanWriter_tokens _ _ hunknown k l hl', Option.map_some]
    simp only [hout, false_and, if_false, searchIterate_eq]
    rfl
  have hfresh : (mk 0 1).output = s.output ∧ (mk 0 1).numberItems = 0 ∧ (mk 0 1).count = 0 ∧
      (mk 0 1).hitLimit = false ∧ (mk 0 1).written = [] := by
    simp only [mk]
    split_ifs <;> exact ⟨rfl, rfl, rfl, rfl, rfl⟩
  have hlen := searchVisits_length hc s.desc s.glob
  obtain ⟨ids, h₁, h₂⟩ := collectPages_fresh str false mk (searchVisits c s.desc s.glob)
    hmk (hfresh.1 ▸ hout) hfresh.2.1 hfresh.2.2.1 hfresh.2.2.2.1 hfresh.2.2.2.2
    (searchVisits_ids_nodup hc s.desc s.glob) (by omega) (Nat.lt_succ_of_le hlen) hl fuel
    (lt_of_le_of_lt (Nat.div_le_div_right hlen) hfuel)
  refine ⟨ids, by rw [hcall 0 _ (Nat.succ_pos _), h₁], ?_⟩
  rw [← h₂]
  congr 1
  funext k
  exact hcall k s.limit hl

/-- Paging through `SCAN` or `SEARCH` on a consistent collection, from cursor 0 with any LIMIT of
at least 1 and whatever the other tokens, gives the ids of one call with a limit past the
collection's size: each once and in the same order. -/
theorem scan_search_pages {c : Collection α str} (hc : Consistent c)
    (hout : s.output ≠ .outputCount) (hunknown : s.output ≠ .outputUnknown) (hl : 0 < s.limit)
    (hsize : c.items.items.length < 2 ^ 64) (fuel : Nat)
    (hfuel : c.items.items.length / s.limit < fuel) :
    (∃ ids, cmdScan c { s with cursor := 0, limit := c.items.items.length + 1 } =
        some (.page 0 ids) ∧
      collectPages (fun k => cmdScan c { s with cursor := k }) fuel 0 = some ids) ∧
    (∃ ids, cmdSearch c { s with cursor := 0, limit := c.items.items.length + 1 } =
        some (.page 0 ids) ∧
      collectPages (fun k => cmdSearch c { s with cursor := k }) fuel 0 = some ids) :=
  ⟨cmdScan_pages c hout hunknown hl hsize fuel hfuel,
    cmdSearch_pages hc hout hunknown hl hsize fuel hfuel⟩

theorem scan_search_pages_two_points :
    let c : Collection ℚ (fun _ => []) :=
      ((Collection.New.ReplaceOrInsert (ascii "a") (.simplePoint 0 0) none []).1.ReplaceOrInsert
        (ascii "b") (.simplePoint 1 1) none []).1
    let s : searchScanBaseTokens ℚ := ⟨0, .outputIDs, ascii "*", [], [], [], 1, false⟩
    (∃ ids, cmdScan c { s with cursor := 0, limit := c.items.items.length + 1 } =
        some (.page 0 ids) ∧
      collectPages (fun k => cmdScan c { s with cursor := k }) 3 0 = some ids) ∧
    (∃ ids, cmdSearch c { s with cursor := 0, limit := c.items.items.length + 1 } =
        some (.page 0 ids) ∧
      collectPages (fun k => cmdSearch c { s with cursor := k }) 3 0 = some ids) := by
  have hb : ((Collection.New.ReplaceOrInsert (ascii "a") (.simplePoint (0 : ℚ) 0) none []).1 :
      Collection ℚ fun _ => []).items.get (ascii "b") = none := by with_unfolding_all decide
  exact scan_search_pages
    ((consistent_New.ReplaceOrInsert (fun o h => by simp [Collection.New, KeyedSet.get] at h) none
      []).ReplaceOrInsert (fun o h => by rw [hb] at h; cases h) none [])
    (by decide) (by decide) (by decide) (by with_unfolding_all decide) 3
    (by with_unfolding_all decide)

end Paging

/-! ### `WITHIN` and `INTERSECTS` on a box -/

section Area

variable [Field α] [LinearOrder α]

/-- `cmdWithinOrIntersects(cmd, msg)` for a query by `BOUNDS`, without `SPARSE`, on a
collection no id of which has expired: the writer of the tokens is handed the records that
`Within` or `Intersects` finds, in the order of the index, until it stops. The box carries the
Z bounds of the WHERE on `z`. -/
def cmdWithinOrIntersects (s : Store α str) (within : Bool) (bbox : BBox α)
    (t : searchScanBaseTokens α) : Option ScanReply :=
  (newScanWriter s.col.fieldMap.items t.output t.glob false t.cursor t.limit t.wheres t.whereins
    t.whereevals).map fun sw =>
      (sw.scan str false (if within then s.WithinBox bbox else s.IntersectsBox bbox)).writeFoot

/-- The id `"a"` set to the point `(1, 1)`, then to a `String`, then to the point `(1, 1)` again:
the index keeps the entry of the first point beside the entry of the second, and `WITHIN` on
the box `[0, 2]²` with `MATCH a` finds `"a"` twice. One call lists `"a"` once, as the pattern
names one id and the scan stops at it; the pages of `LIMIT 1` list it twice. -/
theorem within_pages_repeat :
    let s : Store ℚ fun _ => [] :=
      ((Store.New.ReplaceOrInsert [97] (.simplePoint 1 1) none []).ReplaceOrInsert [97]
        (.string [120]) none []).ReplaceOrInsert [97] (.simplePoint 1 1) none []
    let bbox : BBox ℚ := ⟨⟨0, 0, 0⟩, ⟨2, 2, 0⟩⟩
    cmdWithinOrIntersects s true bbox ⟨0, .outputIDs, [97], [], [], [], 5, false⟩ =
        some (.page 0 [[97]]) ∧
      collectPages (fun c => cmdWithinOrIntersects s true bbox
        ⟨c, .outputIDs, [97], [], [], [], 1, false⟩) 5 0 = some [[97], [97]] := by
  with_unfolding_all decide

end Area

end Controller
