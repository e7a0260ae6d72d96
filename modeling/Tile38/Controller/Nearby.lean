import Tile38.Controller.ScanWriter
import Tile38.RTree.Knn
import Tile38.Collection.Tree
import Mathlib.Algebra.Order.Star.Real
import Mathlib.Analysis.Real.Pi.Bounds

/-!
# Nearest neighbours with a cursor (`nearestNeighbors`, controller/search.go)

`NEARBY key POINT lat lon` without a radius lists the objects nearest first. `nearestNeighbors`
walks the index with `KNN`, which orders the entries by their box distance to the point in
degrees (`queryDist`); it keeps the records that pass the filters and the pattern until it has
`cursor + limit` of them, sorts those by the great-circle distance of their calculated point
(`geo.DistanceTo`), and hands them to the writer, which skips the first `cursor` and writes up to
`limit`.

A page is thus the window `[cursor, cursor + limit)` of the first `cursor + limit` candidates in
box order, sorted by distance (`nearbyPage_everything`). When the candidates in box order are
already in order of distance, following the cursors gives each candidate once, nearest first
(`collectPages_nearby_sorted`). When the two orders disagree the windows of successive pages are
sorted differently: at latitude 60 a point 1.4° north is nearer in degrees than a point 1.5°
east but twice as far on the sphere, and with `LIMIT 1` the pages give the northern point twice
and the eastern one never (`knn_pages_repeat`).

`Collection.NearestNeighbors` hands over the records behind the index entries in the order `KNN`
reports them, until its iterator stops: an order `out` of the entries sorted by `queryDist`
(`KNNOrder`). The R-tree of the index reports its entries in such an order after every run of
collection calls whose geometries have proper boxes (`KNNOrder_of_run`).
Distances are real numbers, and `sort.Slice` is a stable sort by distance (`List.mergeSort`): Go
sorts short slices by insertion, which is stable, and longer ones may order records at equal
distances otherwise. The expiry check of `cmdNearby`'s iterator is left out.
-/

/-! ### The sphere (geojson/geo) -/

attribute [local instance] Rtree.two_atLeastTwo

namespace geo

open Real

/-- `earthRadius`, in meters. -/
def earthRadius : ℝ := 6371000

noncomputable def toRadians (deg : ℝ) : ℝ := deg * π / 180

/-- `math.Atan2(y, x)` on finite arguments: the angle of `(x, y)` in `(-π, π]`. -/
noncomputable def atan2 (y x : ℝ) : ℝ :=
  if x = 0 then (if 0 < y then π / 2 else if y < 0 then -(π / 2) else 0)
  else
    let q := arctan (y / x)
    if x < 0 then (if q ≤ 0 then q + π else q - π) else q

/-- `DistanceTo(latA, lonA, latB, lonB)`: the haversine distance in meters. -/
noncomputable def DistanceTo (latA lonA latB lonB : ℝ) : ℝ :=
  let φ₁ := toRadians latA
  let lam₁ := toRadians lonA
  let φ₂ := toRadians latB
  let lam₂ := toRadians lonB
  let Δφ := φ₂ - φ₁
  let Δlam := lam₂ - lam₁
  let a := sin (Δφ / 2) * sin (Δφ / 2) + cos φ₁ * cos φ₂ * sin (Δlam / 2) * sin (Δlam / 2)
  let c := 2 * atan2 (√a) (√(1 - a))
  earthRadius * c

/-- The haversine `a` of `DistanceTo`. -/
noncomputable def hav (latA lonA latB lonB : ℝ) : ℝ :=
  sin ((toRadians latB - toRadians latA) / 2) * sin ((toRadians latB - toRadians latA) / 2) +
    cos (toRadians latA) * cos (toRadians latB) * sin ((toRadians lonB - toRadians lonA) / 2) *
      sin ((toRadians lonB - toRadians lonA) / 2)

theorem DistanceTo_eq (latA lonA latB lonB : ℝ) :
    DistanceTo latA lonA latB lonB =
      earthRadius * (2 * atan2 (√(hav latA lonA latB lonB)) (√(1 - hav latA lonA latB lonB))) :=
  rfl

theorem atan2_of_pos {y x : ℝ} (hx : 0 < x) : atan2 y x = arctan (y / x) := by
  simp [atan2, hx.ne', not_lt.mpr hx.le]

theorem atan2_lt_atan2 {a b : ℝ} (ha : 0 ≤ a) (hab : a < b) (hb : b < 1) :
    atan2 (√a) (√(1 - a)) < atan2 (√b) (√(1 - b)) := by
  have hpa : 0 < √(1 - a) := Real.sqrt_pos.mpr (by linarith)
  have hpb : 0 < √(1 - b) := Real.sqrt_pos.mpr (by linarith)
  rw [atan2_of_pos hpa, atan2_of_pos hpb]
  apply arctan_strictMono
  calc √a / √(1 - a) ≤ √a / √(1 - b) :=
        div_le_div_of_nonneg_left (Real.sqrt_nonneg a) hpb
          (Real.sqrt_le_sqrt (by linarith))
    _ < √b / √(1 - b) := div_lt_div_of_pos_right (Real.sqrt_lt_sqrt ha hab) hpb

theorem DistanceTo_lt {latA lonA latB lonB latC lonC latD lonD : ℝ}
    (h0 : 0 ≤ hav latA lonA latB lonB) (hlt : hav latA lonA latB lonB < hav latC lonC latD lonD)
    (h1 : hav latC lonC latD lonD < 1) :
    DistanceTo latA lonA latB lonB < DistanceTo latC lonC latD lonD := by
  have hR : (0 : ℝ) < earthRadius := by norm_num [earthRadius]
  rw [DistanceTo_eq, DistanceTo_eq]
  have := atan2_lt_atan2 h0 hlt h1
  gcongr

/-- At latitude 60, 1.5° east: `a` is `sin²(π/240) cos²(π/3)`. -/
theorem hav_east : hav 60 (3 / 2) 60 0 = sin (π / 240) ^ 2 / 4 := by
  have hφ : toRadians 60 = π / 3 := by unfold toRadians; ring
  have hΔlam : (toRadians 0 - toRadians (3 / 2)) / 2 = -(π / 240) := by unfold toRadians; ring
  simp only [hav, hφ, hΔlam, sub_self, zero_div, sin_zero, sin_neg, cos_pi_div_three]
  ring

/-- At longitude 0, 1.4° north of latitude 60: `a` is `sin²(7π/1800)`. -/
theorem hav_north : hav (307 / 5) 0 60 0 = sin (7 * π / 1800) ^ 2 := by
  have hΔφ : (toRadians 60 - toRadians (307 / 5)) / 2 = -(7 * π / 1800) := by
    unfold toRadians; ring
  simp only [hav, hΔφ, sub_self, zero_div, sin_zero, sin_neg]
  ring

/-- The point 1.5° east of `(60, 0)` is nearer on the sphere than the point 1.4° north of it:
`sin(π/240) / 2 ≤ π/480` while `sin(7π/1800) ≥ 7/900`. -/
theorem DistanceTo_east_lt_north : DistanceTo 60 (3 / 2) 60 0 < DistanceTo (307 / 5) 0 60 0 := by
  have hπ := pi_pos
  have hπ' := pi_lt_d2
  have he₀ : 0 < sin (π / 240) := sin_pos_of_pos_of_lt_pi (by positivity) (by linarith)
  have he₁ : sin (π / 240) < π / 240 := sin_lt (by positivity)
  have hn₀ : 2 / π * (7 * π / 1800) ≤ sin (7 * π / 1800) := mul_le_sin (by positivity) (by linarith)
  have hn₁ : sin (7 * π / 1800) < 7 * π / 1800 := sin_lt (by positivity)
  have hn₂ : (7 : ℝ) / 900 ≤ sin (7 * π / 1800) := by
    calc (7 : ℝ) / 900 = 2 / π * (7 * π / 1800) := by field_simp; ring
      _ ≤ sin (7 * π / 1800) := hn₀
  apply DistanceTo_lt
  · rw [hav_east]
    positivity
  · rw [hav_east, hav_north]
    nlinarith
  · rw [hav_north]
    nlinarith

end geo

noncomputable def Geojson.Position.DistanceTo (p position : Geojson.Position ℚ) : ℝ :=
  geo.DistanceTo p.Y p.X position.Y position.X

/-! ### The collection's walk -/

namespace Collection

open Geojson Rtree Iter

universe u w
variable {α : Type u} {σ : Type w} {str : Object α → List UInt8}

/-- The order in which `index.KNN(lon, lat, ...)` reports the index entries: each once, by box
distance to the point. -/
def KNNOrder [Field α] [LinearOrder α] (lat lon : α) (index out : List (TreeItem α Nat)) : Prop :=
  out.Perm index ∧ out.Pairwise fun a b =>
    queryDist ![lon, lat] ![lon, lat] a.rect ≤ queryDist ![lon, lat] ![lon, lat] b.rect

/-- `NearestNeighbors(lat, lon, iterator)`, with the index reporting its entries in the order
`out`: the iterator is handed the id, object and field values of the record behind each entry,
until it stops. -/
def Store.NearestNeighbors (s : Store α str) (out : List (TreeItem α Nat))
    (iterator : σ → List UInt8 × Object α × List α → σ × Bool) (st : σ) : σ × Bool :=
  foldWhile (fun st e =>
    match s.heap[e.item]? with
    | some x => iterator st (x.id, x.object, s.col.getFieldValues x.id)
    | none => (st, true)) out st

/-- The records behind the entries `out`. -/
def Store.knnRecords (s : Store α str) (out : List (TreeItem α Nat)) :
    List (List UInt8 × Object α × List α) :=
  out.filterMap fun e => s.heap[e.item]?.map fun x => (x.id, x.object, s.col.getFieldValues x.id)

theorem Store.NearestNeighbors_eq (s : Store α str) (out : List (TreeItem α Nat))
    (iterator : σ → List UInt8 × Object α × List α → σ × Bool) (st : σ) :
    s.NearestNeighbors out iterator st = foldWhile iterator (s.knnRecords out) st := by
  induction out generalizing st with
  | nil => rfl
  | cons e out ih =>
    simp only [Store.NearestNeighbors, Store.knnRecords] at ih ⊢
    rcases hx : s.heap[e.item]? with _ | x
    · simp [hx, ih]
    · simp [hx, ih]

/-- The order of `KNNOrder` is the one the R-tree reports: a well-formed tree that holds the
entries of the index, on proper rectangles, hands `KNN` around `(lat, lon)` its entries in an
order `KNNOrder` describes, the same for every iterator. -/
theorem KNNOrder_of_tree [Field α] [LinearOrder α] [IsStrictOrderedRing α] {Q : Type*}
    (P : PQueue.PriorityQueue Q (QueueItem α Nat) QueueItem.dist) {tr : RTree α Nat}
    (hw : RootWF tr.data) {index : List (TreeItem α Nat)} (hidx : (Rtree.items tr.data).Perm index)
    (hp : ∀ t ∈ index, t.rect.Proper) (lat lon : α) :
    ∃ out, KNNOrder lat lon index out ∧
      ∀ (σ' : Type) (iter : σ' → Nat → WithTop α → σ' × Bool) (s : σ'),
        tr.KNN P ![lon, lat] ![lon, lat] false iter s =
          foldWhile (fun s t => iter s t.item (queryDist ![lon, lat] ![lon, lat] t.rect : α)) out s := by
  obtain ⟨out, hperm, hsort, hrun⟩ := RTree.KNN_foldWhile P hw ![lon, lat] ![lon, lat] false
    fun _ t ht => hp t (hidx.subset ht)
  exact ⟨out, ⟨hperm.trans hidx, hsort⟩, hrun⟩

/-- After a run of collection calls whose geometries have proper boxes, the R-tree of the
collection's index hands `KNN` its entries in an order `KNNOrder` describes. -/
theorem KNNOrder_of_run [Field α] [LinearOrder α] [IsStrictOrderedRing α] {Q : Type*}
    (P : PQueue.PriorityQueue Q (QueueItem α Nat) QueueItem.dist) {ops : List (Op α)}
    (hp : Simulation.Allowed Op.ProperBox Op.exec ops (New : Collection α str)) (lat lon : α) :
    ∃ s, Simulation.run Op.execTree ops ((New : Collection α str), RTree.New) = some s ∧
      s.1 = Simulation.arun Op.exec ops New ∧ ∃ out, KNNOrder lat lon s.1.index out ∧
        ∀ (σ' : Type) (iter : σ' → Nat → WithTop α → σ' × Bool) (st : σ'),
          s.2.KNN P ![lon, lat] ![lon, lat] false iter st =
            foldWhile (fun st t => iter st t.item (queryDist ![lon, lat] ![lon, lat] t.rect : α))
              out st := by
  obtain ⟨s, hrun, hs1, hst⟩ := @collection_index_tree α str _ _ ops
  have hproper := index_proper_run hp
  rw [← hs1] at hproper
  exact ⟨s, hrun, hs1, KNNOrder_of_tree P hst.1 hst.perm hproper lat lon⟩

end Collection

/-! ### `nearestNeighbors` -/

namespace Controller

open Geojson Glob Collection Rtree Iter

universe u v
variable {α : Type u} {β : Type v} {str : Object α → Bytes}

/-- `iterItem`: a kept record with its distance. -/
structure iterItem (α : Type u) (β : Type v) where
  id : Bytes
  o : Object α
  fields : List α
  dist : β

/-- The record a kept item hands to the writer. -/
def iterItem.record (it : iterItem α β) : Bytes × Object α × List α := (it.id, it.o, it.fields)

variable [Field α] [LinearOrder α]

/-- A record kept with the distance of its calculated point to `center`. -/
def nearItem (DistanceTo : Position α → Position α → β) (center : Position α)
    (r : Bytes × Object α × List α) : iterItem α β :=
  ⟨r.1, r.2.1, r.2.2, DistanceTo r.2.1.CalculatedPoint center⟩

/-- The iterator `nearestNeighbors` hands the collection: a record that passes the filters and
the pattern is kept with the distance of its calculated point to `center`, and the walk stops
once `limit` are kept or at the one id the pattern names. -/
def scanWriter.keepNearest (sw : scanWriter α) (str : Object α → Bytes)
    (DistanceTo : Position α → Position α → β) (center : Position α) (limit : Int)
    (items : List (iterItem α β)) (r : Bytes × Object α × List α) : List (iterItem α β) × Bool :=
  if !sw.fieldMatch r.2.2 r.2.1 then (items, true)
  else
    let (ok, keepGoing) := sw.globMatch str r.1 r.2.1
    if !ok then (items, true)
    else
      let items := items ++ [nearItem DistanceTo center r]
      if !keepGoing then (items, false) else (items, decide ((items.length : Int) < limit))

/-! ### The walk -/

section Walk

variable (sw : scanWriter α) (str : Object α → Bytes) (DistanceTo : Position α → Position α → β)
  (center : Position α)

omit [Field α] [LinearOrder α] in
theorem globMatch_snd (hS : sw.globSingle = false) (id : Bytes) (o : Object α) :
    (sw.globMatch str id o).2 = true := by
  unfold scanWriter.globMatch
  split_ifs <;> simp_all

theorem keepNearest_eq (hS : sw.globSingle = false) (limit : Int) (items : List (iterItem α β))
    (r : Bytes × Object α × List α) :
    sw.keepNearest str DistanceTo center limit items r =
      if sw.passes str false r then
        (items ++ [nearItem DistanceTo center r],
          decide (((items ++ [nearItem DistanceTo center r]).length : Int) < limit))
      else (items, true) := by
  have hkeep := globMatch_snd sw str hS r.1 r.2.1
  unfold scanWriter.keepNearest scanWriter.passes
  rcases hg : sw.globMatch str r.1 r.2.1 with ⟨ok, keepGoing⟩
  rw [hg] at hkeep
  cases ok <;> cases hf : sw.fieldMatch r.2.2 r.2.1 <;> simp_all

/-- The walk keeps the first records that pass, up to the limit. The induction is on the
records; a record that passes either fills the last place, and the walk stops, or not. -/
theorem foldWhile_keepNearest (hS : sw.globSingle = false) (n : Nat)
    (rs : List (Bytes × Object α × List α)) (items : List (iterItem α β)) (hlen : items.length < n) :
    (foldWhile (sw.keepNearest str DistanceTo center n) rs items).1 =
      items ++ ((rs.filter (sw.passes str false)).take (n - items.length)).map
        (nearItem DistanceTo center) := by
  induction rs generalizing items with
  | nil => simp
  | cons r rs ih =>
    rw [foldWhile_cons, keepNearest_eq sw str DistanceTo center hS]
    by_cases hp : sw.passes str false r = true
    · have htake : n - items.length = (n - (items.length + 1)) + 1 := by omega
      simp only [hp, if_true, List.filter_cons_of_pos hp, htake, List.take_succ_cons,
        List.map_cons, List.length_append, List.length_singleton]
      by_cases hmore : items.length + 1 < n
      · rw [if_pos (by simp; omega), ih _ (by simpa using hmore)]
        simp
      · have hlast : n - (items.length + 1) = 0 := by omega
        rw [if_neg (by simp; omega), hlast]
        simp
    · have hfilter : (r :: rs).filter (sw.passes str false) = rs.filter (sw.passes str false) :=
        List.filter_cons_of_neg hp
      rw [if_neg hp, if_pos rfl, hfilter]
      exact ih items hlen

end Walk

/-! ### Sorting and writing -/

variable [LinearOrder β]

/-- `sort.Slice(items, func(i, j int) bool { return items[i].dist < items[j].dist })`. -/
def sortByDist (items : List (iterItem α β)) : List (iterItem α β) :=
  items.mergeSort fun a b => decide (a.dist ≤ b.dist)

/-- `nearestNeighbors(sw, lat, lon, &matched, iter)` with the `iter` of `cmdNearby`, which hands
each record to `writeObject` with `ignoreGlobMatch`: the writer after the walk. -/
def nearestNeighbors (sw : scanWriter α) (str : Object α → Bytes)
    (DistanceTo : Position α → Position α → β) (s : Store α str) (out : List (TreeItem α Nat))
    (lat lon : α) : scanWriter α :=
  let limit := goInt ((sw.cursor + sw.limit) % 2 ^ 64)
  let items := (s.NearestNeighbors out (sw.keepNearest str DistanceTo ⟨lon, lat, 0⟩ limit) []).1
  sw.scan str true ((sortByDist items).map iterItem.record)

/-- One `NEARBY key POINT lat lon` without a radius, on a store whose index reports its entries
in the order `out`: the answer, or `none` for an unknown output. -/
def nearbyPage (fmap : List (Bytes × Nat)) (str : Object α → Bytes)
    (DistanceTo : Position α → Position α → β) (s : Store α str) (out : List (TreeItem α Nat))
    (lat lon : α) (t : searchScanBaseTokens α) : Option ScanReply :=
  (newScanWriter fmap t.output t.glob false t.cursor t.limit t.wheres t.whereins
    t.whereevals).map fun sw => (nearestNeighbors sw str DistanceTo s out lat lon).writeFoot


/-! ### A page -/

section Page

variable (sw : scanWriter α) (str : Object α → Bytes) (DistanceTo : Position α → Position α → β)

omit [LinearOrder β] in
@[simp] theorem record_nearItem (center : Position α) (r : Bytes × Object α × List α) :
    (nearItem DistanceTo center r).record = r := rfl

omit [LinearOrder β] in
theorem passes_true_of_passes (r : Bytes × Object α × List α) (h : sw.passes str false r = true) :
    sw.passes str true r = true := by
  simp only [scanWriter.passes, Bool.false_eq_true, if_false, Bool.and_eq_true] at h
  simp [scanWriter.passes, h.2]

/-- A fresh writer answers with the window `[cursor, cursor + limit)` of the first
`cursor + limit` records that pass, sorted by distance, and with the cursor past it when the
window is full. -/
theorem nearestNeighbors_writeFoot (s : Store α str) (out : List (TreeItem α Nat)) (lat lon : α)
    (hout : sw.output ≠ .outputCount) (hl : 0 < sw.limit) (hn : sw.numberItems = 0)
    (hc : sw.count = 0) (hh : sw.hitLimit = false) (hw : sw.written = [])
    (hS : sw.globSingle = false) (hsize : sw.cursor + sw.limit < 2 ^ 63) :
    let W := (sortByDist ((((s.knnRecords out).filter (sw.passes str false)).take
      (sw.cursor + sw.limit)).map (nearItem DistanceTo ⟨lon, lat, 0⟩))).map iterItem.id
    (nearestNeighbors sw str DistanceTo s out lat lon).writeFoot =
      .page (if sw.limit ≤ (W.drop sw.cursor).length then (sw.cursor + sw.limit) % 2 ^ 64 else 0)
        ((W.drop sw.cursor).take sw.limit) := by
  intro W
  let kept := (((s.knnRecords out).filter (sw.passes str false)).take (sw.cursor + sw.limit)).map
    (nearItem DistanceTo ⟨lon, lat, 0⟩)
  have hlim : goInt ((sw.cursor + sw.limit) % 2 ^ 64) = ((sw.cursor + sw.limit : Nat) : Int) := by
    rw [Nat.mod_eq_of_lt (by omega), goInt, if_pos hsize]
  have hitems : (s.NearestNeighbors out (sw.keepNearest str DistanceTo ⟨lon, lat, 0⟩
      (goInt ((sw.cursor + sw.limit) % 2 ^ 64))) []).1 = kept := by
    rw [hlim, Store.NearestNeighbors_eq,
      foldWhile_keepNearest sw str DistanceTo _ hS _ _ [] (by simp; omega)]
    simp [kept]
  have hpass : ∀ e ∈ (sortByDist kept).map iterItem.record, sw.passes str true e = true := by
    intro e he
    obtain ⟨it, hit, rfl⟩ := List.mem_map.mp he
    obtain ⟨r, hr, rfl⟩ := List.mem_map.mp (List.mem_mergeSort.mp hit)
    rw [record_nearItem]
    exact passes_true_of_passes sw str r (List.of_mem_filter (List.mem_of_mem_take hr))
  have hmatch : sw.matches str true ((sortByDist kept).map iterItem.record) = W := by
    rw [scanWriter.matches, List.filter_eq_self.mpr hpass, List.map_map]
    rfl
  have hstop : sw.StopsLast str true ((sortByDist kept).map iterItem.record) := by
    intro _ e _ _ _ hk
    exact absurd ((keeps_eq_false sw str true e).mp hk).1 (by decide)
  simp only [nearestNeighbors]
  rw [hitems, writeFoot_scan_fresh str true sw hout hl hn hc hh hw hstop, hmatch]

omit [Field α] [LinearOrder α] in
theorem pairwise_sortByDist (items : List (iterItem α β)) :
    (sortByDist items).Pairwise fun a b => a.dist ≤ b.dist := by
  have h : (sortByDist items).Pairwise fun a b => decide (a.dist ≤ b.dist) = true :=
    List.pairwise_mergeSort (fun a b c hab hbc => by
        simp only [decide_eq_true_eq] at hab hbc ⊢
        exact le_trans hab hbc)
      (fun a b => by
        simp only [Bool.or_eq_true, decide_eq_true_eq]
        exact le_total a.dist b.dist) items
  exact h.imp fun hab => by simpa using hab

omit [LinearOrder β] in
theorem passes_of_everything (ign : Bool) (hE : sw.globEverything = true) (hw : sw.wheres = [])
    (hwi : sw.whereins = []) (hwe : sw.whereevals = []) (r : Bytes × Object α × List α) :
    sw.passes str ign r = true := by
  simp [scanWriter.passes, scanWriter.globMatch, scanWriter.fieldMatch, hE, hw, hwi, hwe]

/-- `NEARBY ... CURSOR c LIMIT l MATCH * POINT lat lon` without filters: the window
`[c, c + l)` of the first `c + l` records the walk hands over, sorted by distance. -/
theorem nearbyPage_everything (fmap : List (Bytes × Nat)) (s : Store α str)
    (out : List (TreeItem α Nat)) (lat lon : α) (c l : Nat) (output : outputT) (desc : Bool)
    (hout : output ≠ .outputCount) (hunknown : output ≠ .outputUnknown) (hl : 0 < l)
    (hcl : c + l < 2 ^ 63) :
    let W := (sortByDist (((s.knnRecords out).take (c + l)).map
      (nearItem DistanceTo ⟨lon, lat, 0⟩))).map iterItem.id
    nearbyPage fmap str DistanceTo s out lat lon ⟨c, output, ascii "*", [], [], [], l, desc⟩ =
      some (.page (if l ≤ (W.drop c).length then (c + l) % 2 ^ 64 else 0) ((W.drop c).take l)) := by
  intro W
  let sw : scanWriter α := ⟨fmap, output, [], [], [], 0, c, l, false, 0, ascii "*", true, false,
    false, []⟩
  have hnew : newScanWriter fmap output (ascii "*") false c l ([] : List (whereT α)) [] [] =
      some sw := by
    simp [newScanWriter, hunknown, Nat.pos_iff_ne_zero.mp hl, sw]
  have hall : (s.knnRecords out).filter (sw.passes str false) = s.knnRecords out :=
    List.filter_eq_self.mpr fun r _ => passes_of_everything sw str false rfl rfl rfl rfl r
  simp only [nearbyPage, hnew, Option.map_some]
  rw [nearestNeighbors_writeFoot sw str DistanceTo s out lat lon hout hl rfl rfl rfl rfl rfl hcl]
  simp only [sw, hall]
  rfl

end Page

/-! ### Two points at latitude 60 -/

section Example

universe x
variable {γ : Type x}

/-- A list holding `a` and `b` and ordered by `R`, where `a` does not go before `b`, is
`[b, a]`. -/
theorem eq_swap_of_perm_pair {R : γ → γ → Prop} {a b : γ} {l : List γ} (hp : l.Perm [a, b])
    (hs : l.Pairwise R) (hab : ¬ R a b) : l = [b, a] := by
  rcases List.perm_pair.mp hp with rfl | rfl
  · exact absurd (List.rel_of_pairwise_cons hs List.mem_cons_self) hab
  · rfl

omit [Field α] [LinearOrder α] in
theorem sortByDist_swap {a b : iterItem α β} (h : b.dist < a.dist) : sortByDist [a, b] = [b, a] :=
  eq_swap_of_perm_pair (List.mergeSort_perm _ _) (pairwise_sortByDist [a, b]) (not_le.mpr h)

/-- The collection of the example: `"a"` 1.5° east and `"b"` 1.4° north of `(60, 0)`, set in
that order. -/
def northEast : Store ℚ (fun _ => []) :=
  (Store.New.ReplaceOrInsert [97] (.simplePoint (3 / 2) 60) none []).ReplaceOrInsert [98]
    (.simplePoint 0 (307 / 5)) none []

/-- Whatever the shape of its tree, the index reports `"b"` first: it is nearer in degrees. -/
theorem knnRecords_northEast {out : List (TreeItem ℚ Nat)}
    (hknn : KNNOrder 60 0 northEast.col.index out) :
    northEast.knnRecords out =
      [([98], .simplePoint 0 (307 / 5), []), ([97], .simplePoint (3 / 2) 60, [])] := by
  have hidx : northEast.col.index =
      [⟨![3 / 2, 60], ![3 / 2, 60], 0⟩, ⟨![0, 307 / 5], ![0, 307 / 5], 1⟩] := by
    with_unfolding_all rfl
  have hout : out = [⟨![0, 307 / 5], ![0, 307 / 5], 1⟩, ⟨![3 / 2, 60], ![3 / 2, 60], 0⟩] :=
    eq_swap_of_perm_pair (hidx ▸ hknn.1) hknn.2 (by with_unfolding_all decide)
  rw [hout]
  with_unfolding_all rfl

/-- On the sphere `"a"` is nearer. -/
theorem sortByDist_northEast :
    sortByDist ([([98], .simplePoint 0 (307 / 5), []), ([97], .simplePoint (3 / 2) 60, [])].map
      (nearItem Position.DistanceTo (⟨0, 60, 0⟩ : Position ℚ))) =
      [nearItem Position.DistanceTo ⟨0, 60, 0⟩ ([97], .simplePoint (3 / 2) 60, []),
        nearItem Position.DistanceTo ⟨0, 60, 0⟩ ([98], .simplePoint 0 (307 / 5), [])] := by
  apply sortByDist_swap
  have h := geo.DistanceTo_east_lt_north
  simp only [nearItem, Object.CalculatedPoint, Position.DistanceTo]
  norm_num
  exact h

/-- The points `"a"` 1.5° east and `"b"` 1.4° north of `(60, 0)`. `KNN` reports `"b"` first, nearer
in degrees; on the sphere `"a"` is nearer. With `LIMIT 1` the first page holds `"b"`; the second
sorts the window `["b", "a"]` to `["a", "b"]` and skips `"a"`, so it holds `"b"` again, and the
third is empty. One page with room for both lists `"a"` and `"b"`. -/
theorem knn_pages_repeat :
    let s : Store ℚ (fun _ => []) :=
      (Store.New.ReplaceOrInsert [97] (.simplePoint (3 / 2) 60) none []).ReplaceOrInsert [98]
        (.simplePoint 0 (307 / 5)) none []
    ∀ out, KNNOrder 60 0 s.col.index out →
      collectPages (fun c => nearbyPage [] (fun _ => []) Position.DistanceTo s out 60 0
          ⟨c, .outputIDs, ascii "*", [], [], [], 1, false⟩) 3 0 = some [[98], [98]] ∧
      nearbyPage [] (fun _ => []) Position.DistanceTo s out 60 0
          ⟨0, .outputIDs, ascii "*", [], [], [], 3, false⟩ = some (.page 0 [[97], [98]]) := by
  intro s out hknn
  have hrec : s.knnRecords out =
      [([98], .simplePoint 0 (307 / 5), []), ([97], .simplePoint (3 / 2) 60, [])] :=
    knnRecords_northEast hknn
  have hsort := sortByDist_northEast
  have hpage := fun c l hl hcl => nearbyPage_everything (fun _ => []) Position.DistanceTo [] s out
    60 0 c l .outputIDs false (by decide) (by decide) hl hcl
  -- the pages of `LIMIT 1` at cursors 0, 1 and 2, and one page of `LIMIT 3`
  have hp₀ : nearbyPage [] (fun _ => []) Position.DistanceTo s out 60 0
      ⟨0, .outputIDs, ascii "*", [], [], [], 1, false⟩ = some (.page 1 [[98]]) := by
    rw [hpage 0 1 (by decide) (by decide), hrec]
    simp [sortByDist, nearItem]
  have hp₁ : nearbyPage [] (fun _ => []) Position.DistanceTo s out 60 0
      ⟨1, .outputIDs, ascii "*", [], [], [], 1, false⟩ = some (.page 2 [[98]]) := by
    rw [hpage 1 1 (by decide) (by decide), hrec, List.take_of_length_le (by simp), hsort]
    simp [nearItem]
  have hp₂ : nearbyPage [] (fun _ => []) Position.DistanceTo s out 60 0
      ⟨2, .outputIDs, ascii "*", [], [], [], 1, false⟩ = some (.page 0 []) := by
    rw [hpage 2 1 (by decide) (by decide), hrec, List.take_of_length_le (by simp), hsort]
    simp [nearItem]
  have hall : nearbyPage [] (fun _ => []) Position.DistanceTo s out 60 0
      ⟨0, .outputIDs, ascii "*", [], [], [], 3, false⟩ = some (.page 0 [[97], [98]]) := by
    rw [hpage 0 3 (by decide) (by decide), hrec, List.take_of_length_le (by simp), hsort]
    simp [nearItem]
  refine ⟨?_, hall⟩
  simp only [collectPages, hp₀, hp₁, hp₂]
  rfl

theorem knn_pages_repeat_tree :
    let s : Store ℚ (fun _ => []) :=
      (Store.New.ReplaceOrInsert [97] (.simplePoint (3 / 2) 60) none []).ReplaceOrInsert [98]
        (.simplePoint 0 (307 / 5)) none []
    ∃ out, KNNOrder 60 0 s.col.index out ∧
      collectPages (fun c => nearbyPage [] (fun _ => []) Position.DistanceTo s out 60 0
          ⟨c, .outputIDs, ascii "*", [], [], [], 1, false⟩) 3 0 = some [[98], [98]] ∧
      nearbyPage [] (fun _ => []) Position.DistanceTo s out 60 0
          ⟨0, .outputIDs, ascii "*", [], [], [], 3, false⟩ = some (.page 0 [[97], [98]]) := by
  intro s
  let ops : List (Op ℚ) := [.replaceOrInsert [97] (.simplePoint (3 / 2) 60) none [],
    .replaceOrInsert [98] (.simplePoint 0 (307 / 5)) none []]
  have hp : Simulation.Allowed Op.ProperBox Op.exec ops (New : Collection ℚ fun _ => []) :=
    ⟨fun _ => le_rfl, fun _ => le_rfl, trivial⟩
  obtain ⟨t, -, ht, out, hknn, -⟩ := KNNOrder_of_run (PQueue.sortedList QueueItem.dist) hp 60 0
  rw [ht] at hknn
  exact ⟨out, hknn, knn_pages_repeat out hknn⟩

end Example

end Controller
