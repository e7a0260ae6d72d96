import Tile38.RTree.Invariant

/-!
# What the queries report

For an iterator that never asks to stop, `Scan` hands it every item of the tree and `Search`
every item whose rectangle meets the closed query box, each once, left to right; `Count` is
the number of items and `Bounds` their hull. `Search` prunes with `overlaps`: a child the query
box misses holds no answer, and every item of a child inside the query box is one, provided
the items' rectangles are proper (`min ≤ max`).
-/

namespace Rtree

universe u v w
variable {α : Type u} {ι : Type v} {σ : Type w}

/-- An iterator that folds `f` over what it is given and never stops. -/
def always (f : σ → ι → σ) : σ → ι → σ × Bool := fun s x => (f s x, true)

/-- The pairs of `ts` that a search with query box `q` must report. -/
def hits [LinearOrder α] (q : Rect α) (ts : List (TreeItem α ι)) : List (TreeItem α ι) :=
  ts.filter fun t => Box.Meets q t.rect

section Scan

variable (f : σ → ι → σ)

theorem scanItems_always :
    ∀ (ts : List (TreeItem α ι)) (s : σ),
      scanItems (always f) ts s = ((ts.map (·.item)).foldl f s, true)
  | [], _ => rfl
  | t :: ts, s => by simp [scanItems, always, scanItems_always ts]

mutual

theorem scan_always :
    ∀ (n : TreeNode α ι) (s : σ), scan (always f) n s = (((items n).map (·.item)).foldl f s, true)
  | .leaf _ _ ts, s => by simp [scan, scanItems_always]
  | .branch _ _ cs, s => by simp [scan, scanChildren_always cs]

theorem scanChildren_always :
    ∀ (cs : List (TreeNode α ι)) (s : σ),
      scanChildren (always f) cs s = (((itemsList cs).map (·.item)).foldl f s, true)
  | [], _ => by simp [scanChildren]
  | c :: cs, s => by simp [scanChildren, scan_always c, scanChildren_always cs]

end

end Scan

section Overlaps

variable [LinearOrder α]

theorem not_meets_of_apartOn {q b r : Rect α} {i : Fin 2} (hi : apartOn q b i = true)
    (hr : r ≤ b) : ¬ Box.Meets q r := by
  intro hm
  obtain ⟨hlo, hhi⟩ := Box.le_def.mp hr
  have hq := hm i
  have hlo' := hlo i
  have hhi' := hhi i
  simp only [apartOn, Bool.or_eq_true, decide_eq_true_eq] at hi
  rcases hi with hi | hi
  · exact absurd hq.2 (not_le.mpr (lt_of_lt_of_le hi hlo'))
  · exact absurd hq.1 (not_le.mpr (lt_of_le_of_lt hhi' hi))

theorem overlapsAxes_not {q b : Rect α} :
    ∀ is : List (Fin 2), overlapsAxes q b is = .not → ∃ i ∈ is, apartOn q b i = true
  | [], h => by simp [overlapsAxes] at h
  | i :: is, h => by
    by_cases ha : apartOn q b i = true
    · exact ⟨i, by simp, ha⟩
    · by_cases ho : outsideOn q b i = true
      · simp only [overlapsAxes, ha, ho, if_true, Bool.false_eq_true, if_false] at h
        split_ifs at h with hany
        obtain ⟨j, hj, hja⟩ := List.any_eq_true.mp hany
        exact ⟨j, by simp [hj], hja⟩
      · simp only [overlapsAxes, ha, ho, Bool.false_eq_true, if_false] at h
        obtain ⟨j, hj, hja⟩ := overlapsAxes_not is h
        exact ⟨j, by simp [hj], hja⟩

theorem overlapsAxes_contains {q b : Rect α} :
    ∀ is : List (Fin 2), overlapsAxes q b is = .contains → ∀ i ∈ is, outsideOn q b i = false
  | [], _ => by simp
  | i :: is, h => by
    by_cases ha : apartOn q b i = true
    · simp [overlapsAxes, ha] at h
    · by_cases ho : outsideOn q b i = true
      · simp only [overlapsAxes, ha, ho, if_true, Bool.false_eq_true, if_false] at h
        split_ifs at h
      · simp only [overlapsAxes, ha, ho, Bool.false_eq_true, if_false] at h
        intro j hj
        rcases List.mem_cons.mp hj with rfl | hj
        · simpa using ho
        · exact overlapsAxes_contains is h j hj

theorem not_meets_of_overlaps {q : Rect α} {b : WithBot (Rect α)} (h : overlaps q b = .not)
    {r : Rect α} (hr : (r : WithBot (Rect α)) ≤ b) : ¬ Box.Meets q r := by
  cases b with
  | bot => exact absurd hr (by simp)
  | coe b =>
    obtain ⟨i, -, hi⟩ := overlapsAxes_not [0, 1] h
    exact not_meets_of_apartOn hi (WithBot.coe_le_coe.mp hr)

theorem le_of_overlaps_contains {q : Rect α} {b : WithBot (Rect α)} (h : overlaps q b = .contains) :
    b ≤ q := by
  cases b with
  | bot => exact bot_le
  | coe b =>
    have hax := overlapsAxes_contains [0, 1] h
    have haxes : ∀ i : Fin 2, i ∈ ([0, 1] : List (Fin 2)) := by decide
    have hin : ∀ i : Fin 2, q.lo i ≤ b.lo i ∧ b.hi i ≤ q.hi i := by
      intro i
      have hi : outsideOn q b i = false := hax i (haxes i)
      simp only [outsideOn, Bool.or_eq_false_iff, decide_eq_false_iff_not, gt_iff_lt,
        not_lt] at hi
      exact hi
    exact WithBot.coe_le_coe.mpr (Box.le_def.mpr ⟨fun i => (hin i).1, fun i => (hin i).2⟩)

theorem hits_eq_nil {q : Rect α} {ts : List (TreeItem α ι)}
    (h : ∀ t ∈ ts, ¬ Box.Meets q t.rect) : hits q ts = [] := by
  simpa [hits, List.filter_eq_nil_iff] using h

theorem hits_eq_self {q : Rect α} {ts : List (TreeItem α ι)}
    (h : ∀ t ∈ ts, Box.Meets q t.rect) : hits q ts = ts := by
  simpa [hits, List.filter_eq_self] using h

theorem hits_append (q : Rect α) (l₁ l₂ : List (TreeItem α ι)) :
    hits q (l₁ ++ l₂) = hits q l₁ ++ hits q l₂ := by
  simp [hits]

end Overlaps

section Search

variable [LinearOrder α] (f : σ → ι → σ) (q : Rect α)

theorem searchItems_always :
    ∀ (ts : List (TreeItem α ι)) (s : σ),
      searchItems (always f) q ts s = (((hits q ts).map (·.item)).foldl f s, true)
  | [], _ => rfl
  | t :: ts, s => by
    by_cases hm : Box.Meets q t.rect
    · simp [searchItems, hm, always, hits, searchItems_always ts]
    · simpa [searchItems, hm, hits] using searchItems_always ts s

/-- What one child contributes to `search`'s loop over a branch: its items that meet the
query box, whether the loop searches it, scans it or skips it. -/
theorem searchChild_always {h : Nat} {c : TreeNode α ι} (hc : WF h c)
    (hp : ∀ t ∈ items c, t.rect.Proper)
    (ih : ∀ s, search (always f) q c s = (((hits q (items c)).map (·.item)).foldl f s, true))
    (cs : List (TreeNode α ι)) (s : σ) :
    searchChildren (always f) q (c :: cs) s =
      searchChildren (always f) q cs (((hits q (items c)).map (·.item)).foldl f s) := by
  cases ho : overlaps q c.bbox with
  | intersects => simp [searchChildren, ho, ih]
  | contains =>
    have hall : hits q (items c) = items c := hits_eq_self fun t ht =>
      Box.meets_comm.mp (Box.meets_of_le (hp t ht)
        (WithBot.coe_le_coe.mp ((hc.rect_le_bbox ht).trans (le_of_overlaps_contains ho))))
    simp [searchChildren, ho, scan_always, hall]
  | not =>
    have hnone : hits q (items c) = [] :=
      hits_eq_nil fun t ht => not_meets_of_overlaps ho (hc.rect_le_bbox ht)
    simp [searchChildren, ho, hnone]

theorem searchChildren_always {h : Nat}
    (ih : ∀ (c : TreeNode α ι) (s : σ), WF h c → (∀ t ∈ items c, t.rect.Proper) →
      search (always f) q c s = (((hits q (items c)).map (·.item)).foldl f s, true)) :
    ∀ (cs : List (TreeNode α ι)) (s : σ), WFList h cs → (∀ t ∈ itemsList cs, t.rect.Proper) →
      searchChildren (always f) q cs s =
        (((hits q (itemsList cs)).map (·.item)).foldl f s, true)
  | [], _, _, _ => by simp [searchChildren, hits]
  | c :: cs, s, hl, hp => by
    obtain ⟨hc, hcs⟩ := wfList_cons.mp hl
    have hpc : ∀ t ∈ items c, t.rect.Proper := fun t ht => hp t (by simp [ht])
    have hpcs : ∀ t ∈ itemsList cs, t.rect.Proper := fun t ht => hp t (by simp [ht])
    rw [searchChild_always f q hc hpc (fun s => ih c s hc hpc),
      searchChildren_always ih cs _ hcs hpcs]
    simp [hits_append, List.foldl_append]

/-- `search` below a well-formed node with proper item rectangles, by induction on the
height. -/
theorem search_always :
    ∀ (h : Nat) (n : TreeNode α ι) (s : σ), WF h n → (∀ t ∈ items n, t.rect.Proper) →
      search (always f) q n s = (((hits q (items n)).map (·.item)).foldl f s, true)
  | 0, _, _, hw, _ => absurd hw.height_pos (lt_irrefl 0)
  | h + 1, .leaf _ _ ts, s, _, _ => by simp [search, searchItems_always]
  | h + 1, .branch b h' cs, s, hw, hp => by
    obtain ⟨-, -, -, -, hl⟩ := wf_branch_iff.mp hw
    simpa [search] using searchChildren_always f q
      (fun c s hc hpc => search_always h c s hc hpc) cs s (by simpa using hl) (by simpa using hp)

end Search

section Root

theorem RTree.Scan_always (tr : RTree α ι) (f : σ → ι → σ) (s : σ) :
    tr.Scan (always f) s = (((items tr.data).map (·.item)).foldl f s, true) :=
  scan_always f tr.data s

theorem RTree.Count_eq (tr : RTree α ι) : tr.Count = (items tr.data).length :=
  childCount_eq tr.data

variable [LinearOrder α]

theorem RTree.Search_always {tr : RTree α ι} (hw : RootWF tr.data)
    (hp : ∀ t ∈ items tr.data, t.rect.Proper) (qmin qmax : Fin 2 → α) (f : σ → ι → σ) (s : σ) :
    tr.Search qmin qmax (always f) s =
      (((hits ⟨qmin, qmax⟩ (items tr.data)).map (·.item)).foldl f s, true) := by
  by_cases hi : intersects tr.data.bbox ⟨qmin, qmax⟩
  · rcases hw with hempty | hw
    · simp [RTree.Search, hempty, TreeNode.empty, search, searchItems_always, hits]
    · simp only [RTree.Search, hi, if_true]
      exact search_always f _ _ _ s hw hp
  · have hnone : hits ⟨qmin, qmax⟩ (items tr.data) = [] := by
      refine hits_eq_nil fun t ht hm => hi ?_
      have hle := hw.rect_le_bbox ht
      cases hb : tr.data.bbox with
      | bot => simp [hb] at hle
      | coe b =>
        rw [hb] at hle
        exact Box.Meets.mono (Box.meets_comm.mp hm) (WithBot.coe_le_coe.mp hle)
    simp [RTree.Search, hi, hnone]

/-- `Bounds` of a well-formed root: the hull of the items' rectangles, zero corners when
there is none. -/
theorem RTree.Bounds_eq [Zero α] {tr : RTree α ι} (hw : RootWF tr.data) :
    tr.Bounds = if items tr.data = [] then ((⟨0, 0⟩ : Rect α) : WithBot (Rect α))
      else Box.hull ((items tr.data).map TreeItem.rect) := by
  rcases hw with hempty | hw
  · simp [RTree.Bounds, hempty, TreeNode.empty]
  · simp [RTree.Bounds, hw.count_pos, hw.items_ne_nil, hw.bbox_eq, calcBBox_itemBox]

end Root

end Rtree
