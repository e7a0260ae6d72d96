import Tile38.Controller.Commands
import Tile38.Glob.Match
import Mathlib.Data.List.Sort

/-!
# KEYS (controller/keys.go)

`cmdKeys` lists the keys of the collections B-tree that a pattern selects, ascending. It picks
one of four scans: `*` lists every key; a pattern that ends in a star whose rest (the pivot)
is not a glob lists the keys from the pivot on while they begin with it; any other glob goes
through `glob.Match` key by key; and a pattern that is not a glob is the pivot itself.

On ascending keys the scans are filters (`cmdKeys_eq_filter`). The pivot scans stand in for
`Match` only where the pivot is all plain bytes followed by a star (`keysSelect_plain_star`):
a pattern without a star is matched by no key but itself (`Matched_plain`), while its scan
lists every key that begins with it.
-/

open Geojson

namespace Controller

open Glob

universe u
variable {α : Type u} {str : Object α → List UInt8}

/-- The keys of the collections B-tree, in the ascending order `Ascend` visits them. -/
def keys (c : Controller α str) : List Bytes :=
  (c.cols.items.map Prod.fst).mergeSort fun a b => decide (a ≤ b)

/-- `AscendGreaterOrEqual(pivot, iter)` over ascending keys: those from `pivot` on. -/
def AscendGreaterOrEqual (keys : List Bytes) (pivot : Bytes) : List Bytes :=
  keys.filter fun k => decide (pivot ≤ k)

/-- The iterator of `cmdKeys` over the keys a scan visits: the keys it writes. With `greater`
it returns false, ending the scan, at the first key that does not begin with the pivot; a
pattern that `Match` rejects with an error matches nothing. -/
def keysIter (everything greater : Bool) (greaterPivot pattern : Bytes) : List Bytes → List Bytes
  | [] => []
  | key :: rest =>
    if everything then key :: keysIter everything greater greaterPivot pattern rest
    else if greater then
      if !greaterPivot.isPrefixOf key then []
      else key :: keysIter everything greater greaterPivot pattern rest
    else if Matched pattern key then key :: keysIter everything greater greaterPivot pattern rest
    else keysIter everything greater greaterPivot pattern rest

/-- `cmdKeys(msg)` with the arguments after the command name, on the ascending keys. -/
def cmdKeys (keys : List Bytes) (vs : List Bytes) : Except CmdError (List Bytes) :=
  match vs with
  | [pattern] =>
    if pattern = [] then .error .errInvalidNumberOfArguments
    else if pattern = ascii "*" then .ok (keysIter true false [] pattern keys)
    else if pattern.getLast? = some (ch '*') then
      if IsGlob pattern.dropLast then .ok (keysIter false false pattern.dropLast pattern keys)
      else .ok (keysIter false true pattern.dropLast pattern
        (AscendGreaterOrEqual keys pattern.dropLast))
    else if IsGlob pattern then .ok (keysIter false false [] pattern keys)
    else .ok (keysIter false true pattern pattern (AscendGreaterOrEqual keys pattern))
  | _ => .error .errInvalidNumberOfArguments

/-- The keys `cmdKeys` selects by `pattern`: all for `*`, those that begin with the pivot in a
pivot scan, and those `Match` accepts otherwise. -/
def keysSelect (pattern key : Bytes) : Bool :=
  if pattern = ascii "*" then true
  else if pattern.getLast? = some (ch '*') then
    if IsGlob pattern.dropLast then Matched pattern key else pattern.dropLast.isPrefixOf key
  else if IsGlob pattern then Matched pattern key
  else pattern.isPrefixOf key

/-! ### The order of keys -/

theorem keys_ascending (c : Controller α str) : c.keys.Pairwise (· < ·) := by
  have hsorted := @List.pairwise_mergeSort _ (fun a b : Bytes => decide (a ≤ b))
    (fun a b c hab hbc => by simpa using List.le_trans (by simpa using hab) (by simpa using hbc))
    (fun a b => by simpa using List.le_total a b) (c.cols.items.map Prod.fst)
  have hnodup : c.keys.Nodup := (List.mergeSort_perm _ _).nodup_iff.mpr c.cols.nodup
  exact (hsorted.and hnodup).imp fun h => Std.lt_of_le_of_ne (by simpa using h.1) h.2

/-- The keys that begin with `p` form an interval of the order: a key between `p` and an
extension of `p` extends `p`. -/
theorem prefix_of_le_of_le {p k k' : Bytes} (hpk : p ≤ k) (hkk : k ≤ k') (hp : p <+: k') :
    p <+: k := by
  induction p generalizing k k' with
  | nil => exact List.nil_prefix
  | cons c p ih =>
    obtain ⟨t', rfl⟩ : ∃ t', k' = c :: t' := by
      obtain ⟨u, rfl⟩ := hp
      exact ⟨p ++ u, rfl⟩
    rcases k with _ | ⟨d, t⟩
    · exact absurd hpk (by simp)
    rw [List.cons_le_cons_iff] at hpk hkk
    have hcd : c = d := by
      rcases hpk with h1 | ⟨h1, -⟩
      · rcases hkk with h2 | ⟨h2, -⟩
        · exact absurd (UInt8.lt_trans h1 h2) (UInt8.lt_irrefl c)
        · exact absurd h1 (by rw [h2]; exact UInt8.lt_irrefl c)
      · exact h1
    subst hcd
    have hpt : p ≤ t := (hpk.resolve_left (UInt8.lt_irrefl c)).2
    have htt : t ≤ t' := (hkk.resolve_left (UInt8.lt_irrefl c)).2
    exact List.cons_prefix_cons.mpr ⟨rfl, ih hpt htt (List.cons_prefix_cons.mp hp).2⟩

/-! ### The scans as filters -/

theorem keysIter_everything (greater : Bool) (greaterPivot pattern : Bytes) (keys : List Bytes) :
    keysIter true greater greaterPivot pattern keys = keys := by
  induction keys with
  | nil => rfl
  | cons k keys ih => simp [keysIter, ih]

theorem keysIter_match (greaterPivot pattern : Bytes) (keys : List Bytes) :
    keysIter false false greaterPivot pattern keys = keys.filter (Matched pattern) := by
  induction keys with
  | nil => rfl
  | cons k keys ih =>
    by_cases hm : Matched pattern k = true <;> simp [keysIter, hm, ih]

/-- A pivot scan over ascending keys lists the keys that begin with the pivot: they come first
from the pivot on, and the first key past them ends the scan. -/
theorem keysIter_greater (pivot pattern : Bytes) :
    ∀ {keys : List Bytes}, keys.Pairwise (· < ·) →
      keysIter false true pivot pattern (AscendGreaterOrEqual keys pivot) =
        keys.filter pivot.isPrefixOf
  | [], _ => rfl
  | k :: keys, hsort => by
    obtain ⟨hlt, hrest⟩ := List.pairwise_cons.mp hsort
    have ih := keysIter_greater pivot pattern hrest
    unfold AscendGreaterOrEqual at ih ⊢
    by_cases hle : pivot ≤ k
    · rw [List.filter_cons_of_pos (by simpa using hle)]
      by_cases hpre : pivot <+: k
      · simp [keysIter, List.isPrefixOf_iff_prefix.mpr hpre, ih]
      · have hnone : keys.filter pivot.isPrefixOf = [] := by
          rw [List.filter_eq_nil_iff]
          intro k' hk' hpre'
          exact hpre (prefix_of_le_of_le hle (List.le_of_lt (hlt k' hk'))
            (List.isPrefixOf_iff_prefix.mp hpre'))
        have hk : pivot.isPrefixOf k = false :=
          Bool.eq_false_iff.mpr fun h => hpre (List.isPrefixOf_iff_prefix.mp h)
        simp [keysIter, hk, hnone]
    · have hk : pivot.isPrefixOf k = false :=
        Bool.eq_false_iff.mpr fun h => hle (List.isPrefixOf_iff_prefix.mp h).le
      rw [List.filter_cons_of_neg (by simpa using hle), ih, List.filter_cons_of_neg (by simp [hk])]

/-- On ascending keys `KEYS pattern` lists, ascending, the keys `keysSelect` selects. -/
theorem cmdKeys_eq_filter {keys : List Bytes} (hsort : keys.Pairwise (· < ·)) {pattern : Bytes}
    (hne : pattern ≠ []) : cmdKeys keys [pattern] = .ok (keys.filter (keysSelect pattern)) := by
  simp only [cmdKeys, if_neg hne]
  split_ifs with hstar hlast hglob hglob'
  · rw [keysIter_everything, Except.ok.injEq]
    exact (List.filter_eq_self.mpr fun k _ => by simp [keysSelect, hstar]).symm
  · rw [keysIter_match]
    exact congrArg _ (List.filter_congr fun k _ => by simp [keysSelect, hstar, hlast, hglob])
  · rw [keysIter_greater _ pattern hsort]
    exact congrArg _ (List.filter_congr fun k _ => by simp [keysSelect, hstar, hlast, hglob])
  · rw [keysIter_match]
    exact congrArg _ (List.filter_congr fun k _ => by simp [keysSelect, hstar, hlast, hglob'])
  · rw [keysIter_greater _ pattern hsort]
    exact congrArg _ (List.filter_congr fun k _ => by simp [keysSelect, hstar, hlast, hglob'])

/-- `KEYS pattern` on a server lists each key of its collections that `keysSelect` selects,
once, ascending, and no other. -/
theorem keys_lists_selected (c : Controller α str) {pattern : Bytes} (hne : pattern ≠ []) :
    ∃ ks, cmdKeys c.keys [pattern] = .ok ks ∧ ks.Pairwise (· < ·) ∧
      ∀ k, k ∈ ks ↔ k ∈ c.cols.items.map Prod.fst ∧ keysSelect pattern k = true := by
  refine ⟨_, cmdKeys_eq_filter (keys_ascending c) hne, (keys_ascending c).filter _, fun k => ?_⟩
  rw [List.mem_filter, keys, (List.mergeSort_perm _ _).mem_iff]

/-! ### Against `Match` -/

/-- A pivot of plain bytes followed by a star selects what `Match` accepts. -/
theorem keysSelect_plain_star {pivot : Bytes} (hp : ∀ c ∈ pivot, Plain c) (hne : pivot ≠ [])
    (key : Bytes) : keysSelect (pivot ++ [ch '*']) key = Matched (pivot ++ [ch '*']) key := by
  have hnotstar : pivot ++ [ch '*'] ≠ ascii "*" := by
    intro h
    have := congrArg List.length h
    simp only [List.length_append, List.length_singleton, ascii] at this
    simp [List.length_eq_zero_iff.mp (by simpa using this)] at hne
  have hnoglob : IsGlob pivot = false := by
    have hany : pivot.any isSpecial = false := by
      simpa using fun c hc => (hp c hc).1
    simp [IsGlob, hany]
  simp only [keysSelect, if_neg hnotstar, List.getLast?_append, List.getLast?_singleton,
    Option.some_or, if_true, List.dropLast_concat, hnoglob, Bool.false_eq_true, if_false]
  simp only [Matched, Match, wildcardMatch_plain_star hp hne, ← List.isPrefixOf_iff_prefix,
    Bool.decide_eq_true]

/-- `KEYS pivot*` with a pivot of plain bytes lists, once each and ascending, the keys of the
server's collections that `Match` accepts, and no other. -/
theorem keys_star_lists_matches (c : Controller α str) {pivot : Bytes} (hp : ∀ b ∈ pivot, Plain b)
    (hne : pivot ≠ []) :
    ∃ ks, cmdKeys c.keys [pivot ++ [ch '*']] = .ok ks ∧ ks.Pairwise (· < ·) ∧
      ∀ k, k ∈ ks ↔ k ∈ c.cols.items.map Prod.fst ∧ Matched (pivot ++ [ch '*']) k = true := by
  obtain ⟨ks, hcmd, hsort, hmem⟩ := keys_lists_selected c (List.append_ne_nil_of_right_ne_nil _ (List.cons_ne_nil _ _))
  refine ⟨ks, hcmd, hsort, fun k => ?_⟩
  rw [hmem, keysSelect_plain_star hp hne]

theorem keys_star_lists_matches_fleet :
    ∃ c : Controller ℚ fun _ => [], c.cols.items.map Prod.fst = [ascii "fleet", ascii "cars"] ∧
      (∀ b ∈ ascii "fl", Plain b) ∧ ascii "fl" ≠ [] ∧
      ∃ ks, cmdKeys c.keys [ascii "fl" ++ [ch '*']] = .ok ks ∧ ks.Pairwise (· < ·) ∧
        ∀ k, k ∈ ks ↔ k ∈ c.cols.items.map Prod.fst ∧ Matched (ascii "fl" ++ [ch '*']) k = true :=
  have hp : ∀ b ∈ ascii "fl", Plain b := by set_option maxRecDepth 2000 in decide
  ⟨⟨⟨[(ascii "fleet", Collection.New), (ascii "cars", Collection.New)], by decide⟩, .empty, []⟩,
    rfl, hp, by decide, keys_star_lists_matches _ hp (by decide)⟩

/-- A pattern of plain bytes is matched by no key but itself. -/
theorem Matched_plain {pattern : Bytes} (hp : ∀ c ∈ pattern, Plain c) (hne : pattern ≠ [])
    (key : Bytes) : Matched pattern key = decide (key = pattern) := by
  simp [Matched, Match, wildcardMatch_plain hp hne]

theorem keys_literal_lists_extensions :
    cmdKeys [ascii "mykey1", ascii "mykey11"] [ascii "mykey1"] =
        .ok [ascii "mykey1", ascii "mykey11"] ∧
      Matched (ascii "mykey1") (ascii "mykey11") = false := by
  -- deciding `Plain` on the six bytes unfolds `ch` through the byte literals
  have hp : ∀ c ∈ ascii "mykey1", Plain c := by
    set_option maxRecDepth 2000 in decide
  have hsort : [ascii "mykey1", ascii "mykey11"].Pairwise (· < ·) :=
    List.pairwise_pair.mpr (by decide)
  refine ⟨?_, ?_⟩
  · rw [cmdKeys_eq_filter hsort (by decide)]
    exact congrArg Except.ok (by decide)
  · rw [Matched_plain hp (by decide)]
    decide

end Controller
