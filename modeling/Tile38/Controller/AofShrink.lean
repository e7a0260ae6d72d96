import Tile38.Controller.Replay
import Tile38.Controller.Scan
import Tile38.Controller.Keys
import Tile38.Lib.Iterate
import Tile38.Lib.Strconv
import Mathlib.Data.Rat.Floor

/-!
# Rewriting the append-only file (`aofshrink.go`)

`aofshrink` writes a new file from the database while the server goes on. It takes the lock
for one batch at a time: the next `maxkeys` keys from `nextkey` on, or the next `maxids` ids of
the first key of the batch from `nextid` on, for each of which it appends a `SET` to `aofbuf`
(`shrinkValues`): the fields that are not zero by the names of the field map, an `EX` with the
seconds left, to a tenth and rounded down, and the object as a point, a JSON text or a string.
Between the batches clients write, and `writeAOF` puts what it writes to the old file on
`shrinklog` too; the new file ends with `shrinklog`.

`aofbuf` is modelled by the commands it holds, its bytes those of `marshalRESP`
(`appendValues_eq`); how often it is flushed to the file does not change the bytes. The hooks
`aofshrink` writes after the data are outside the model, as is the swap of the files.
`strconv.FormatFloat(x, 'f', -1, 64)` is the parameter `FormatFloat`. With the exact one of
`Strconv`, the `SET` written for a point reads back through `parseSetArgs` as the point, its
fields that are not zero and the seconds left (`shrinkValues_reads_back`).
-/

open Geojson Collection Iter

universe u

namespace Collection

variable {α : Type u} {str : Object α → List UInt8}

/-- `FieldArr()`: the field names by their index, an empty name where none has it. -/
def FieldArr (c : Collection α str) : List (List UInt8) :=
  (List.range c.fieldMap.items.length).map fun i =>
    ((c.fieldMap.items.find? (·.2 = i)).map Prod.fst).getD []

end Collection

namespace Controller

variable {α : Type u} {str : Object α → List UInt8}

/-- `maxkeys`: the keys one batch lists at most. -/
def maxkeys : Nat := 8

/-- `maxids`: the ids one batch writes at most. -/
def maxids : Nat := 32

/-- What a client reads at a key and an id: the object and the value of each field name. -/
def cell (v : DBView α) (i : List UInt8 × List UInt8) : Option (Object α × (List UInt8 → α)) :=
  (v i.1).bind (· i.2)

/-! ### The command of one id -/

section Values

variable [Field α] [LinearOrder α] [FloorRing α] (FormatFloat : α → List UInt8)
  (str : Object α → List UInt8)

/-- The fields of an id as `aofshrink` writes them: `field`, the name at the value's index in
`fnames` and the value, for each value that is not zero. -/
def shrinkFields (fnames : List (List UInt8)) : Nat → List α → List (List UInt8)
  | _, [] => []
  | i, fvalue :: fields =>
    (if fvalue ≠ 0 then [word "field", fnames.getD i [], FormatFloat fvalue] else []) ++
      shrinkFields fnames (i + 1) fields

/-- `ex` and the seconds left, to a tenth and rounded down, for an id that expires after
`now`. -/
def shrinkExpires (exat : Option α) (now : α) : List (List UInt8) :=
  match exat with
  | some at_ =>
    if 0 < at_ - now then [word "ex", FormatFloat ((⌊(at_ - now) * 10⌋ : α) / 10)] else []
  | none => []

/-- The object: `point` with the latitude and longitude of a `SimplePoint`, `object` with the
JSON of another geometry, `string` with the text of a `String`. -/
def shrinkObject (obj : Object α) : List (List UInt8) :=
  match obj with
  | .simplePoint x y => [word "point", FormatFloat y, FormatFloat x]
  | obj => if obj.IsGeometry then [word "object", str obj] else [word "string", str obj]

/-- The command `aofshrink` writes for an id of `key`. -/
def shrinkValues (key id : List UInt8) (obj : Object α) (fields : List α)
    (fnames : List (List UInt8)) (exat : Option α) (now : α) : List (List UInt8) :=
  [word "set", key, id] ++ shrinkFields FormatFloat fnames 0 fields ++
    shrinkExpires FormatFloat exat now ++ shrinkObject FormatFloat str obj

end Values

/-! ### Reading the command back -/

section ReadBack

open Strconv

variable (str : Object ℚ → List UInt8)

theorem ParseFloat_FormatFloat_floor_div (t : ℚ) :
    ParseFloat (FormatFloat ((⌊t * 10⌋ : ℚ) / 10)) = some ((⌊t * 10⌋ : ℚ) / 10) := by
  refine ParseFloat_FormatFloat _ ⟨1, ?_⟩
  have h := Rat.den_dvd ⌊t * 10⌋ 10
  rw [Rat.divInt_eq_div] at h
  exact_mod_cast h

theorem parseSetOpts_shrinkFields (fnames rest : List (List UInt8)) :
    ∀ (i : Nat) (fields : List ℚ) (o : SetOpts ℚ), (∀ v ∈ fields, ∃ s, ParseFloat s = some v) →
      (∀ p ∈ fields.zipIdx i, p.1 ≠ 0 →
        fnames.getD p.2 [] ≠ [] ∧ isReservedFieldName (fnames.getD p.2 []) = false) →
      parseSetOpts decimalEnv (shrinkFields FormatFloat fnames i fields ++ rest) o =
        parseSetOpts decimalEnv rest
          { o with
            fields := o.fields ++ ((fields.zipIdx i).filter (·.1 ≠ 0)).map (fnames.getD ·.2 [])
            values := o.values ++ fields.filter (· ≠ 0) }
  | i, [], o, _, _ => by simp [shrinkFields]
  | i, v :: fields, o, hf, hn => by
    have hf' : ∀ w ∈ fields, ∃ s, ParseFloat s = some w := fun w hw => hf w (by simp [hw])
    have hn' : ∀ p ∈ fields.zipIdx (i + 1), p.1 ≠ 0 →
        fnames.getD p.2 [] ≠ [] ∧ isReservedFieldName (fnames.getD p.2 []) = false :=
      fun p hp => hn p (by simp [List.zipIdx_cons, hp])
    rw [shrinkFields, List.append_assoc, List.zipIdx_cons]
    by_cases hv : v = 0
    · simp only [hv, ne_eq, not_true_eq_false, if_false, List.nil_append]
      rw [parseSetOpts_shrinkFields fnames rest (i + 1) fields o hf' hn']
      simp
    · obtain ⟨s, hs⟩ := hf v (by simp)
      have hread := ParseFloat_FormatFloat_of_ParseFloat hs
      obtain ⟨hname, hres⟩ := hn (v, i) (by simp [List.zipIdx_cons]) hv
      simp only [hv, ne_eq, not_false_eq_true, if_true, List.cons_append, List.nil_append]
      rw [parseSetOpts, if_neg (by decide), if_pos (by decide), if_neg hname, hres,
        if_neg (by decide), if_neg (ne_nil_of_ParseFloat hread)]
      rw [show decimalEnv.ParseFloat (FormatFloat v) = some v from hread]
      dsimp only
      rw [parseSetOpts_shrinkFields fnames rest (i + 1) fields _ hf' hn']
      simp [hv]

theorem parseSetOpts_shrinkExpires (exat : Option ℚ) (now : ℚ) (rest : List (List UInt8))
    (o : SetOpts ℚ) (ho : o.expires = none) :
    parseSetOpts decimalEnv (shrinkExpires FormatFloat exat now ++ rest) o =
      parseSetOpts decimalEnv rest
        { o with expires := exat.bind fun at_ =>
            if 0 < at_ - now then some ((⌊(at_ - now) * 10⌋ : ℚ) / 10) else none } := by
  cases exat with
  | none =>
    cases o
    simp_all [shrinkExpires]
  | some at_ =>
    by_cases hlt : 0 < at_ - now
    · have hread := ParseFloat_FormatFloat_floor_div (at_ - now)
      rw [shrinkExpires, if_pos hlt, Option.bind_some, if_pos hlt, List.cons_append,
        List.cons_append, List.nil_append]
      rw [parseSetOpts.eq_def]
      dsimp only
      rw [if_neg (by decide), if_neg (by decide), if_pos (by decide), ho]
      simp [ne_nil_of_ParseFloat hread, show decimalEnv.ParseFloat _ = _ from hread]
    · rw [shrinkExpires, if_neg hlt, Option.bind_some, if_neg hlt, List.nil_append, ← ho]

/-- The type word ends the options. -/
theorem parseSetOpts_point (slat slon : List UInt8) (o : SetOpts ℚ) :
    parseSetOpts decimalEnv [word "point", slat, slon] o = .ok (o, [word "point", slat, slon]) := by
  rw [parseSetOpts, if_neg (by decide), if_neg (by decide), if_neg (by decide),
    if_neg (by decide), if_neg (by decide)]

theorem parseSetObject_point {x y : ℚ} (hx : ParseFloat (FormatFloat x) = some x)
    (hy : ParseFloat (FormatFloat y) = some y) :
    parseSetObject decimalEnv (word "point") [FormatFloat y, FormatFloat x] =
      .ok (.simplePoint x y, []) := by
  rw [parseSetObject, if_neg (by decide), if_pos (by decide)]
  simp [ne_nil_of_ParseFloat hx, ne_nil_of_ParseFloat hy, parseNum,
    show decimalEnv.ParseFloat _ = _ from hx, show decimalEnv.ParseFloat _ = _ from hy, bind,
    Except.bind, pure, Except.pure]

/-- The `SET` `aofshrink` writes for a point reads back as the point, with the fields that are
not zero under their names and the seconds left to a tenth, rounded down: when the coordinates
and the field values are numbers `ParseFloat` returns, and the names of the fields that are not
zero are ones `SET` accepts. -/
theorem shrinkValues_reads_back (key id : List UInt8) (hk : key ≠ []) (hi : id ≠ []) {x y : ℚ}
    (hx : ∃ s, ParseFloat s = some x) (hy : ∃ s, ParseFloat s = some y)
    (fields : List ℚ) (hf : ∀ v ∈ fields, ∃ s, ParseFloat s = some v)
    (fnames : List (List UInt8))
    (hn : ∀ p ∈ fields.zipIdx, p.1 ≠ 0 →
      fnames.getD p.2 [] ≠ [] ∧ isReservedFieldName (fnames.getD p.2 []) = false)
    (exat : Option ℚ) (now : ℚ) :
    parseSetArgs decimalEnv
        (shrinkValues FormatFloat str key id (.simplePoint x y) fields fnames exat now).tail =
      .ok (key, id,
        { fields := (fields.zipIdx.filter (·.1 ≠ 0)).map (fnames.getD ·.2 [])
          values := fields.filter (· ≠ 0)
          expires := exat.bind fun at_ =>
            if 0 < at_ - now then some ((⌊(at_ - now) * 10⌋ : ℚ) / 10) else none },
        .simplePoint x y) := by
  obtain ⟨sx, hsx⟩ := hx
  obtain ⟨sy, hsy⟩ := hy
  have hrx := ParseFloat_FormatFloat_of_ParseFloat hsx
  have hry := ParseFloat_FormatFloat_of_ParseFloat hsy
  have hopts := parseSetOpts_shrinkFields fnames
    (shrinkExpires FormatFloat exat now ++ [word "point", FormatFloat y, FormatFloat x]) 0 fields
    {} hf hn
  rw [parseSetOpts_shrinkExpires exat now _ _ rfl] at hopts
  rw [parseSetOpts_point] at hopts
  simp only [shrinkValues, shrinkObject, List.cons_append, List.nil_append, List.tail_cons,
    List.append_assoc, parseSetArgs, hk, hi, or_self, if_false]
  rw [hopts]
  simp [show word "point" ≠ [] by decide, parseSetObject_point hrx hry, bind, Except.bind, pure,
    Except.pure]

theorem shrinkValues_reads_back_truck :
    parseSetArgs decimalEnv (shrinkValues FormatFloat (fun _ => []) (word "fleet") (word "truck1")
        (.simplePoint (-115) 33) [0, 5 / 2] [word "heading", word "speed"] (some 10) 3).tail =
      .ok (word "fleet", word "truck1",
        { fields := [word "speed"], values := [5 / 2], expires := some 7 },
        .simplePoint (-115) 33) := by
  rw [shrinkValues_reads_back (fun _ => []) _ _ (by decide) (by decide)
    ⟨word "-115", by with_unfolding_all decide⟩ ⟨word "33", by with_unfolding_all decide⟩
    [0, 5 / 2] ?_ _ (by with_unfolding_all decide) (some 10) 3]
  · norm_num [List.zipIdx_cons]
  · intro v hv
    simp only [List.mem_cons, List.not_mem_nil, or_false] at hv
    rcases hv with rfl | rfl
    · exact ⟨word "0", by with_unfolding_all decide⟩
    · exact ⟨word "2.5", by with_unfolding_all decide⟩

end ReadBack

/-- The bytes `aofshrink` appends to `aofbuf` for a command: `*` and the number of values, then
`$`, the length and the bytes of each value, each line ended by CR LF. -/
def appendValues (aofbuf : List UInt8) (values : List (List UInt8)) : List UInt8 :=
  values.foldl (fun buf value => buf ++ word "$" ++ word (toString value.length) ++ [13, 10] ++
    value ++ [13, 10]) (aofbuf ++ word "*" ++ word (toString values.length) ++ [13, 10])

/-- The bytes `aofshrink` writes for a command are those `writeAOF` writes for it. -/
theorem appendValues_eq (aofbuf : List UInt8) (values : List (List UInt8)) :
    appendValues aofbuf values = aofbuf ++ marshalRESP values := by
  have hfold : ∀ (vs : List (List UInt8)) (buf : List UInt8),
      vs.foldl (fun buf value => buf ++ word "$" ++ word (toString value.length) ++ [13, 10] ++
        value ++ [13, 10]) buf =
      buf ++ vs.flatMap fun v => word "$" ++ word (toString v.length) ++ [13, 10] ++ v ++ [13, 10] := by
    intro vs
    induction vs with
    | nil => intro buf; simp
    | cons v vs ih => intro buf; rw [List.foldl_cons, ih, List.flatMap_cons]; simp
  rw [appendValues, hfold, marshalRESP]; simp

/-! ### The batches -/

/-- The variables of `aofshrink` between its locked steps: the commands in `aofbuf`, the keys
of the batch, where the next key batch starts and whether there is none, and for the first key
of the batch where its next id batch starts and whether there is none. -/
structure Shrink where
  aofbuf : List (List (List UInt8))
  keys : List (List UInt8)
  nextkey : List UInt8
  keysdone : Bool
  nextid : List UInt8
  idsdone : Bool

/-- The variables as `aofshrink` starts. -/
def Shrink.init : Shrink := ⟨[], [], [], false, [], false⟩

/-- The iterator of the key scan: a key past `maxkeys` is where the next scan starts. -/
def keyIter (s : Shrink) (key : List UInt8) : Shrink × Bool :=
  if s.keys.length = maxkeys then ({ s with keysdone := false, nextkey := key }, false)
  else ({ s with keys := s.keys ++ [key] }, true)

/-- The locked step that lists keys: `scanGreaterOrEqual(nextkey, …)`. -/
def loadKeys (c : Controller α str) (s : Shrink) : Shrink :=
  (foldWhile keyIter (AscendGreaterOrEqual c.keys s.nextkey) { s with keysdone := true }).1

section Ids

variable [Field α] [LinearOrder α] [FloorRing α] (FormatFloat : α → List UInt8)
  (str : Object α → List UInt8)

/-- The iterator of the id scan of `key`, with the count of ids written: an id past `maxids` is
where the next scan starts; before, its command goes to `aofbuf`. -/
def idIter (key : List UInt8) (fnames : List (List UInt8)) (exm : List UInt8 → Option α)
    (now : α) (st : Shrink × Nat) (r : List UInt8 × Object α × List α) : (Shrink × Nat) × Bool :=
  if st.2 = maxids then (({ st.1 with nextid := r.1, idsdone := false }, st.2), false)
  else
    (({ st.1 with aofbuf := st.1.aofbuf ++
        [shrinkValues FormatFloat str key r.1 r.2.1 r.2.2 fnames (exm r.1) now] }, st.2 + 1), true)

/-- The locked step that writes ids of the first key of the batch:
`col.ScanGreaterOrEqual(nextid, false, …)`, with the field names and the expirations of the
key read at its start. A key gone since it was listed has none. -/
def loadIds (c : Controller α str) (now : α) (s : Shrink) : Shrink :=
  match s.keys with
  | [] => s
  | key :: _ =>
    let s := { s with idsdone := true }
    match c.getCol key with
    | none => s
    | some col =>
      (foldWhile (idIter FormatFloat str key col.FieldArr
          (fun id => (c.expires.get (key, id)).map Prod.snd) now)
        ((scanRecords col false).filter fun r => decide (s.nextid ≤ r.1)) (s, 0)).1.1

/-- One turn of the loops of `aofshrink` up to and through its next locked step; `none` once
the loops are done. A key whose ids are all written leaves the batch without a lock. -/
def shrinkStep (c : Controller α str) (now : α) (s : Shrink) : Option Shrink :=
  match s.keys with
  | [] => if s.keysdone then none else some (loadKeys c s)
  | _ :: keys =>
    if s.idsdone then some { s with keys, nextid := [], idsdone := false }
    else some (loadIds FormatFloat str c now s)

end Ids

/-! ### The server while the file is rewritten -/

/-- The server while `aofshrink` runs: the controller, `shrinklog`, and the variables of
`aofshrink`. -/
structure Shrinking (α : Type u) (str : Object α → List UInt8) where
  ctl : Controller α str
  shrinklog : List (List (List UInt8))
  proc : Shrink

/-- What runs while `aofshrink` holds no lock. -/
inductive Event (α : Type u) where
  /-- `handleInputCommand` of a client's command. -/
  | client (out : OutputType) (now : α) (msg : List (List UInt8))
  /-- The purge of an id by `backgroundExpiring`. -/
  | expire (now : α) (key id : List UInt8)
  /-- The next locked step of `aofshrink`. -/
  | shrink (now : α)

section Run

variable [Field α] [LinearOrder α] [FloorRing α] (env : Env α) (FormatFloat : α → List UInt8)

/-- One event. While `shrinking`, `writeAOF` appends what it writes to the file to `shrinklog`
as well. -/
def Shrinking.step (sys : Shrinking α str) : Event α → Option (Shrinking α str)
  | .client out now msg =>
    (handleInputCommand env sys.ctl out now msg).map fun r =>
      { sys with ctl := r.1, shrinklog := sys.shrinklog ++ r.1.aof.drop sys.ctl.aof.length }
  | .expire now key id =>
    let c := expireItem sys.ctl now key id
    some { sys with ctl := c, shrinklog := sys.shrinklog ++ c.aof.drop sys.ctl.aof.length }
  | .shrink now =>
    (shrinkStep FormatFloat str sys.ctl now sys.proc).map fun p => { sys with proc := p }

/-- The events in order; `none` if one of them cannot run. -/
def Shrinking.run (sys : Shrinking α str) : List (Event α) → Option (Shrinking α str)
  | [] => some sys
  | e :: es => (sys.step env FormatFloat e).bind fun sys' => sys'.run es

/-- The new file: the commands of the batches, then `shrinklog`. -/
def shrinkFile (sys : Shrinking α str) : List (List (List UInt8)) :=
  sys.proc.aofbuf ++ sys.shrinklog

end Run

/-- A client's `FSET` that sets a field and then fails on a bad value, after `aofshrink` wrote
its id: the field is in the database but in neither part of the new file, which replays
without it. -/
theorem shrink_loses_failed_fset :
    ∃ sys, Shrinking.run decimalEnv Strconv.FormatFloat
        (⟨empty, [], Shrink.init⟩ : Shrinking ℚ fun _ => [])
        [.client .RESP 0
          [word "set", word "fleet", word "truck1", word "point", word "33", word "-115"],
        .shrink 0, .shrink 0,
        .client .RESP 0
          [word "fset", word "fleet", word "truck1", word "speed", word "10", word "heading",
            word "x"],
        .shrink 0] = some sys ∧
      shrinkStep Strconv.FormatFloat (fun _ => []) sys.ctl 0 sys.proc = none ∧
      ∃ c, loadAOF decimalEnv 0 (empty : Controller ℚ fun _ => []) (shrinkFile sys) = some (.ok c) ∧
        (cell c.view (word "fleet", word "truck1")).map (·.2 (word "speed")) = some 0 ∧
        (cell sys.ctl.view (word "fleet", word "truck1")).map (·.2 (word "speed")) = some 10 ∧
        c.view ≠ sys.ctl.view := by
  refine ⟨_, by with_unfolding_all rfl, by with_unfolding_all rfl, _, by with_unfolding_all rfl,
    by with_unfolding_all decide, by with_unfolding_all decide, fun hv => ?_⟩
  have hspeed := congrArg (fun v => (cell v (word "fleet", word "truck1")).map (·.2 (word "speed"))) hv
  exact absurd hspeed (by with_unfolding_all decide)

end Controller
