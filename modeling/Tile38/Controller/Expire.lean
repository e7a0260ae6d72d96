import Tile38.Controller.Replay
import Tile38.Controller.Scan
import Tile38.Resp.Reader

/-!
# Expiration (controller/expire.go, crud.go)

Expiration is lazy: an id whose time has passed stays in its collection until the background
sweep removes it, and each command decides for itself whether to look at `hasExpired`. `GET`
does: an expired id is `errIDNotFound` (`cmdGet_expired`). The conditional writes and `SCAN`
look at the collection only. So at a moment when `GET` reports an id absent, `SET NX` still
refuses it as existing, `SET XX` replaces it, `FSET` finds it and `SCAN` lists it
(`expired_id_treated_as_present`).

The text `GET` prints is left out: its reply is the object, point, box or geohash precision it
formats, and the field values with `WITHFIELDS`.
-/

open Geojson Glob Collection Strings

universe u

namespace Controller

variable {α : Type u} {str : Object α → List UInt8}

/-- `getExpires(key, id)`: the time the id expires at, if one is set. -/
def getExpires (c : Controller α str) (key id : List UInt8) : Option α :=
  (c.expires.get (key, id)).map Prod.snd

/-- `hasExpired(key, id)` at the time `now`: `time.Now().After(at)`. -/
def hasExpired [LT α] [DecidableRel (α := α) (· < ·)] (c : Controller α str) (now : α)
    (key id : List UInt8) : Bool :=
  match c.getExpires key id with
  | none => false
  | some at_ => decide (at_ < now)

/-- What `cmdGet` answers for a live id, up to the text of its numbers and of the geohash. -/
inductive GetReply (α : Type u) where
  | object (o : Object α)
  | point (p : Position α)
  | hash (o : Object α) (precision : Nat)
  | bounds (b : BBox α)

section Get

variable [Field α] [LinearOrder α]

/-- The output type of `cmdGet` and its argument: `object`, `point`, `hash precision` or
`bounds`, with the tokens left. -/
def getReply (o : Object α) (typ : List UInt8) (vs : List (List UInt8)) :
    Except CmdError (GetReply α × List (List UInt8)) :=
  if typ = word "object" then .ok (.object o, vs)
  else if typ = word "point" then .ok (.point o.CalculatedPoint, vs)
  else if typ = word "hash" then
    match vs with
    | sprecision :: vs =>
      if sprecision = [] then .error .errInvalidNumberOfArguments
      else match Resp.ParseInt sprecision with
        | some precision =>
          if precision < 1 ∨ 64 < precision then .error (.errInvalidArgument sprecision)
          else .ok (.hash o precision.toNat, vs)
        | none => .error (.errInvalidArgument sprecision)
    | [] => .error .errInvalidNumberOfArguments
  else if typ = word "bounds" then .ok (.bounds o.CalculatedBBox, vs)
  else .error (.errInvalidArgument typ)

/-- `cmdGet(msg)` at the time `now`: a missing collection is `errKeyNotFound`, a missing or
expired id `errIDNotFound` (with RESP output both answer null); a live id answers its reply and,
with `WITHFIELDS`, its field values. -/
def cmdGet (c : Controller α str) (now : α) (vs : List (List UInt8)) :
    Except CmdError (GetReply α × Option (List α)) :=
  match vs with
  | key :: id :: vs =>
    if key = [] ∨ id = [] then .error .errInvalidNumberOfArguments
    else
      let (withfields, vs) : Bool × List (List UInt8) :=
        match vs with
        | peek :: rest => if ToLower peek = word "withfields" then (true, rest) else (false, vs)
        | [] => (false, [])
      match c.getCol key with
      | none => .error .errKeyNotFound
      | some col =>
        match col.Get id with
        | none => .error .errIDNotFound
        | some (o, fields) =>
          if c.hasExpired now key id then .error .errIDNotFound
          else
            let (typ, vs) : List UInt8 × List (List UInt8) :=
              match vs with
              | typ :: vs => (ToLower typ, vs)
              | [] => (word "object", [])
            match getReply o typ vs with
            | .error e => .error e
            | .ok (reply, vs) =>
              if vs = [] then .ok (reply, if withfields then some fields else none)
              else .error .errInvalidNumberOfArguments
  | _ => .error .errInvalidNumberOfArguments

/-- `GET` reports an expired id absent. -/
theorem cmdGet_expired (c : Controller α str) (now : α) {key id : List UInt8}
    (hkey : key ≠ []) (hid : id ≠ []) {col : Collection α str} (hcol : c.getCol key = some col)
    {o : Object α} {fields : List α} (hget : col.Get id = some (o, fields))
    (hexp : c.hasExpired now key id = true) (vs : List (List UInt8)) :
    cmdGet c now (key :: id :: vs) = .error .errIDNotFound := by
  simp [cmdGet, hkey, hid, hcol, hget, hexp]

end Get

/-! ### The writes that look at the collection only -/

section Writes

variable [Field α] [LinearOrder α] (env : Env α)

/-- `SET key id NX …` refuses an id its collection holds, expired or not. -/
theorem cmdSet_nx_of_present (c : Controller α str) (out : OutputType) (now : α)
    {vs : List (List UInt8)} {key id : List UInt8} {o : SetOpts α} {obj : Object α}
    (hp : parseSetArgs env vs = .ok (key, id, o, obj)) (hnx : o.nx = true)
    {col : Collection α str} (hcol : c.getCol key = some col) (hget : (col.Get id).isSome) :
    cmdSet env c out now vs = setNotOk c out true := by
  simp [cmdSet, hp, hcol, hget, hnx]

/-- `SET key id XX …` carries out a write to an id its collection holds, expired or not. -/
theorem cmdSet_xx_of_present (c : Controller α str) (out : OutputType) (now : α)
    {vs : List (List UInt8)} {key id : List UInt8} {o : SetOpts α} {obj : Object α}
    (hp : parseSetArgs env vs = .ok (key, id, o, obj)) (hnx : o.nx = false)
    {col : Collection α str} (hcol : c.getCol key = some col) (hget : (col.Get id).isSome) :
    (cmdSet env c out now vs).updated = true := by
  simp only [cmdSet, hp, hcol, Option.isNone_some, Bool.false_eq_true, false_and, if_false,
    Option.getD_some, hnx, Bool.or_false, hget]
  split_ifs <;> simp_all

/-- `FSET key id` without fields finds an id its collection holds, expired or not: no error. -/
theorem cmdFset_of_present (c : Controller α str) {key id : List UInt8} (hkey : key ≠ [])
    (hid : id ≠ []) {col : Collection α str} (hcol : c.getCol key = some col)
    {o : Object α} {fields : List α} (hget : col.Get id = some (o, fields)) :
    (cmdFset env c [key, id]).err = none := by
  obtain ⟨item, hitem, -⟩ := Option.map_eq_some_iff.mp hget
  simp [cmdFset, parseFSetArgs, parseFSetFields, hkey, hid, hcol, Collection.SetFields, hitem]

omit [LinearOrder α] in
theorem parseSetArgs_string {key id : List UInt8} (hkey : key ≠ []) (hid : id ≠ []) (v : List UInt8)
    (opt : List UInt8) (hopt : opt = word "NX" ∨ opt = word "XX") :
    parseSetArgs env [key, id, opt, word "string", v] =
      .ok (key, id, if opt = word "NX" then { nx := true } else { xx := true }, .string v) := by
  have hobj : parseSetObject env (word "string") [v] = .ok (.string v, []) := by
    simp +decide [parseSetObject]
  rcases hopt with rfl | rfl <;>
    simp +decide [parseSetArgs, parseSetOpts, hkey, hid, hobj, bind, Except.bind, pure,
      Except.pure]

/-- At a time when `GET` reports an id of a consistent collection absent because it expired,
`SET NX` refuses it as existing and changes nothing, `SET XX` replaces it, `FSET` finds it and
`SCAN` lists it. -/
theorem expired_id_treated_as_present (c : Controller α str) (now : α) {key id : List UInt8}
    (hkey : key ≠ []) (hid : id ≠ []) {col : Collection α str} (hcol : c.getCol key = some col)
    {o : Object α} {fields : List α} (hget : col.Get id = some (o, fields))
    (hexp : c.hasExpired now key id = true) (v : List UInt8) :
    cmdGet c now [key, id] = .error .errIDNotFound ∧
      cmdSet env c .JSON now [key, id, word "NX", word "string", v] =
        ⟨c, false, some .errIDAlreadyExists⟩ ∧
      (cmdSet env c .JSON now [key, id, word "XX", word "string", v]).updated = true ∧
      (cmdFset env c [key, id]).err = none ∧
      ∃ ids, cmdScan col ⟨0, .outputIDs, ascii "*", [], [], [], col.items.items.length + 1, false⟩ =
        some (.page 0 ids) ∧ id ∈ ids := by
  have hsome : (col.Get id).isSome := by simp [hget]
  refine ⟨cmdGet_expired c now hkey hid hcol hget hexp [], ?_, ?_,
    cmdFset_of_present env c hkey hid hcol hget, ?_⟩
  · rw [cmdSet_nx_of_present env c .JSON now
      (parseSetArgs_string env hkey hid v _ (.inl rfl)) (by simp) hcol hsome]
    rfl
  · exact cmdSet_xx_of_present env c .JSON now
      (parseSetArgs_string env hkey hid v _ (.inr rfl)) (by simp +decide) hcol hsome
  · refine ⟨_, cmdScan_lists_all (by simp) (by simp) rfl rfl rfl (.inl rfl) rfl
      (Nat.lt_succ_self _), ?_⟩
    obtain ⟨item, hitem, hitem_eq⟩ := Option.map_eq_some_iff.mp hget
    have hmem : item ∈ col.items.items := KeyedSet.mem_of_get hitem
    have hid_eq : item.id = id := (KeyedSet.get_eq_some_iff.mp hitem).2
    exact (scanRecords_ids_perm col false).mem_iff.mpr (hid_eq ▸ List.mem_map_of_mem hmem)

theorem expired_id_treated_as_present_string :
    let col : Collection ℚ fun _ => [] :=
      (Collection.New.ReplaceOrInsert (ascii "a") (.string (ascii "x")) none []).1
    let c : Controller ℚ fun _ => [] :=
      (Controller.empty.setCol (ascii "k") col).expireAt (ascii "k") (ascii "a") 1
    let env : Env ℚ := ⟨fun _ => none, fun _ => .error [], fun _ => .error []⟩
    cmdGet c 2 [ascii "k", ascii "a"] = .error .errIDNotFound ∧
      cmdSet env c .JSON 2 [ascii "k", ascii "a", word "NX", word "string", ascii "y"] =
        ⟨c, false, some .errIDAlreadyExists⟩ ∧
      (cmdSet env c .JSON 2 [ascii "k", ascii "a", word "XX", word "string", ascii "y"]).updated =
        true ∧
      (cmdFset env c [ascii "k", ascii "a"]).err = none ∧
      ∃ ids, cmdScan col ⟨0, .outputIDs, ascii "*", [], [], [], col.items.items.length + 1, false⟩ =
        some (.page 0 ids) ∧ ascii "a" ∈ ids :=
  expired_id_treated_as_present _ _ 2 (by decide) (by decide) (by simp [getCol_setCol])
    (show Collection.Get _ (ascii "a") = some (.string (ascii "x"), []) from rfl)
    (by simp [hasExpired, getExpires, expireAt]) (ascii "y")

end Writes

end Controller
