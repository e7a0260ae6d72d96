import Tile38.Controller.Aof
import Tile38.Collection.View
import Tile38.Lib.Strconv

/-!
# What the write commands do to the database a client reads

A client reads, per key, the view of its collection (`Collection.view`): ids, objects and field
values by name. `absCommand` states what each modelled command does to that database, with its
`d.updated` and its error; `Live.command_spec` shows that `command` refines it from every live
state. Two consequences carry the results about the file:

* what `command` does to the database depends on the database alone, not on the slots or the
  counters, nor on the output type once the command succeeded (`absCommand_out`); and the
  collections after a command depend on the collections before it alone, not on the expiration
  map or the time (`command_frame`);
* a command that is not written to the file leaves the database as it was
  (`absCommand_unlogged`), save an `FSET` whose arguments fail to parse: `cmdFset` sets the
  fields parsed before the bad token and returns the parse error (`fset_sets_before_error`).

Without such an `FSET` in the history, replaying the file on an empty server rebuilds the
database (`replay_reproduces`).
-/

open Geojson Collection Strings

universe u

namespace Controller

variable {α : Type u} {str : Object α → List UInt8}

/-- The database as a client reads it back: per key, the view of its collection. -/
abbrev DBView (α : Type u) := List UInt8 → Option (ColView α)

/-- Every collection of the database is live. -/
def Live (c : Controller α str) : Prop :=
  ∀ key col, c.getCol key = some col → col.Live

section State

@[simp] theorem clearIDExpires_cols (c : Controller α str) (key id : List UInt8) :
    (c.clearIDExpires key id).cols = c.cols := rfl

@[simp] theorem clearKeyExpires_cols (c : Controller α str) (key : List UInt8) :
    (c.clearKeyExpires key).cols = c.cols := rfl

@[simp] theorem expireAt_cols (c : Controller α str) (key id : List UInt8) (at_ : α) :
    (c.expireAt key id at_).cols = c.cols := rfl

@[simp] theorem setCol_cols (c : Controller α str) (key : List UInt8) (col : Collection α str) :
    (c.setCol key col).cols = (c.cols.replaceOrInsert (key, col)).1 := rfl

@[simp] theorem updateCol_cols (c : Controller α str) (key : List UInt8) (col : Collection α str) :
    (c.updateCol key col).cols = c.cols.update key (fun e => (e.1, col)) fun _ => rfl := rfl

@[simp] theorem deleteCol_cols (c : Controller α str) (key : List UInt8) :
    (c.deleteCol key).cols = c.cols.erase key := rfl

@[simp] theorem clearIDExpires_aof (c : Controller α str) (key id : List UInt8) :
    (c.clearIDExpires key id).aof = c.aof := rfl

@[simp] theorem clearKeyExpires_aof (c : Controller α str) (key : List UInt8) :
    (c.clearKeyExpires key).aof = c.aof := rfl

@[simp] theorem updateCol_aof (c : Controller α str) (key : List UInt8) (col : Collection α str) :
    (c.updateCol key col).aof = c.aof := rfl

@[simp] theorem deleteCol_aof (c : Controller α str) (key : List UInt8) :
    (c.deleteCol key).aof = c.aof := rfl

@[simp] theorem getCol_clearIDExpires (c : Controller α str) (key id key' : List UInt8) :
    (c.clearIDExpires key id).getCol key' = c.getCol key' := rfl

@[simp] theorem getCol_clearKeyExpires (c : Controller α str) (key key' : List UInt8) :
    (c.clearKeyExpires key).getCol key' = c.getCol key' := rfl

@[simp] theorem getCol_expireAt (c : Controller α str) (key id key' : List UInt8) (at_ : α) :
    (c.expireAt key id at_).getCol key' = c.getCol key' := rfl

@[simp] theorem getCol_writeAOF (c : Controller α str) (values : List (List UInt8)) (u : Bool)
    (key : List UInt8) : (c.writeAOF values u).getCol key = c.getCol key := by
  simp [getCol]

@[simp] theorem live_clearIDExpires {c : Controller α str} {key id : List UInt8} :
    (c.clearIDExpires key id).Live ↔ c.Live := Iff.rfl

@[simp] theorem live_clearKeyExpires {c : Controller α str} {key : List UInt8} :
    (c.clearKeyExpires key).Live ↔ c.Live := Iff.rfl

@[simp] theorem live_expireAt {c : Controller α str} {key id : List UInt8} {at_ : α} :
    (c.expireAt key id at_).Live ↔ c.Live := Iff.rfl

theorem getCol_setCol (c : Controller α str) (key key' : List UInt8) (col : Collection α str) :
    (c.setCol key col).getCol key' = if key' = key then some col else c.getCol key' := by
  unfold getCol setCol
  by_cases h : key' = key
  · subst h
    have := c.cols.get_replaceOrInsert_self (key', col)
    simp only at this
    simp [this]
  · rw [if_neg h, KeyedSet.get_replaceOrInsert_ne _ _ h]

theorem getCol_updateCol (c : Controller α str) (key key' : List UInt8) (col : Collection α str) :
    (c.updateCol key col).getCol key' =
      if key' = key then (c.getCol key).map fun _ => col else c.getCol key' := by
  unfold getCol updateCol
  by_cases h : key' = key
  · subst h
    simp only [KeyedSet.get_update_self, Option.map_map, if_true]
    rfl
  · rw [if_neg h, KeyedSet.get_update_ne _ _ _ h]

theorem getCol_deleteCol (c : Controller α str) (key key' : List UInt8) :
    (c.deleteCol key).getCol key' = if key' = key then none else c.getCol key' := by
  unfold getCol deleteCol
  by_cases h : key' = key
  · subst h
    simp
  · rw [if_neg h, KeyedSet.get_erase_ne _ h]

theorem Live.setCol {c : Controller α str} (hl : c.Live) (key : List UInt8) {col : Collection α str}
    (hcol : col.Live) : (c.setCol key col).Live := by
  intro key' col' h
  rw [getCol_setCol] at h
  split_ifs at h
  · cases h
    exact hcol
  · exact hl key' col' h

theorem Live.updateCol {c : Controller α str} (hl : c.Live) (key : List UInt8)
    {col : Collection α str} (hcol : col.Live) : (c.updateCol key col).Live := by
  intro key' col' h
  rw [getCol_updateCol] at h
  split_ifs at h
  · obtain ⟨_, -, rfl⟩ := Option.map_eq_some_iff.mp h
    exact hcol
  · exact hl key' col' h

theorem Live.deleteCol {c : Controller α str} (hl : c.Live) (key : List UInt8) :
    (c.deleteCol key).Live := by
  intro key' col' h
  rw [getCol_deleteCol] at h
  split_ifs at h
  exact hl key' col' h

theorem live_empty : (empty : Controller α str).Live := by
  intro key col h
  simp [getCol, empty] at h

theorem Live.writeAOF {c : Controller α str} (hl : c.Live) (values : List (List UInt8))
    (updated : Bool) : (c.writeAOF values updated).Live := by
  intro key col h
  exact hl key col (by simpa [getCol] using h)

end State

section View

variable [Zero α]

/-- What a client reads back from the server. -/
def view (c : Controller α str) : DBView α := fun key => (c.getCol key).map Collection.view

@[simp] theorem view_clearIDExpires (c : Controller α str) (key id : List UInt8) :
    (c.clearIDExpires key id).view = c.view := rfl

@[simp] theorem view_clearKeyExpires (c : Controller α str) (key : List UInt8) :
    (c.clearKeyExpires key).view = c.view := rfl

@[simp] theorem view_expireAt (c : Controller α str) (key id : List UInt8) (at_ : α) :
    (c.expireAt key id at_).view = c.view := rfl

theorem view_setCol (c : Controller α str) (key : List UInt8) (col : Collection α str) :
    (c.setCol key col).view = Function.update c.view key (some col.view) := by
  funext key'
  by_cases h : key' = key
  · subst h
    simp [view, getCol_setCol]
  · simp [view, getCol_setCol, h]

theorem view_updateCol {c : Controller α str} {key : List UInt8} {col₀ : Collection α str}
    (h₀ : c.getCol key = some col₀) (col : Collection α str) :
    (c.updateCol key col).view = Function.update c.view key (some col.view) := by
  funext key'
  by_cases h : key' = key
  · subst h
    simp [view, getCol_updateCol, h₀]
  · simp [view, getCol_updateCol, h]

theorem view_deleteCol (c : Controller α str) (key : List UInt8) :
    (c.deleteCol key).view = Function.update c.view key none := by
  funext key'
  by_cases h : key' = key
  · subst h
    simp [view, getCol_deleteCol]
  · simp [view, getCol_deleteCol, h]

@[simp] theorem view_empty : (empty : Controller α str).view = fun _ => none := by
  funext key
  simp [view, getCol, empty]

theorem view_writeAOF (c : Controller α str) (values : List (List UInt8)) (updated : Bool) :
    (c.writeAOF values updated).view = c.view := by
  funext key
  simp [view, getCol]

end View

/-! ### The commands on the database a client reads -/

section Abstract

variable [Field α] [LinearOrder α] (env : Env α)

/-- The error of the `notok` exit of `SET`. -/
def setNotOkErr (out : OutputType) (nx : Bool) : Option CmdError :=
  match out with
  | .JSON => some (if nx then .errIDAlreadyExists else .errIDNotFound)
  | _ => none

/-- `SET`: the collection of the key, a new one if none, takes the object, unless `XX` or `NX`
says no. -/
def absSet (v : DBView α) (out : OutputType) (vs : List (List UInt8)) :
    DBView α × Bool × Option CmdError :=
  match parseSetArgs env vs with
  | .error e => (v, false, some e)
  | .ok (key, id, o, obj) =>
    if (v key).isNone ∧ o.xx then (v, false, setNotOkErr out o.nx)
    else
      let col := (v key).getD fun _ => none
      if (o.xx || o.nx) ∧ ((o.nx ∧ (col id).isSome) ∨ (o.xx ∧ (col id).isNone)) then
        (v, false, setNotOkErr out o.nx)
      else (Function.update v key (some (col.replace id obj (o.fields.zip o.values))), true, none)

/-- `FSET`: the fields parsed, up to a bad token if any, set on the id; the parse error, if
any, returned at the end. -/
def absFset (v : DBView α) (vs : List (List UInt8)) : DBView α × Bool × Option CmdError :=
  let (d, err) := parseFSetArgs env vs
  match v d.key with
  | none => (v, false, some .errKeyNotFound)
  | some col =>
    let r := col.setFields d.id (d.fields.zip d.values)
    let v := Function.update v d.key (some r.1)
    match r.2 with
    | none => if d.xx then (v, false, err) else (v, false, some .errIDNotFound)
    | some n => (v, 0 < n, err)

open Classical in
/-- `DEL`: the id leaves its collection, and a collection left empty leaves the database. -/
noncomputable def absDel (v : DBView α) (vs : List (List UInt8)) : DBView α × Bool × Option CmdError :=
  match vs with
  | [key, id] =>
    if key = [] ∨ id = [] then (v, false, some .errInvalidNumberOfArguments)
    else
      match v key with
      | none => (v, false, none)
      | some col =>
        if (col id).isSome then
          ((if col.remove id = (fun _ => none) then Function.update v key none
            else Function.update v key (some (col.remove id))), true, none)
        else (v, false, none)
  | _ => (v, false, some .errInvalidNumberOfArguments)

/-- `DROP`: the key leaves the database. -/
def absDrop (v : DBView α) (vs : List (List UInt8)) : DBView α × Bool × Option CmdError :=
  match vs with
  | [key] =>
    if key = [] then (v, false, some .errInvalidNumberOfArguments)
    else if (v key).isSome then (Function.update v key none, true, none) else (v, false, none)
  | _ => (v, false, some .errInvalidNumberOfArguments)

/-- `FLUSHDB`: nothing is left. -/
def absFlushDB (v : DBView α) (vs : List (List UInt8)) : DBView α × Bool × Option CmdError :=
  match vs with
  | [] => (fun _ => none, true, none)
  | _ => (v, false, some .errInvalidNumberOfArguments)

/-- What `command` does to the database a client reads: the new database, `d.updated` and the
error. -/
noncomputable def absCommand (v : DBView α) (out : OutputType) (msg : List (List UInt8)) :
    Option (DBView α × Bool × Option CmdError) :=
  match msg with
  | [] => none
  | name :: vs =>
    if ToLower name = word "set" then some (absSet env v out vs)
    else if ToLower name = word "fset" then some (absFset env v vs)
    else if ToLower name = word "del" then some (absDel v vs)
    else if ToLower name = word "drop" then some (absDrop v vs)
    else if ToLower name = word "flushdb" then some (absFlushDB v vs)
    else none

/-- An `FSET` whose arguments fail to parse: `cmdFset` goes on with the fields parsed before the
bad token. -/
def fsetParseFails : List (List UInt8) → Bool
  | name :: vs => ToLower name == word "fset" && (parseFSetArgs env vs).2.isSome
  | [] => false

/-- The output type only decides the error of a `SET` that `XX` or `NX` stops: a command that
succeeds and updates does so for every output type. -/
theorem absCommand_out {v v' : DBView α} {out : OutputType} {msg : List (List UInt8)}
    (h : absCommand env v out msg = some (v', true, none)) (out' : OutputType) :
    absCommand env v out' msg = some (v', true, none) := by
  unfold absCommand at h ⊢
  rcases msg with _ | ⟨name, vs⟩
  · cases h
  · simp only at h ⊢
    split_ifs at h ⊢
    · unfold absSet at h ⊢
      cases hp : parseSetArgs env vs with
      | error e => simp [hp] at h
      | ok r =>
        obtain ⟨key, id, o, obj⟩ := r
        simp only [hp] at h ⊢
        split_ifs at h ⊢ <;> simp_all
    all_goals exact h

/-- A command that is not written to the file, because it failed or updated nothing, leaves the
database as it was; the one exception is an `FSET` whose arguments fail to parse. -/
theorem absCommand_unlogged {v v' : DBView α} {out : OutputType} {msg : List (List UInt8)}
    {u : Bool} {e : Option CmdError} (h : absCommand env v out msg = some (v', u, e))
    (hlog : e.isSome ∨ u = false) (hf : fsetParseFails env msg = false) : v' = v := by
  unfold absCommand at h
  rcases msg with _ | ⟨name, vs⟩
  · cases h
  simp only at h
  split_ifs at h with hset hfset
  · -- SET: the errors and the `notok` exits return the database
    unfold absSet at h
    cases hp : parseSetArgs env vs with
    | error e' =>
      simp only [hp, Option.some.injEq, Prod.mk.injEq] at h
      exact h.1.symm
    | ok r =>
      obtain ⟨key, id, o, obj⟩ := r
      simp only [hp] at h
      split_ifs at h <;> simp only [Option.some.injEq, Prod.mk.injEq] at h
      · exact h.1.symm
      · exact h.1.symm
      · obtain ⟨-, rfl, rfl⟩ := h
        simp at hlog
  · -- FSET that parses: a missing key or id, or no value changed, leaves the view alone
    have hparse : (parseFSetArgs env vs).2 = none := by
      simpa [fsetParseFails, hfset] using hf
    unfold absFset at h
    rcases hp : parseFSetArgs env vs with ⟨d, err⟩
    rw [hp] at hparse
    simp only at hparse
    subst hparse
    simp only [hp] at h
    cases hv : v d.key with
    | none =>
      simp only [hv, Option.some.injEq, Prod.mk.injEq] at h
      exact h.1.symm
    | some col =>
      simp only [hv] at h
      have hsame : (col.setFields d.id (d.fields.zip d.values)).2 = none ∨
          (col.setFields d.id (d.fields.zip d.values)).2 = some 0 →
          Function.update v d.key (some (col.setFields d.id (d.fields.zip d.values)).1) = v := by
        intro hz
        rw [ColView.setFields_of_count_eq_zero col d.id _ hz, ← hv, Function.update_eq_self]
      cases hr : (col.setFields d.id (d.fields.zip d.values)).2 with
      | none =>
        simp only [hr] at h
        split_ifs at h <;> simp only [Option.some.injEq, Prod.mk.injEq] at h <;>
          exact h.1 ▸ hsame (.inl hr)
      | some n =>
        simp only [hr, Option.some.injEq, Prod.mk.injEq] at h
        obtain ⟨hv', hu, rfl⟩ := h
        have hn : n = 0 := by
          rcases hlog with hlog | hlog
          · simp at hlog
          · rw [← hu] at hlog
            simpa using hlog
        exact hv' ▸ hsame (.inr (hn ▸ hr))
  · -- DEL: only a removal updates
    unfold absDel at h
    rcases vs with _ | ⟨key, _ | ⟨id, _ | ⟨x, rest⟩⟩⟩
    all_goals simp only at h
    all_goals try split_ifs at h
    all_goals try (cases hv : v key <;> simp only [hv] at h)
    all_goals try split_ifs at h
    all_goals simp only [Option.some.injEq, Prod.mk.injEq] at h
    all_goals first
      | exact h.1.symm
      | (obtain ⟨-, rfl, rfl⟩ := h; simp at hlog)
  · -- DROP: only dropping a key updates
    unfold absDrop at h
    rcases vs with _ | ⟨key, _ | ⟨x, rest⟩⟩
    all_goals simp only at h
    all_goals try split_ifs at h
    all_goals simp only [Option.some.injEq, Prod.mk.injEq] at h
    all_goals first
      | exact h.1.symm
      | (obtain ⟨-, rfl, rfl⟩ := h; simp at hlog)
  · -- FLUSHDB: it always updates unless it fails
    unfold absFlushDB at h
    rcases vs with _ | ⟨x, rest⟩
    all_goals simp only [Option.some.injEq, Prod.mk.injEq] at h
    all_goals first
      | exact h.1.symm
      | (obtain ⟨-, rfl, rfl⟩ := h; simp at hlog)

end Abstract

/-! ### `command` refines `absCommand` -/

section Refinement

variable [Field α] [LinearOrder α] (env : Env α) {c : Controller α str}

omit [Field α] [LinearOrder α] in
theorem Get_New (id : List UInt8) : (New : Collection α str).Get id = none := rfl

omit [Field α] [LinearOrder α] in
theorem setNotOk_eq (c : Controller α str) (out : OutputType) (nx : Bool) :
    setNotOk c out nx = ⟨c, false, setNotOkErr out nx⟩ := by
  cases out <;> rfl

omit [Field α] [LinearOrder α] in
theorem parseSetOpts_length {args : List (List UInt8)} {o o' : SetOpts α}
    {rest : List (List UInt8)} (hs : parseSetOpts env args o = .ok (o', rest))
    (ho : o.fields.length = o.values.length) : o'.fields.length = o'.values.length := by
  fun_induction parseSetOpts env args o <;> simp_all

omit [LinearOrder α] in
theorem parseSetArgs_length {vs : List (List UInt8)} {key id : List UInt8} {o : SetOpts α}
    {obj : Object α} (h : parseSetArgs env vs = .ok (key, id, o, obj)) :
    o.fields.length = o.values.length := by
  unfold parseSetArgs at h
  split at h
  · rename_i rest
    split_ifs at h
    cases hs : parseSetOpts env rest {} with
    | error e => simp [hs, bind, Except.bind] at h
    | ok r =>
      obtain ⟨o', rest'⟩ := r
      have hlen := parseSetOpts_length env hs rfl
      simp only [hs, bind, Except.bind] at h
      split at h
      · rename_i typ vs'
        split_ifs at h
        cases hob : parseSetObject env typ vs' with
        | error e => simp [hob] at h
        | ok r =>
          simp only [hob] at h
          split_ifs at h
          cases h
          exact hlen
      · cases h
  · cases h

theorem Live.cmdSet_spec (hl : c.Live) (out : OutputType) (now : α) (vs : List (List UInt8)) :
    (cmdSet env c out now vs).state.Live ∧
      ((cmdSet env c out now vs).state.view, (cmdSet env c out now vs).updated,
        (cmdSet env c out now vs).err) = absSet env c.view out vs := by
  unfold cmdSet absSet
  cases hp : parseSetArgs env vs with
  | error e => exact ⟨hl, rfl⟩
  | ok r =>
    obtain ⟨key, id, o, obj⟩ := r
    have hfv : (if o.fields = [] then none else some o.fields) = none → o.values = [] := by
      intro h
      have hlen := parseSetArgs_length env hp
      split_ifs at h with hf
      rw [hf] at hlen
      exact List.eq_nil_of_length_eq_zero hlen.symm
    have hzip : ((if o.fields = [] then none else some o.fields).getD []).zip o.values =
        o.fields.zip o.values := by
      split_ifs with h <;> simp [h]
    have hv : c.view key = (c.getCol key).map Collection.view := rfl
    dsimp only
    rw [hv]
    rcases Option.eq_none_or_eq_some (c.getCol key) with hf | ⟨col, hf⟩
    · by_cases hxx : o.xx = true
      · simp [hf, hxx, setNotOk_eq, hl]
      · have hcol := (live_New : (New : Collection α str).Live).ReplaceOrInsert id obj _ _ hfv
        have hview := (live_New : (New : Collection α str).Live).view_ReplaceOrInsert id obj _ _ hfv
        have hget : ((c.setCol key New).clearIDExpires key id).getCol key = some New := by
          simp [getCol_setCol]
        rw [hzip] at hview
        rcases Option.eq_none_or_eq_some o.expires with hex | ⟨ex, hex⟩ <;>
          simp [hf, hxx, hex, Get_New, view_updateCol hget, view_setCol, hview, hl.setCol, hcol,
            Live.updateCol, live_New]
    · have hcl := hl key col hf
      have hcol := hcl.ReplaceOrInsert id obj _ _ hfv
      have hview := hcl.view_ReplaceOrInsert id obj _ _ hfv
      rw [hzip] at hview
      have hget : (c.clearIDExpires key id).getCol key = some col := by simp [hf]
      have hsome := col.Get_isSome id
      have hnone : (col.Get id).isNone = (col.view id).isNone := by
        rw [← Option.not_isSome, ← Option.not_isSome, hsome]
      rcases Option.eq_none_or_eq_some o.expires with hex | ⟨ex, hex⟩ <;>
        simp only [hf, hex, hsome, hnone, setNotOk_eq, Option.isNone_some, Bool.false_eq_true,
          false_and, if_false, Option.getD_some, Option.map_some] <;>
        split <;> simp [view_updateCol hget, hview, hl, hcol, Live.updateCol]

theorem Live.cmdFset_spec (hl : c.Live) (vs : List (List UInt8)) :
    (cmdFset env c vs).state.Live ∧
      ((cmdFset env c vs).state.view, (cmdFset env c vs).updated, (cmdFset env c vs).err) =
        absFset env c.view vs := by
  unfold cmdFset absFset
  rcases hp : parseFSetArgs env vs with ⟨d, err⟩
  have hv : c.view d.key = (c.getCol d.key).map Collection.view := rfl
  dsimp only
  rw [hv]
  rcases Option.eq_none_or_eq_some (c.getCol d.key) with hf | ⟨col, hf⟩
  · simp [hf, hl]
  · have hcl := hl _ col hf
    obtain ⟨hview, hcount⟩ := hcl.view_SetFields d.id d.fields d.values
    have hlive := hcl.SetFields d.id d.fields d.values
    simp only [hf, Option.map_some]
    rw [← hcount, ← hview]
    rcases hr : (col.SetFields d.id d.fields d.values).2 with _ | ⟨o, f, n⟩
    · simp only [Option.map_none]
      split <;> simp [view_updateCol hf, hl.updateCol _ hlive]
    · simp [view_updateCol hf, hl.updateCol _ hlive]

theorem Live.cmdDel_spec (hl : c.Live) (vs : List (List UInt8)) :
    (cmdDel c vs).state.Live ∧
      ((cmdDel c vs).state.view, (cmdDel c vs).updated, (cmdDel c vs).err) = absDel c.view vs := by
  unfold cmdDel absDel
  rcases vs with _ | ⟨key, _ | ⟨id, _ | ⟨x, rest⟩⟩⟩
  · exact ⟨hl, rfl⟩
  · exact ⟨hl, rfl⟩
  · by_cases hk : key = [] ∨ id = []
    · simp [hk, hl]
    · have hv : c.view key = (c.getCol key).map Collection.view := rfl
      simp only [hk, if_false]
      rw [hv]
      rcases Option.eq_none_or_eq_some (c.getCol key) with hf | ⟨col, hf⟩
      · simp [hf, hl]
      · simp only [hf, Option.map_some]
        have hcl := hl key col hf
        have hsome : (col.Remove id).2.isSome = (col.view id).isSome := by
          rw [Remove_snd_isSome]
          simp [Collection.view]
        have hview := col.view_Remove id
        have hlive := hcl.Remove id
        have hempty := hlive.count_eq_zero_iff_view
        rcases hr : col.Remove id with ⟨col', _ | t⟩
        · rw [hr] at hsome
          simp [← hsome, hl]
        · rw [hr] at hsome hview hlive hempty
          simp only at hsome hview hlive hempty
          have hupd := view_updateCol hf col'
          by_cases h0 : col'.Count = 0
          · have hnil : col.view.remove id = fun _ => none := hview ▸ hempty.mp h0
            simp [h0, ← hsome, hnil, view_deleteCol, hupd, (hl.updateCol key hlive).deleteCol]
          · have hne : ¬col.view.remove id = fun _ => none :=
              fun h => h0 (hempty.mpr (hview.trans h))
            simp [h0, ← hsome, hne, hupd, hview, hl.updateCol key hlive]
  · exact ⟨hl, rfl⟩

omit [LinearOrder α] in
theorem Live.cmdDrop_spec (hl : c.Live) (vs : List (List UInt8)) :
    (cmdDrop c vs).state.Live ∧
      ((cmdDrop c vs).state.view, (cmdDrop c vs).updated, (cmdDrop c vs).err) = absDrop c.view vs := by
  unfold cmdDrop absDrop
  rcases vs with _ | ⟨key, _ | ⟨x, rest⟩⟩
  · exact ⟨hl, rfl⟩
  · by_cases hk : key = []
    · simp [hk, hl]
    · have hv : c.view key = (c.getCol key).map Collection.view := rfl
      simp only [hk, if_false]
      rw [hv]
      rcases Option.eq_none_or_eq_some (c.getCol key) with hf | ⟨col, hf⟩
      · simp [hf, hl]
      · simp [hf, view_deleteCol, hl.deleteCol]
  · exact ⟨hl, rfl⟩

omit [LinearOrder α] in
theorem Live.cmdFlushDB_spec (hl : c.Live) (vs : List (List UInt8)) :
    (cmdFlushDB c vs).state.Live ∧
      ((cmdFlushDB c vs).state.view, (cmdFlushDB c vs).updated, (cmdFlushDB c vs).err) =
        absFlushDB c.view vs := by
  unfold cmdFlushDB absFlushDB
  rcases vs with _ | ⟨x, rest⟩
  · refine ⟨fun key col h => by simp [getCol] at h, ?_⟩
    have hv : ({ c with cols := .empty, expires := .empty } : Controller α str).view =
        fun _ => none := by
      funext key
      simp [view, getCol]
    simp [hv]
  · exact ⟨hl, rfl⟩

/-- `command` refines `absCommand` from every live state and keeps it live. -/
theorem Live.command_spec (hl : c.Live) (out : OutputType) (now : α) (msg : List (List UInt8)) :
    (command env c out now msg).map (fun r => (r.state.view, r.updated, r.err)) =
        absCommand env c.view out msg ∧
      ∀ r, command env c out now msg = some r → r.state.Live := by
  unfold command absCommand
  rcases msg with _ | ⟨name, vs⟩
  · simp
  · simp only
    split_ifs
    · exact ⟨by simp [(hl.cmdSet_spec env out now vs).2],
        fun r h => by cases h; exact (hl.cmdSet_spec env out now vs).1⟩
    · exact ⟨by simp [(hl.cmdFset_spec env vs).2],
        fun r h => by cases h; exact (hl.cmdFset_spec env vs).1⟩
    · exact ⟨by simp [(hl.cmdDel_spec vs).2], fun r h => by cases h; exact (hl.cmdDel_spec vs).1⟩
    · exact ⟨by simp [(hl.cmdDrop_spec vs).2], fun r h => by cases h; exact (hl.cmdDrop_spec vs).1⟩
    · exact ⟨by simp [(hl.cmdFlushDB_spec vs).2],
        fun r h => by cases h; exact (hl.cmdFlushDB_spec vs).1⟩
    · simp

omit [Field α] [LinearOrder α] in
/-- `FSET key id f₁ v₁ f₂ bad`, where `v₁` parses and `bad` does not: the parse stops at `bad`
with the field `f₁` and the value of `v₁` in hand. -/
theorem parseFSetArgs_second_bad {key id f₁ v₁ f₂ bad : List UInt8} {x : α}
    (hkey : key ≠ []) (hid : id ≠ []) (hf₁ : f₁ ≠ [] ∧ lc f₁ (word "xx") = false ∧
      isReservedFieldName f₁ = false) (hv₁ : v₁ ≠ []) (hx : env.ParseFloat v₁ = some x)
    (hf₂ : f₂ ≠ [] ∧ lc f₂ (word "xx") = false ∧ isReservedFieldName f₂ = false)
    (hbad : bad ≠ []) (hnan : env.ParseFloat bad = none) :
    parseFSetArgs env [key, id, f₁, v₁, f₂, bad] =
      ({ key, id, fields := [f₁], values := [x] }, some (.errInvalidArgument bad)) := by
  simp [parseFSetArgs, parseFSetFields, hkey, hid, hf₁, hv₁, hx, hf₂, hbad, hnan]

/-- `FSET key id f₁ v₁ f₂ bad` on a stored id, where `v₁` parses and `bad` does not: `command`
fails with the error of `bad`, and yet the id's field `f₁` now holds the value of `v₁`. A value
that changes thus changes the database under a failed command. -/
theorem fset_sets_before_error (hl : c.Live) (key id f₁ v₁ f₂ bad : List UInt8) (x : α)
    (obj : Object α) (f : List UInt8 → α) (hobj : (c.view key).bind (· id) = some (obj, f))
    (hkey : key ≠ []) (hid : id ≠ []) (hf₁ : f₁ ≠ [] ∧ lc f₁ (word "xx") = false ∧
      isReservedFieldName f₁ = false) (hv₁ : v₁ ≠ []) (hx : env.ParseFloat v₁ = some x)
    (hf₂ : f₂ ≠ [] ∧ lc f₂ (word "xx") = false ∧ isReservedFieldName f₂ = false)
    (hbad : bad ≠ []) (hnan : env.ParseFloat bad = none) (hchange : f f₁ ≠ x)
    (out : OutputType) (now : α) :
    ∃ r, command env c out now [word "fset", key, id, f₁, v₁, f₂, bad] = some r ∧
      r.err = some (.errInvalidArgument bad) ∧
      (r.state.view key).bind (· id) = some (obj, Function.update f f₁ x) ∧
      r.state.view ≠ c.view := by
  have hcmd : command env c out now [word "fset", key, id, f₁, v₁, f₂, bad] =
      some (cmdFset env c [key, id, f₁, v₁, f₂, bad]) := by
    simp [command, ToLower, word]
  refine ⟨_, hcmd, ?_⟩
  obtain ⟨col, hv, hcol⟩ := Option.bind_eq_some_iff.mp hobj
  have hspec := (hl.cmdFset_spec env [key, id, f₁, v₁, f₂, bad]).2
  simp only [absFset, parseFSetArgs_second_bad env hkey hid hf₁ hv₁ hx hf₂ hbad hnan, hv,
    ColView.setFields, hcol, Prod.mk.injEq] at hspec
  obtain ⟨hview, -, herr⟩ := hspec
  have hat : (cmdFset env c [key, id, f₁, v₁, f₂, bad]).state.view key =
      some (Function.update col id (some (obj, Function.update f f₁ x))) := by
    rw [hview]
    simp [setFieldsView]
  refine ⟨herr, by simp [hat], fun heq => hchange ?_⟩
  have := congrFun heq key
  rw [hat, hv] at this
  have := congrFun (Option.some.inj this) id
  simp only [Function.update_self, hcol, Option.some.injEq, Prod.mk.injEq] at this
  have := congrFun this.2 f₁
  simpa using this.symm

end Refinement

/-- `strconv.ParseFloat` as `Strconv.ParseFloat` reads decimal text, with `geojson.ObjectJSON`
and `geohash.Decode` failing: the functions the runs at fixed inputs below read. -/
def decimalEnv : Env ℚ where
  ParseFloat := Strconv.ParseFloat
  ObjectJSON _ := .error (word "unsupported")
  Decode _ := .error (word "unsupported")

theorem fset_sets_before_error_fleet :
    let c := (cmdSet decimalEnv (empty : Controller ℚ fun _ => []) .RESP 0
      [word "fleet", word "truck1", word "POINT", word "33", word "-115"]).state
    ∃ r, command decimalEnv c .RESP 0
        [word "fset", word "fleet", word "truck1", word "speed", word "10", word "heading",
          word "x"] = some r ∧
      r.err = some (.errInvalidArgument (word "x")) ∧ r.state.view ≠ c.view := by
  intro c
  have hspec := (live_empty : (empty : Controller ℚ fun _ => []).Live).cmdSet_spec decimalEnv .RESP 0
    [word "fleet", word "truck1", word "POINT", word "33", word "-115"]
  have hargs : parseSetArgs decimalEnv
      [word "fleet", word "truck1", word "POINT", word "33", word "-115"] =
      .ok (word "fleet", word "truck1", {}, .simplePoint (-115) 33) := by
    with_unfolding_all rfl
  simp only [absSet, hargs, view_empty, Option.isNone_none, Bool.false_eq_true, and_false,
    if_false, Bool.or_self, false_and, or_self, Option.getD_none, Prod.mk.injEq] at hspec
  have hobj : (c.view (word "fleet")).bind (· (word "truck1")) =
      some (.simplePoint (-115) 33, 0) := by
    simp [c, hspec.2.1, ColView.replace, setFieldsView]
  obtain ⟨r, hr, herr, -, hne⟩ := fset_sets_before_error decimalEnv hspec.1 (word "fleet")
    (word "truck1") (word "speed") (word "10") (word "heading") (word "x") 10 _ _ hobj
    (by decide) (by decide) (by decide) (by decide) (by with_unfolding_all decide) (by decide)
    (by decide) (by with_unfolding_all decide) (by with_unfolding_all decide) .RESP 0
  exact ⟨r, hr, herr, hne⟩

/-! ### What a command reads and writes of the state -/

section Frame

variable [Field α] [LinearOrder α] (env : Env α)

theorem cmdSet_frame {c₁ c₂ : Controller α str} (h : c₁.cols = c₂.cols) (out : OutputType)
    (now₁ now₂ : α) (vs : List (List UInt8)) :
    (cmdSet env c₁ out now₁ vs).state.cols = (cmdSet env c₂ out now₂ vs).state.cols ∧
      (cmdSet env c₁ out now₁ vs).updated = (cmdSet env c₂ out now₂ vs).updated ∧
      (cmdSet env c₁ out now₁ vs).err = (cmdSet env c₂ out now₂ vs).err ∧
      (cmdSet env c₁ out now₁ vs).state.aof = c₁.aof := by
  obtain ⟨cols, e₁, a₁⟩ := c₁
  obtain ⟨cols', e₂, a₂⟩ := c₂
  simp only at h
  subst h
  unfold cmdSet
  cases parseSetArgs env vs with
  | error e => exact ⟨rfl, rfl, rfl, rfl⟩
  | ok r =>
    obtain ⟨key, id, o, obj⟩ := r
    simp only [getCol, setNotOk_eq]
    rcases Option.eq_none_or_eq_some (cols.get key) with hf | ⟨e, hf⟩ <;>
      simp only [hf, Option.map_none, Option.map_some, Option.isNone_none, Option.isNone_some,
        if_true, if_false, Bool.false_eq_true, false_and] <;>
      split_ifs <;> cases o.expires <;> exact ⟨rfl, rfl, rfl, rfl⟩

theorem cmdFset_frame {c₁ c₂ : Controller α str} (h : c₁.cols = c₂.cols) (vs : List (List UInt8)) :
    (cmdFset env c₁ vs).state.cols = (cmdFset env c₂ vs).state.cols ∧
      (cmdFset env c₁ vs).updated = (cmdFset env c₂ vs).updated ∧
      (cmdFset env c₁ vs).err = (cmdFset env c₂ vs).err ∧
      (cmdFset env c₁ vs).state.aof = c₁.aof := by
  obtain ⟨cols, e₁, a₁⟩ := c₁
  obtain ⟨cols', e₂, a₂⟩ := c₂
  simp only at h
  subst h
  unfold cmdFset
  rcases parseFSetArgs env vs with ⟨d, err⟩
  simp only [getCol]
  rcases Option.eq_none_or_eq_some (cols.get d.key) with hf | ⟨e, hf⟩
  · simp [hf]
  · simp only [hf, Option.map_some]
    rcases (e.2.SetFields d.id d.fields d.values).2 with _ | ⟨o, f, n⟩
    · split_ifs <;> exact ⟨rfl, rfl, rfl, rfl⟩
    · exact ⟨rfl, rfl, rfl, rfl⟩

theorem cmdDel_frame {c₁ c₂ : Controller α str} (h : c₁.cols = c₂.cols) (vs : List (List UInt8)) :
    (cmdDel c₁ vs).state.cols = (cmdDel c₂ vs).state.cols ∧
      (cmdDel c₁ vs).updated = (cmdDel c₂ vs).updated ∧
      (cmdDel c₁ vs).err = (cmdDel c₂ vs).err ∧
      (cmdDel c₁ vs).state.aof = c₁.aof := by
  obtain ⟨cols, e₁, a₁⟩ := c₁
  obtain ⟨cols', e₂, a₂⟩ := c₂
  simp only at h
  subst h
  unfold cmdDel
  rcases vs with _ | ⟨key, _ | ⟨id, _ | ⟨x, rest⟩⟩⟩
  · exact ⟨rfl, rfl, rfl, rfl⟩
  · exact ⟨rfl, rfl, rfl, rfl⟩
  · dsimp only
    split_ifs
    · exact ⟨rfl, rfl, rfl, rfl⟩
    · simp only [getCol]
      rcases Option.eq_none_or_eq_some (cols.get key) with hf | ⟨e, hf⟩
      · simp [hf]
      · simp only [hf, Option.map_some]
        rcases e.2.Remove id with ⟨col, _ | t⟩
        · simp
        · dsimp only
          split_ifs <;> simp
  · exact ⟨rfl, rfl, rfl, rfl⟩

omit [Field α] [LinearOrder α] in
theorem cmdDrop_frame {c₁ c₂ : Controller α str} (h : c₁.cols = c₂.cols) (vs : List (List UInt8)) :
    (cmdDrop c₁ vs).state.cols = (cmdDrop c₂ vs).state.cols ∧
      (cmdDrop c₁ vs).updated = (cmdDrop c₂ vs).updated ∧
      (cmdDrop c₁ vs).err = (cmdDrop c₂ vs).err ∧
      (cmdDrop c₁ vs).state.aof = c₁.aof := by
  obtain ⟨cols, e₁, a₁⟩ := c₁
  obtain ⟨cols', e₂, a₂⟩ := c₂
  simp only at h
  subst h
  unfold cmdDrop
  rcases vs with _ | ⟨key, _ | ⟨x, rest⟩⟩
  · exact ⟨rfl, rfl, rfl, rfl⟩
  · dsimp only
    split_ifs
    · exact ⟨rfl, rfl, rfl, rfl⟩
    · simp only [getCol]
      rcases Option.eq_none_or_eq_some (cols.get key) with hf | ⟨e, hf⟩ <;> simp [hf]
  · exact ⟨rfl, rfl, rfl, rfl⟩

omit [Field α] [LinearOrder α] in
theorem cmdFlushDB_frame {c₁ c₂ : Controller α str} (h : c₁.cols = c₂.cols)
    (vs : List (List UInt8)) :
    (cmdFlushDB c₁ vs).state.cols = (cmdFlushDB c₂ vs).state.cols ∧
      (cmdFlushDB c₁ vs).updated = (cmdFlushDB c₂ vs).updated ∧
      (cmdFlushDB c₁ vs).err = (cmdFlushDB c₂ vs).err ∧
      (cmdFlushDB c₁ vs).state.aof = c₁.aof := by
  unfold cmdFlushDB
  rcases vs with _ | ⟨x, rest⟩
  · exact ⟨rfl, rfl, rfl, rfl⟩
  · exact ⟨h, rfl, rfl, rfl⟩

/-- A command reads of the state only the collections, neither the expiration map nor the time,
and writes no file: two states with the same collections answer it alike. -/
theorem command_frame {c₁ c₂ : Controller α str} (h : c₁.cols = c₂.cols) (out : OutputType)
    (now₁ now₂ : α) (msg : List (List UInt8)) :
    (command env c₁ out now₁ msg).map (fun r => (r.state.cols, r.updated, r.err)) =
        (command env c₂ out now₂ msg).map (fun r => (r.state.cols, r.updated, r.err)) ∧
      ∀ r, command env c₁ out now₁ msg = some r → r.state.aof = c₁.aof := by
  unfold command
  rcases msg with _ | ⟨name, vs⟩
  · simp
  · simp only
    split_ifs
    · obtain ⟨h₁, h₂, h₃, h₄⟩ := cmdSet_frame env h out now₁ now₂ vs
      exact ⟨by simp [h₁, h₂, h₃], fun r hr => by cases hr; exact h₄⟩
    · obtain ⟨h₁, h₂, h₃, h₄⟩ := cmdFset_frame env h vs
      exact ⟨by simp [h₁, h₂, h₃], fun r hr => by cases hr; exact h₄⟩
    · obtain ⟨h₁, h₂, h₃, h₄⟩ := cmdDel_frame h vs
      exact ⟨by simp [h₁, h₂, h₃], fun r hr => by cases hr; exact h₄⟩
    · obtain ⟨h₁, h₂, h₃, h₄⟩ := cmdDrop_frame h vs
      exact ⟨by simp [h₁, h₂, h₃], fun r hr => by cases hr; exact h₄⟩
    · obtain ⟨h₁, h₂, h₃, h₄⟩ := cmdFlushDB_frame h vs
      exact ⟨by simp [h₁, h₂, h₃], fun r hr => by cases hr; exact h₄⟩
    · simp

end Frame

/-! ### Replaying the file -/

section Replaying

variable [Field α] [LinearOrder α] (env : Env α)

/-- Every modelled command is one `handleInputCommand` writes to the file. -/
theorem absCommand_writes {v : DBView α} {out : OutputType} {name : List UInt8}
    {vs : List (List UInt8)} {r : DBView α × Bool × Option CmdError}
    (h : absCommand env v out (name :: vs) = some r) : ToLower name ∈ writeCommands := by
  unfold absCommand at h
  dsimp only at h
  split_ifs at h with hset hfset hdel hdrop hflush
  · rw [hset]; decide
  · rw [hfset]; decide
  · rw [hdel]; decide
  · rw [hdrop]; decide
  · rw [hflush]; decide

/-- A replay that reached a state goes on from it. -/
theorem loadAOF_append_of_ok {now : α} {c c' : Controller α str} {cmds : List (List (List UInt8))}
    (h : loadAOF env now c cmds = some (.ok c')) (more : List (List (List UInt8))) :
    loadAOF env now c (cmds ++ more) = loadAOF env now c' more := by
  induction cmds generalizing c with
  | nil =>
    cases h
    rfl
  | cons m cmds ih =>
    rw [List.cons_append, loadAOF]
    rw [loadAOF] at h
    cases hc : command env c .Null now m with
    | none =>
      rw [hc] at h
      cases h
    | some r =>
      simp only [hc, Option.bind_some] at h ⊢
      cases he : r.err with
      | none =>
        simp only [he] at h ⊢
        exact ih h
      | some e =>
        simp only [he] at h ⊢
        split_ifs at h ⊢ with hfatal
        · cases h
        · exact ih h

/-- A file that replays to a live database, followed by a command that updates that database
without error, replays to a live database with the command's view. -/
theorem replay_snoc {now : α} {aof : List (List (List UInt8))} {c' : Controller α str}
    {m : List (List UInt8)} {v : DBView α} (hl' : c'.Live)
    (hrep : loadAOF env now (empty : Controller α str) aof = some (.ok c'))
    (habs : absCommand env c'.view .Null m = some (v, true, none)) :
    ∃ c'', loadAOF env now (empty : Controller α str) (aof ++ [m]) = some (.ok c'') ∧ c''.Live ∧
      c''.view = v := by
  obtain ⟨hspec, hlive⟩ := hl'.command_spec env .Null now m
  rw [habs] at hspec
  obtain ⟨r, hcmd, hr⟩ := Option.map_eq_some_iff.mp hspec
  simp only [Prod.mk.injEq] at hr
  obtain ⟨hv, -, he⟩ := hr
  refine ⟨r.state, ?_, hlive r hcmd, hv⟩
  rw [loadAOF_append_of_ok env hrep, loadAOF, hcmd, Option.bind_some]
  simp only [he]
  rfl

/-- One client command keeps the replay of the file in step with the database: a command that
failed or updated nothing is not written and leaves the database alone, and a written one
replays, with no output type, as it ran. -/
theorem replay_step {c c' c₂ : Controller α str} {out : OutputType} {t now : α}
    {msg : List (List UInt8)} {err : Option CmdError} (hl : c.Live) (hl' : c'.Live)
    (hrep : loadAOF env now (empty : Controller α str) c.aof = some (.ok c')) (hv : c'.view = c.view)
    (hstep : handleInputCommand env c out t msg = some (c₂, err))
    (hf : fsetParseFails env msg = false) :
    c₂.Live ∧ ∃ c'', loadAOF env now (empty : Controller α str) c₂.aof = some (.ok c'') ∧ c''.Live ∧
      c''.view = c₂.view := by
  rcases msg with _ | ⟨name, vs⟩
  · simp [handleInputCommand] at hstep
  obtain ⟨r, hcmd, hr⟩ := Option.map_eq_some_iff.mp hstep
  obtain ⟨hspec, hlive⟩ := hl.command_spec env out t (name :: vs)
  rw [hcmd, Option.map_some] at hspec
  have haof : r.state.aof = c.aof := (command_frame env rfl out t t (name :: vs)).2 r hcmd
  have hlr : r.state.Live := hlive r hcmd
  cases he : r.err with
  | some e =>
    simp only [he, Prod.mk.injEq] at hr
    obtain ⟨rfl, -⟩ := hr
    rw [he] at hspec
    have hview := absCommand_unlogged env hspec.symm (.inl rfl) hf
    exact ⟨hlr, c', haof ▸ hrep, hl', hv.trans hview.symm⟩
  | none =>
    rw [he] at hspec
    simp only [he, if_pos (absCommand_writes env hspec.symm), Prod.mk.injEq] at hr
    obtain ⟨rfl, -⟩ := hr
    refine ⟨hlr.writeAOF _ _, ?_⟩
    cases hu : r.updated with
    | false =>
      rw [hu] at hspec
      have hview := absCommand_unlogged env hspec.symm (.inr rfl) hf
      refine ⟨c', ?_, hl', ?_⟩
      · rw [writeAOF_aof, if_neg Bool.false_ne_true, haof]
        exact hrep
      · rw [view_writeAOF, hview, hv]
    | true =>
      -- the replay runs the command on an equal database, with no output type
      rw [hu] at hspec
      have habs : absCommand env c'.view .Null (name :: vs) = some (r.state.view, true, none) := by
        rw [hv]
        exact absCommand_out env hspec.symm .Null
      rw [writeAOF_aof, if_pos rfl, haof, view_writeAOF]
      exact replay_snoc env hl' hrep habs

/-- Replaying the file of a server rebuilds its database: for every history of client commands
on an empty server none of which is an `FSET` whose arguments fail to parse, the commands the
server wrote to its file, replayed through `loadAOF` on an empty server at any time, meet no
fatal error and leave the database the clients read. -/
theorem replay_reproduces (hist : List (OutputType × α × List (List UInt8)))
    {c : Controller α str}
    (hrun : Simulation.run (fun e c => (handleInputCommand env c e.1 e.2.1 e.2.2).map Prod.fst)
      hist empty = some c)
    (hf : ∀ e ∈ hist, fsetParseFails env e.2.2 = false) (now : α) :
    ∃ c', loadAOF env now (empty : Controller α str) c.aof = some (.ok c') ∧ c'.view = c.view := by
  have hinv := Simulation.run_keeps_on _ (fun e => fsetParseFails env e.2.2 = false)
    (fun c : Controller α str => c.Live ∧
      ∃ c', loadAOF env now (empty : Controller α str) c.aof = some (.ok c') ∧ c'.Live ∧
        c'.view = c.view)
    (fun e c c₂ he ⟨hl, c', hrep, hl', hv⟩ hs => by
      obtain ⟨⟨c₂', err⟩, hstep, rfl⟩ := Option.map_eq_some_iff.mp hs
      exact replay_step env hl hl' hrep hv hstep he)
    hist empty c hf ⟨live_empty, empty, rfl, live_empty, rfl⟩ hrun
  obtain ⟨-, c', hrep, -, hv⟩ := hinv
  exact ⟨c', hrep, hv⟩

theorem replay_reproduces_fleet :
    ∃ c, Simulation.run (fun e (c : Controller ℚ fun _ => []) =>
          (handleInputCommand decimalEnv c e.1 e.2.1 e.2.2).map Prod.fst)
        [(.RESP, 0, [word "set", word "fleet", word "truck1", word "point", word "33", word "-115"]),
          (.RESP, 0, [word "fset", word "fleet", word "truck1", word "speed", word "10"]),
          (.RESP, 0, [word "del", word "fleet", word "truck2"])] empty = some c ∧
      (∀ e ∈ ([(.RESP, 0, [word "set", word "fleet", word "truck1", word "point", word "33",
          word "-115"]),
          (.RESP, 0, [word "fset", word "fleet", word "truck1", word "speed", word "10"]),
          (.RESP, 0, [word "del", word "fleet", word "truck2"])] :
            List (OutputType × ℚ × List (List UInt8))), fsetParseFails decimalEnv e.2.2 = false) ∧
      ∃ c', loadAOF decimalEnv 0 (empty : Controller ℚ fun _ => []) c.aof = some (.ok c') ∧
        c'.view = c.view := by
  have hf : ∀ e ∈ ([(.RESP, 0, [word "set", word "fleet", word "truck1", word "point", word "33",
      word "-115"]),
      (.RESP, 0, [word "fset", word "fleet", word "truck1", word "speed", word "10"]),
      (.RESP, 0, [word "del", word "fleet", word "truck2"])] :
        List (OutputType × ℚ × List (List UInt8))), fsetParseFails decimalEnv e.2.2 = false := by
    with_unfolding_all decide
  exact ⟨_, by with_unfolding_all rfl, hf, replay_reproduces decimalEnv _ (by with_unfolding_all rfl) hf 0⟩

end Replaying

end Controller
