import Tile38.Collection.Runs
import Tile38.Lib.Strings

/-!
# Write commands (`pkg/controller/crud.go`, `token.go`, `expire.go`)

The controller keeps its collections in a B-tree by key, the expiration times of ids, and the
append-only file. A command is its list of RESP values; it returns the new state, whether it
updated something (`d.updated`) and its error, which, as in the source, a command may return
after it changed the state.

Modelled: `SET` (every option and object type), `FSET`, `DEL`, `DROP` and `FLUSHDB`, through
`Controller.command`. The other commands of the dispatch are outside the model: `command`
answers `none` for them. Three functions the package calls are parameters (`Env`):
`strconv.ParseFloat`, from the Go library, and `geojson.ObjectJSON` and `geohash.Decode`,
whose text formats are not modelled. Times are numbers; `time.Now()` is an argument.
-/

open Geojson Strings

namespace Controller

universe u
variable {α : Type u}

/-- The functions a command calls whose text formats are not modelled. -/
structure Env (α : Type u) where
  ParseFloat : List UInt8 → Option α
  ObjectJSON : List UInt8 → Except (List UInt8) (Object α)
  Decode : List UInt8 → Except (List UInt8) (α × α)

/-- The errors of the modelled commands. -/
inductive CmdError where
  | errInvalidNumberOfArguments
  | errInvalidArgument (arg : List UInt8)
  | errKeyNotFound
  | errIDNotFound
  | errIDAlreadyExists
  | other (msg : List UInt8)
  deriving DecidableEq, Repr

/-- The bytes of an ASCII word. -/
def word (s : String) : List UInt8 := s.toList.map fun c => c.toNat.toUInt8

/-- The texts of the errors; `other` carries the text of an error of `ObjectJSON` or
`geohash.Decode`. -/
def CmdError.Error : CmdError → List UInt8
  | .errInvalidNumberOfArguments => word "invalid number of arguments"
  | .errInvalidArgument arg => word "invalid argument '" ++ arg ++ word "'"
  | .errKeyNotFound => word "key not found"
  | .errIDNotFound => word "id not found"
  | .errIDAlreadyExists => word "id already exists"
  | .other msg => msg

/-- `commandErrIsFatal(err)`: replaying the file stops at any error but these two. -/
def commandErrIsFatal : CmdError → Bool
  | .errKeyNotFound | .errIDNotFound => false
  | _ => true

/-- `server.Message.OutputType`. Messages read back from the file have none. -/
inductive OutputType where
  | Null
  | RESP
  | JSON
  deriving DecidableEq, Repr

/-! ### Tokens -/

/-- `lcb(s1, s2)`: `s1` equals the lower-case word `s2`, ignoring the case of ASCII letters. -/
def lcb : List UInt8 → List UInt8 → Bool
  | [], [] => true
  | ch :: s1, c2 :: s2 => (if 65 ≤ ch ∧ ch ≤ 90 then ch + 32 = c2 else ch = c2) && lcb s1 s2
  | _, _ => false

/-- `lc(s1, s2)`, the same test on strings. -/
def lc (s1 s2 : List UInt8) : Bool := lcb s1 s2

/-- `isReservedFieldName(field)`: `z`, `lat` and `lon`. -/
def isReservedFieldName (field : List UInt8) : Bool :=
  field = [122] || field = [108, 97, 116] || field = [108, 111, 110]

end Controller

/-! ### State -/

/-- The controller's state: `cols`, the ids' expiration times (`expires`), and the commands of
the append-only file, in order. -/
structure Controller (α : Type u) (str : Object α → List UInt8) where
  cols : KeyedSet (Prod.fst : List UInt8 × Collection α str → List UInt8)
  expires : KeyedSet (Prod.fst : (List UInt8 × List UInt8) × α → List UInt8 × List UInt8)
  aof : List (List (List UInt8))

namespace Controller

variable {α : Type u} {str : Object α → List UInt8}

/-- The state of a server with an empty file. -/
def empty : Controller α str := ⟨.empty, .empty, []⟩

def getCol (c : Controller α str) (key : List UInt8) : Option (Collection α str) :=
  (c.cols.get key).map Prod.snd

def setCol (c : Controller α str) (key : List UInt8) (col : Collection α str) : Controller α str :=
  { c with cols := (c.cols.replaceOrInsert (key, col)).1 }

/-- The collection of `key` changed in place: the B-tree holds its pointer. -/
def updateCol (c : Controller α str) (key : List UInt8) (col : Collection α str) :
    Controller α str :=
  { c with cols := c.cols.update key (fun e => (e.1, col)) fun _ => rfl }

def deleteCol (c : Controller α str) (key : List UInt8) : Controller α str :=
  { c with cols := c.cols.erase key }

def clearIDExpires (c : Controller α str) (key id : List UInt8) : Controller α str :=
  { c with expires := c.expires.erase (key, id) }

def clearKeyExpires (c : Controller α str) (key : List UInt8) : Controller α str :=
  { c with expires := ⟨c.expires.items.filter (·.1.1 ≠ key), c.expires.nodup_filter _⟩ }

def expireAt (c : Controller α str) (key id : List UInt8) (at_ : α) : Controller α str :=
  { c with expires := (c.expires.replaceOrInsert ((key, id), at_)).1 }

/-- What a command returns besides the state: `d.updated` and its error. -/
structure Outcome (α : Type u) (str : Object α → List UInt8) where
  state : Controller α str
  updated : Bool
  err : Option CmdError

/-! ### `SET` -/

/-- The options `parseSetArgs` reads before the object type. -/
structure SetOpts (α : Type u) where
  fields : List (List UInt8) := []
  values : List α := []
  xx : Bool := false
  nx : Bool := false
  expires : Option α := none

variable [Field α] [LinearOrder α] (env : Env α)

/-- The option loop of `parseSetArgs`: `FIELD name value`, `EX seconds`, `XX`, `NX`, until a
token that is none of them. -/
def parseSetOpts : List (List UInt8) → SetOpts α → Except CmdError (SetOpts α × List (List UInt8))
  | [], _ => .error .errInvalidNumberOfArguments
  | arg :: nvs, o =>
    if arg = [] then .error .errInvalidNumberOfArguments
    else if lcb arg (word "field") then
      match nvs with
      | [] => .error .errInvalidNumberOfArguments
      | name :: vs =>
        if name = [] then .error .errInvalidNumberOfArguments
        else if isReservedFieldName name then .error (.errInvalidArgument name)
        else match vs with
          | [] => .error .errInvalidNumberOfArguments
          | svalue :: vs =>
            if svalue = [] then .error .errInvalidNumberOfArguments
            else match env.ParseFloat svalue with
              | none => .error (.errInvalidArgument svalue)
              | some value =>
                parseSetOpts vs { o with fields := o.fields ++ [name], values := o.values ++ [value] }
    else if lcb arg (word "ex") then
      if o.expires.isSome then .error (.errInvalidArgument arg)
      else match nvs with
        | [] => .error .errInvalidNumberOfArguments
        | s :: vs =>
          if s = [] then .error .errInvalidNumberOfArguments
          else match env.ParseFloat s with
            | none => .error (.errInvalidArgument s)
            | some v => parseSetOpts vs { o with expires := some v }
    else if lcb arg (word "xx") then
      if o.nx then .error (.errInvalidArgument arg) else parseSetOpts nvs { o with xx := true }
    else if lcb arg (word "nx") then
      if o.xx then .error (.errInvalidArgument arg) else parseSetOpts nvs { o with nx := true }
    else .ok (o, arg :: nvs)

/-- Parse one number of the object, or fail on its text. -/
def parseNum (s : List UInt8) : Except CmdError α :=
  match env.ParseFloat s with
  | none => .error (.errInvalidArgument s)
  | some v => .ok v

/-- The object of `SET` after its type word, with the tokens left. -/
def parseSetObject (typ : List UInt8) (vs : List (List UInt8)) :
    Except CmdError (Object α × List (List UInt8)) :=
  if lcb typ (word "string") then
    match vs with
    | s :: vs => .ok (.string s, vs)
    | [] => .error .errInvalidNumberOfArguments
  else if lcb typ (word "point") then
    match vs with
    | slat :: slon :: vs =>
      if slat = [] ∨ slon = [] then .error .errInvalidNumberOfArguments
      else
        match vs with
        | sz :: vs' =>
          if sz = [] then do
            let lat ← parseNum env slat
            let lon ← parseNum env slon
            pure (.simplePoint lon lat, vs')
          else do
            let lat ← parseNum env slat
            let lon ← parseNum env slon
            let z ← parseNum env sz
            pure (.point ⟨lon, lat, z⟩ none false, vs')
        | [] => do
          let lat ← parseNum env slat
          let lon ← parseNum env slon
          pure (.simplePoint lon lat, [])
    | _ => .error .errInvalidNumberOfArguments
  else if lcb typ (word "bounds") then
    match vs with
    | sminlat :: sminlon :: smaxlat :: smaxlon :: vs =>
      if sminlat = [] ∨ sminlon = [] ∨ smaxlat = [] ∨ smaxlon = [] then
        .error .errInvalidNumberOfArguments
      else do
        let minlat ← parseNum env sminlat
        let minlon ← parseNum env sminlon
        let maxlat ← parseNum env smaxlat
        let maxlon ← parseNum env smaxlon
        pure (.polygon ⟨[[⟨minlon, minlat, 0⟩, ⟨minlon, maxlat, 0⟩, ⟨maxlon, maxlat, 0⟩,
          ⟨maxlon, minlat, 0⟩, ⟨minlon, minlat, 0⟩]], none, false⟩, vs)
    | _ => .error .errInvalidNumberOfArguments
  else if lcb typ (word "hash") then
    match vs with
    | shash :: vs =>
      if shash = [] then .error .errInvalidNumberOfArguments
      else match env.Decode shash with
        | .error e => .error (.other e)
        | .ok (lat, lon) => .ok (.simplePoint lon lat, vs)
    | [] => .error .errInvalidNumberOfArguments
  else if lcb typ (word "object") then
    match vs with
    | object :: vs =>
      if object = [] then .error .errInvalidNumberOfArguments
      else match env.ObjectJSON object with
        | .error e => .error (.other e)
        | .ok obj => .ok (obj, vs)
    | [] => .error .errInvalidNumberOfArguments
  else .error (.errInvalidArgument typ)

/-- `parseSetArgs(vs)`: key, id, options, object, and no token left. -/
def parseSetArgs (vs : List (List UInt8)) :
    Except CmdError (List UInt8 × List UInt8 × SetOpts α × Object α) :=
  match vs with
  | key :: id :: vs =>
    if key = [] ∨ id = [] then .error .errInvalidNumberOfArguments
    else do
      let (o, vs) ← parseSetOpts env vs {}
      match vs with
      | typ :: vs =>
        if typ = [] ∨ vs = [] then .error .errInvalidNumberOfArguments
        else do
          let (obj, vs) ← parseSetObject env typ vs
          if vs = [] then pure (key, id, o, obj) else .error .errInvalidNumberOfArguments
      | [] => .error .errInvalidNumberOfArguments
  | _ => .error .errInvalidNumberOfArguments

/-- The `notok` exit of `cmdSet`: an error for JSON output, nothing otherwise. -/
def setNotOk (c : Controller α str) (out : OutputType) (nx : Bool) : Outcome α str :=
  match out with
  | .JSON => ⟨c, false, some (if nx then .errIDAlreadyExists else .errIDNotFound)⟩
  | _ => ⟨c, false, none⟩

def cmdSet (c : Controller α str) (out : OutputType) (now : α) (vs : List (List UInt8)) :
    Outcome α str :=
  match parseSetArgs env vs with
  | .error e => ⟨c, false, some e⟩
  | .ok (key, id, o, obj) =>
    let found := c.getCol key
    if found.isNone ∧ o.xx then setNotOk c out o.nx
    else
      let col := found.getD Collection.New
      let c := if found.isNone then c.setCol key col else c
      if (o.xx || o.nx) ∧ ((o.nx ∧ (col.Get id).isSome) ∨ (o.xx ∧ (col.Get id).isNone)) then
        setNotOk c out o.nx
      else
        let c := c.clearIDExpires key id
        let col := (col.ReplaceOrInsert id obj (if o.fields = [] then none else some o.fields)
          o.values).1
        let c := c.updateCol key col
        let c := match o.expires with
          | some ex => c.expireAt key id (now + ex)
          | none => c
        ⟨c, true, none⟩

/-! ### `FSET` -/

/-- What `parseFSetArgs` returns: everything parsed before an error stopped it. -/
structure FSetArgs (α : Type u) where
  key : List UInt8 := []
  id : List UInt8 := []
  fields : List (List UInt8) := []
  values : List α := []
  xx : Bool := false

/-- The field loop of `parseFSetArgs`, keeping what it parsed when it fails. -/
def parseFSetFields : List (List UInt8) → FSetArgs α → FSetArgs α × Option CmdError
  | [], d => (d, none)
  | name :: vs, d =>
    if name = [] then (d, some .errInvalidNumberOfArguments)
    else if lc name (word "xx") then parseFSetFields vs { d with xx := true }
    else if isReservedFieldName name then (d, some (.errInvalidArgument name))
    else match vs with
      | [] => (d, some .errInvalidNumberOfArguments)
      | svalue :: vs =>
        if svalue = [] then (d, some .errInvalidNumberOfArguments)
        else match env.ParseFloat svalue with
          | none => (d, some (.errInvalidArgument svalue))
          | some value =>
            parseFSetFields vs { d with fields := d.fields ++ [name], values := d.values ++ [value] }

def parseFSetArgs (vs : List (List UInt8)) : FSetArgs α × Option CmdError :=
  match vs with
  | [] => ({}, some .errInvalidNumberOfArguments)
  | key :: vs =>
    if key = [] then ({}, some .errInvalidNumberOfArguments)
    else match vs with
      | [] => ({ key }, some .errInvalidNumberOfArguments)
      | id :: vs =>
        if id = [] then ({ key }, some .errInvalidNumberOfArguments)
        else parseFSetFields env vs { key, id }

/-- `cmdFset(msg)`: the error of `parseFSetArgs` is not checked; the fields parsed before it
are set, and the error is returned at the end. -/
def cmdFset (c : Controller α str) (vs : List (List UInt8)) : Outcome α str :=
  let (d, err) := parseFSetArgs env vs
  match c.getCol d.key with
  | none => ⟨c, false, some .errKeyNotFound⟩
  | some col =>
    let (col, r) := col.SetFields d.id d.fields d.values
    let c := c.updateCol d.key col
    match r with
    | none => if d.xx then ⟨c, false, err⟩ else ⟨c, false, some .errIDNotFound⟩
    | some (_, _, updatedCount) => ⟨c, 0 < updatedCount, err⟩

/-! ### `DEL`, `DROP`, `FLUSHDB` -/

def cmdDel (c : Controller α str) (vs : List (List UInt8)) : Outcome α str :=
  match vs with
  | [key, id] =>
    if key = [] ∨ id = [] then ⟨c, false, some .errInvalidNumberOfArguments⟩
    else
      let (c, found) : Controller α str × Bool :=
        match c.getCol key with
        | none => (c, false)
        | some col =>
          match col.Remove id with
          | (_, none) => (c, false)
          | (col, some _) =>
            let c := c.updateCol key col
            ((if col.Count = 0 then c.deleteCol key else c), true)
      ⟨c.clearIDExpires key id, found, none⟩
  | _ => ⟨c, false, some .errInvalidNumberOfArguments⟩

def cmdDrop (c : Controller α str) (vs : List (List UInt8)) : Outcome α str :=
  match vs with
  | [key] =>
    if key = [] then ⟨c, false, some .errInvalidNumberOfArguments⟩
    else
      match c.getCol key with
      | some _ => ⟨(c.deleteCol key).clearKeyExpires key, true, none⟩
      | none => ⟨c.clearKeyExpires [], false, none⟩
  | _ => ⟨c, false, some .errInvalidNumberOfArguments⟩

/-- `cmdFlushDB(msg)`: the collections and expirations are reset. -/
def cmdFlushDB (c : Controller α str) (vs : List (List UInt8)) : Outcome α str :=
  match vs with
  | [] => ⟨{ c with cols := .empty, expires := .empty }, true, none⟩
  | _ => ⟨c, false, some .errInvalidNumberOfArguments⟩

/-! ### The dispatch -/

/-- `command(msg)` for the modelled commands; `none` for the others. The name is the first
value in lower case. -/
def command (c : Controller α str) (out : OutputType) (now : α) (msg : List (List UInt8)) :
    Option (Outcome α str) :=
  match msg with
  | [] => none
  | name :: vs =>
    if ToLower name = word "set" then some (cmdSet env c out now vs)
    else if ToLower name = word "fset" then some (cmdFset env c vs)
    else if ToLower name = word "del" then some (cmdDel c vs)
    else if ToLower name = word "drop" then some (cmdDrop c vs)
    else if ToLower name = word "flushdb" then some (cmdFlushDB c vs)
    else none

end Controller
