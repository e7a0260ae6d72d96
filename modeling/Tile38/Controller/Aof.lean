import Tile38.Controller.Commands

/-!
# The append-only file (`aof.go`, `controller.go`, `follow.go`, `expire.go`)

A write command reaches the file through `handleInputCommand`, which hands the command to
`writeAOF` only when it returned no error, and `writeAOF` drops a command that updated
nothing. `loadAOF` replays the file at start-up through `command`, going on past the errors
`commandErrIsFatal` lets through. A follower applies each command of the leader's file with
`followHandleCommand`, which writes it to its own file by the same `writeAOF`; every server
also deletes the ids whose time has come (`backgroundExpiring`) and writes those `DEL`s.

The hooks `writeAOF` queues and the live streams it wakes are outside this model; so are the
password, follower and read-only checks of `handleInputCommand`, which here serves a leader
that needs no password.
-/

open Geojson Strings

universe u

namespace Controller

variable {α : Type u} {str : Object α → List UInt8}

/-- Equality of byte strings is lawful. As the instance, it makes each test of a name against a
list of names refer to this one fact instead of to an auxiliary lemma of its own. -/
theorem bytes_lawfulBEq : LawfulBEq (List UInt8) := inferInstance

attribute [local instance] bytes_lawfulBEq

/-- The commands `handleInputCommand` takes the write lock for and passes to `writeAOF`. -/
def writeCommands : List (List UInt8) :=
  [word "set", word "del", word "drop", word "fset", word "flushdb", word "sethook",
    word "pdelhook", word "delhook", word "expire", word "persist", word "jset", word "pdel"]

/-- `writeAOF(value, d)`: a command that updated nothing is not written. -/
def writeAOF (c : Controller α str) (values : List (List UInt8)) (updated : Bool) :
    Controller α str :=
  if updated then { c with aof := c.aof ++ [values] } else c

@[simp] theorem writeAOF_cols (c : Controller α str) (values : List (List UInt8)) (updated : Bool) :
    (c.writeAOF values updated).cols = c.cols := by
  unfold writeAOF; split <;> rfl

@[simp] theorem writeAOF_aof (c : Controller α str) (values : List (List UInt8)) (updated : Bool) :
    (c.writeAOF values updated).aof = if updated then c.aof ++ [values] else c.aof := by
  unfold writeAOF; split <;> rfl

/-- `resp.ArrayValue(values).MarshalRESP()`, the bytes a command takes in the file: `*n`, then
`$len` and the bytes of each value, each line ended by CR LF. -/
def marshalRESP (values : List (List UInt8)) : List UInt8 :=
  word "*" ++ word (toString values.length) ++ [13, 10] ++
    values.flatMap fun v => word "$" ++ word (toString v.length) ++ [13, 10] ++ v ++ [13, 10]

/-- The bytes of the file. -/
def aofBytes (aof : List (List (List UInt8))) : List UInt8 := aof.flatMap marshalRESP

variable [Field α] [LinearOrder α] (env : Env α)

/-- `handleInputCommand(msg)` for the modelled commands: the reply's error, and the state with
the command written to the file when it succeeded. -/
def handleInputCommand (c : Controller α str) (out : OutputType) (now : α)
    (msg : List (List UInt8)) : Option (Controller α str × Option CmdError) :=
  match msg with
  | [] => none
  | name :: _ =>
    (command env c out now msg).map fun r =>
      match r.err with
      | some e => (r.state, some e)
      | none =>
        ((if ToLower name ∈ writeCommands then r.state.writeAOF msg r.updated else r.state), none)

/-- `loadAOF()`: the commands of the file replayed in order through `command`, with no output
type; a fatal error stops the replay. `none` when the file holds a command outside the model. -/
def loadAOF (now : α) :
    Controller α str → List (List (List UInt8)) → Option (Except CmdError (Controller α str))
  | c, [] => some (.ok c)
  | c, msg :: rest =>
    (command env c .Null now msg).bind fun r =>
      match r.err with
      | some e => if commandErrIsFatal e then some (.error e) else loadAOF now r.state rest
      | none => loadAOF now r.state rest

/-- `followHandleCommand(values)`: a command of the leader's file applied with no output type
and written to the follower's file when it updated something; a fatal error ends the stream
before the write, the state as the command left it. -/
def followHandleCommand (c : Controller α str) (now : α) (values : List (List UInt8)) :
    Option (Controller α str × Option CmdError) :=
  (command env c .Null now values).map fun r =>
    match r.err with
    | some e =>
      if commandErrIsFatal e then (r.state, some e) else (r.state.writeAOF values r.updated, none)
    | none => (r.state.writeAOF values r.updated, none)

/-- The purge of one item by `backgroundExpiring`: if the id still expires before `now`
(`hasExpired`), `DEL key id` runs and is written to the file when it deleted. The ids of the
expiration map come from `SET`, so the `DEL` never fails. -/
def expireItem (c : Controller α str) (now : α) (key id : List UInt8) : Controller α str :=
  match c.expires.get (key, id) with
  | some (_, at_) =>
    if at_ < now then
      let r := cmdDel c [key, id]
      r.state.writeAOF [word "del", key, id] r.updated
    else c
  | none => c

end Controller
