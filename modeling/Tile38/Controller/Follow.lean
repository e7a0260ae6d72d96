import Tile38.Controller.Replay
import Tile38.Lib.Simulation
import Tile38.Glob.Match

/-!
# A leader and its follower (`follow.go`, `expire.go`, `aof.go`)

A follower connects with the size of its own file, and the leader streams its file from there;
the follower applies each command it reads with `followHandleCommand`, which writes it to the
follower's file when it updated something. The checksum handshake (`followCheckSome`) takes
the follower's file to be a prefix of the leader's. Both servers run `backgroundExpiring`, and
each writes the `DEL` of a purged id to its own file.

A follower that has caught up and then purges an id on its own clock appends a `DEL` that the
leader has not written, and its file stops being a prefix of the leader's
(`follower_purge_breaks_prefix`). A client's write on a follower is refused by
`handleInputCommand` ("not the leader"); the purge writes without that test.

Positions in the stream are counted in commands: `pos` is the number of commands of the
leader's file the follower has applied. A fatal error of a streamed command ends the stream;
the model then has no step.
-/

open Geojson Glob

universe u

namespace Controller

variable {α : Type u} {str : Object α → List UInt8}

/-- The two servers, and how far into the leader's file the follower has read. -/
structure Replica (α : Type u) (str : Object α → List UInt8) where
  leader : Controller α str
  follower : Controller α str
  pos : Nat

/-- What can happen next: a client's command at the leader, a purge on either side, and the
follower applying the next command of the stream. -/
inductive ReplicaEvent (α : Type u) where
  | leaderCommand (out : OutputType) (now : α) (msg : List (List UInt8))
  | leaderExpire (now : α) (key id : List UInt8)
  | followerExpire (now : α) (key id : List UInt8)
  | followerApply (now : α)

variable [Field α] [LinearOrder α] (env : Env α)

/-- One event. -/
def Replica.step (sys : Replica α str) : ReplicaEvent α → Option (Replica α str)
  | .leaderCommand out now msg =>
    (handleInputCommand env sys.leader out now msg).map fun r => { sys with leader := r.1 }
  | .leaderExpire now key id => some { sys with leader := expireItem sys.leader now key id }
  | .followerExpire now key id => some { sys with follower := expireItem sys.follower now key id }
  | .followerApply now =>
    match sys.leader.aof[sys.pos]? with
    | none => none
    | some values =>
      match followHandleCommand env sys.follower now values with
      | some (c, none) => some { sys with follower := c, pos := sys.pos + 1 }
      | _ => none

theorem cmdDel_of_get {c : Controller α str} {key id : List UInt8} {col : Collection α str}
    (hk : key ≠ []) (hi : id ≠ []) (hcol : c.getCol key = some col)
    (hget : (col.items.get id).isSome) :
    (cmdDel c [key, id]).updated = true ∧ (cmdDel c [key, id]).err = none := by
  obtain ⟨col', t, hr⟩ : ∃ col' t, col.Remove id = (col', some t) := by
    have hs := Collection.Remove_snd_isSome col id
    rw [hget] at hs
    rcases h : col.Remove id with ⟨col', _ | t⟩
    · rw [h] at hs
      cases hs
    · exact ⟨col', t, rfl⟩
  simp only [cmdDel, hk, hi, or_self, if_false, hcol, hr]
  exact ⟨trivial, trivial⟩

/-- A purge of an id whose time has passed and that its collection still holds writes
`DEL key id` to the server's own file. -/
theorem expireItem_aof {c : Controller α str} {now at_ : α} {key id : List UInt8}
    {e : List UInt8 × List UInt8} {col : Collection α str}
    (hexp : c.expires.get (key, id) = some (e, at_)) (hlt : at_ < now) (hk : key ≠ [])
    (hi : id ≠ []) (hcol : c.getCol key = some col) (hget : (col.items.get id).isSome) :
    (expireItem c now key id).aof = c.aof ++ [[word "del", key, id]] := by
  have hdel := cmdDel_of_get hk hi hcol hget
  simp only [expireItem, hexp, hlt, if_true, writeAOF_aof, hdel.1]
  have hframe : (cmdDel c [key, id]).state.aof = c.aof := by
    simp only [cmdDel, hk, hi, or_self, if_false]
    split <;> try rfl
    split <;> try rfl
    split_ifs <;> rfl
  rw [hframe]

theorem not_aofBytes_prefix_append (aof : List (List (List UInt8))) (values : List (List UInt8)) :
    ¬ aofBytes (aof ++ [values]) <+: aofBytes aof := by
  intro h
  have hlen := h.length_le
  simp only [aofBytes, List.flatMap_append, List.flatMap_singleton, List.length_append] at hlen
  have hpos : 0 < (marshalRESP values).length := by simp [marshalRESP, word]
  omega

/-- A follower that has applied the whole of the leader's file and then purges an id of its own
writes a `DEL` that the leader's file does not have: its file is no longer a byte prefix of the
leader's. -/
theorem follower_purge_breaks_prefix (sys : Replica α str) {now at_ : α} {key id : List UInt8}
    {e : List UInt8 × List UInt8} {col : Collection α str}
    (hsync : sys.follower.aof = sys.leader.aof)
    (hexp : sys.follower.expires.get (key, id) = some (e, at_)) (hlt : at_ < now)
    (hk : key ≠ []) (hi : id ≠ []) (hcol : sys.follower.getCol key = some col)
    (hget : (col.items.get id).isSome) :
    ∃ sys', sys.step env (.followerExpire now key id) = some sys' ∧ sys'.leader = sys.leader ∧
      sys'.follower.aof = sys.leader.aof ++ [[word "del", key, id]] ∧
      ¬ aofBytes sys'.follower.aof <+: aofBytes sys'.leader.aof := by
  have haof : (expireItem sys.follower now key id).aof = sys.leader.aof ++ [[word "del", key, id]] := by
    rw [expireItem_aof hexp hlt hk hi hcol hget, hsync]
  refine ⟨_, rfl, rfl, haof, ?_⟩
  rw [haof]
  exact not_aofBytes_prefix_append _ _

theorem follower_purge_breaks_prefix_ex :
    let set := [word "set", ascii "k", ascii "a", word "ex", word "1", word "string", ascii "x"]
    ∃ sys, Simulation.run (fun e (s : Replica ℚ fun _ => []) => s.step decimalEnv e)
        [.leaderCommand .RESP 0 set, .followerApply 0] ⟨empty, empty, 0⟩ = some sys ∧
      ∃ sys', sys.step decimalEnv (.followerExpire 2 (ascii "k") (ascii "a")) = some sys' ∧
        sys'.leader = sys.leader ∧
        sys'.follower.aof = sys.leader.aof ++ [[word "del", ascii "k", ascii "a"]] ∧
        ¬ aofBytes sys'.follower.aof <+: aofBytes sys'.leader.aof :=
  ⟨_, rfl, follower_purge_breaks_prefix decimalEnv _ (by with_unfolding_all decide)
    (show _ = some ((ascii "k", ascii "a"), (1 : ℚ)) by with_unfolding_all rfl) (by norm_num)
    (by decide) (by decide) (by with_unfolding_all rfl) (by with_unfolding_all decide)⟩

end Controller
