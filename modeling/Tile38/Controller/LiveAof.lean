import Tile38.Lib.Simulation
import Mathlib.Data.List.TakeDrop

/-!
# Streaming the AOF to a follower (`liveAOF`, `writeAOF`)

After `AOF pos`, `liveAOF` opens the leader's AOF at `pos` and a goroutine streams it to the
connection: `io.Copy` copies it to its end, and then a loop hands over what `f.Read` finds
appended since, and at the end of the file takes `c.fcond.L` and waits on `c.fcond`.
`writeAOF` appends each command to the file and then broadcasts on `c.fcond` under its lock.

The state is the file, the follower's offset in it, the bytes written to the connection, where
the streaming goroutine is, and whether `writeAOF` has appended and not yet broadcast. Each step
is atomic: a `Read` of the file, the lock and the registration of `Wait` (the broadcaster holds
the lock, so it cannot come between them), an append, a broadcast.

Whatever the interleaving, the connection receives the file from `pos` in order, without gap or
repetition (`run_conn`), and a streaming goroutine that is not waiting catches up with the file
(`stream_catches_up`). The goroutine reads the end of the file before it takes the lock, though:
a command appended and broadcast in between finds no waiter, the goroutine then waits for a
broadcast that has already happened, and until another command is logged the connection gets
nothing of the new command (`liveAOF_lost_wakeup`).

The other goroutines of `liveAOF` (reading `QUIT`, closing the connection) and errors of the
file and the connection are left out.
-/

namespace Controller

/-- Where the streaming goroutine of `liveAOF` is. -/
inductive livePC where
  /-- in `io.Copy(conn, f)` -/
  | copy
  /-- at `f.Read(b)` in the loop -/
  | read
  /-- past the end of the file: at `c.fcond.L.Lock(); c.fcond.Wait()` -/
  | wait
  /-- in `c.fcond.Wait()`, registered for the next `Broadcast` -/
  | waiting
  deriving DecidableEq, Repr

/-- The leader's AOF and a follower streaming it from `pos`: the follower's offset, the bytes
written to its connection, and where its goroutine is; `notify` is set between the append and
the broadcast of `writeAOF`. -/
structure LiveAOF where
  aof : List UInt8
  off : Nat
  conn : List UInt8
  pc : livePC
  notify : Bool
  deriving DecidableEq, Repr

/-- The atomic steps of `writeAOF` and of the streaming goroutine. -/
inductive LiveStep where
  /-- `c.aof.Write(data)` -/
  | write (data : List UInt8)
  /-- `c.fcond.L.Lock(); c.fcond.Broadcast(); c.fcond.L.Unlock()` -/
  | broadcast
  /-- the next step of the streaming goroutine -/
  | stream
  deriving DecidableEq, Repr

/-- The buffer `io.Copy` reads with. -/
def copySize : Nat := 32 * 1024

/-- `b := make([]byte, 4096)`. -/
def readSize : Nat := 4096

/-- One `Read` of at most `size` bytes at the offset: what it hands over is written to the
connection. -/
def LiveAOF.readChunk (st : LiveAOF) (size : Nat) : LiveAOF :=
  let b := (st.aof.drop st.off).take size
  { st with conn := st.conn ++ b, off := st.off + b.length }

/-- A step, or `none` when it cannot be taken: a broadcast with no append before it, the
goroutine blocked in `Wait`. -/
def LiveAOF.step : LiveStep → LiveAOF → Option LiveAOF
  | .write data, st => if st.notify then none else some { st with aof := st.aof ++ data, notify := true }
  | .broadcast, st =>
    if st.notify then
      -- a goroutine in `Wait` wakes, takes the lock, drops it and reads again
      some { st with notify := false, pc := if st.pc = .waiting then .read else st.pc }
    else none
  | .stream, st =>
    match st.pc with
    | .copy => if st.off < st.aof.length then some (st.readChunk copySize) else some { st with pc := .read }
    | .read => if st.off < st.aof.length then some (st.readChunk readSize) else some { st with pc := .wait }
    | .wait => some { st with pc := .waiting }
    | .waiting => none

/-- The follower of `AOF pos` on the file `aof`, after `f.Seek(pos, 0)`. -/
def liveInit (aof : List UInt8) (pos : Nat) : LiveAOF := ⟨aof, pos, [], .copy, false⟩

namespace LiveAOF

/-! ### The stream is the file from `pos` -/

/-- What the connection has received is the file from `pos` up to the offset. -/
structure Streams (pos : Nat) (st : LiveAOF) : Prop where
  pos_le : pos ≤ st.off
  off_le : st.off ≤ st.aof.length
  conn_eq : st.conn = (st.aof.drop pos).take (st.off - pos)

variable {pos : Nat} {st st' : LiveAOF}

theorem Streams.frame (h : st.Streams pos) (haof : st'.aof = st.aof) (hoff : st'.off = st.off)
    (hconn : st'.conn = st.conn) : st'.Streams pos :=
  ⟨hoff ▸ h.pos_le, hoff ▸ haof ▸ h.off_le, by rw [hconn, haof, hoff]; exact h.conn_eq⟩

theorem Streams.readChunk (h : st.Streams pos) (size : Nat) : (st.readChunk size).Streams pos := by
  have hpos := h.pos_le
  have hoff := h.off_le
  have hb : ((st.aof.drop st.off).take size).length ≤ st.aof.length - st.off := by
    simp only [List.length_take, List.length_drop]
    omega
  unfold LiveAOF.readChunk
  refine ⟨?_, ?_, ?_⟩
  · exact Nat.le_trans hpos (Nat.le_add_right _ _)
  · dsimp only
    omega
  · dsimp only
    have hsplit : st.off + ((st.aof.drop st.off).take size).length - pos =
        (st.off - pos) + ((st.aof.drop st.off).take size).length := by omega
    rw [hsplit, List.take_add, List.drop_drop, Nat.add_sub_cancel' hpos, h.conn_eq,
      List.length_take, ← List.take_take, List.take_length]

theorem Streams.append (h : st.Streams pos) {data : List UInt8} (haof : st'.aof = st.aof ++ data)
    (hoff : st'.off = st.off) (hconn : st'.conn = st.conn) : st'.Streams pos := by
  have hlen : st.off - pos ≤ (st.aof.drop pos).length := by
    have := h.off_le
    rw [List.length_drop]
    omega
  refine ⟨hoff ▸ h.pos_le, ?_, ?_⟩
  · rw [hoff, haof, List.length_append]
    exact Nat.le_trans h.off_le (Nat.le_add_right _ _)
  · rw [hconn, haof, hoff, List.drop_append_of_le_length (Nat.le_trans h.pos_le h.off_le),
      List.take_append_of_le_length hlen, h.conn_eq]

theorem Streams.step (h : st.Streams pos) {a : LiveStep} (hs : LiveAOF.step a st = some st') :
    st'.Streams pos := by
  cases a with
  | write data =>
    simp only [LiveAOF.step] at hs
    split_ifs at hs
    cases hs
    exact h.append rfl rfl rfl
  | broadcast =>
    simp only [LiveAOF.step] at hs
    split_ifs at hs <;> cases hs <;> exact h.frame rfl rfl rfl
  | stream =>
    simp only [LiveAOF.step] at hs
    split at hs <;> (try split_ifs at hs) <;> cases hs
    all_goals first
      | exact h.readChunk _
      | exact h.frame rfl rfl rfl

theorem aof_prefix_step {a : LiveStep} (hs : LiveAOF.step a st = some st') : st.aof <+: st'.aof := by
  cases a with
  | write data =>
    simp only [LiveAOF.step] at hs
    split_ifs at hs
    cases hs
    exact List.prefix_append _ _
  | broadcast =>
    simp only [LiveAOF.step] at hs
    split_ifs at hs <;> cases hs <;> exact List.prefix_refl _
  | stream =>
    simp only [LiveAOF.step] at hs
    split at hs <;> (try split_ifs at hs) <;> cases hs <;> exact List.prefix_refl _

/-- Whatever the interleaving of `writeAOF` and the streaming goroutine, the file only grows, and
the connection has received the file from `pos` up to the follower's offset, in order, without
gap or repetition. -/
theorem run_conn (aof : List UInt8) (pos : Nat) (hpos : pos ≤ aof.length) (acts : List LiveStep)
    (st : LiveAOF) (hrun : Simulation.run LiveAOF.step acts (liveInit aof pos) = some st) :
    aof <+: st.aof ∧ st.off ≤ st.aof.length ∧ st.conn = (st.aof.drop pos).take (st.off - pos) := by
  have hinv := Simulation.run_keeps LiveAOF.step (fun st => aof <+: st.aof ∧ st.Streams pos)
    (fun _ _ _ hi hs => ⟨hi.1.trans (aof_prefix_step hs), hi.2.step hs⟩) acts (liveInit aof pos) st
    ⟨List.prefix_refl _, Nat.le_refl _, hpos, by simp [liveInit]⟩ hrun
  exact ⟨hinv.1, hinv.2.off_le, hinv.2.conn_eq⟩

/-- From `AOF 1` on a file of three bytes, a command appended while `io.Copy` runs. -/
theorem run_conn_append :
    1 ≤ ([1, 2, 3] : List UInt8).length ∧
      Simulation.run LiveAOF.step [.stream, .write [4], .broadcast, .stream, .stream]
        (liveInit [1, 2, 3] 1) = some ⟨[1, 2, 3, 4], 4, [2, 3, 4], .read, false⟩ ∧
      ([1, 2, 3] : List UInt8) <+: [1, 2, 3, 4] ∧ 4 ≤ ([1, 2, 3, 4] : List UInt8).length ∧
      ([2, 3, 4] : List UInt8) = (([1, 2, 3, 4] : List UInt8).drop 1).take (4 - 1) :=
  ⟨by decide, by decide, run_conn [1, 2, 3] 1 (by decide)
    [.stream, .write [4], .broadcast, .stream, .stream] ⟨[1, 2, 3, 4], 4, [2, 3, 4], .read, false⟩
    (by decide)⟩

/-! ### Catching up -/

theorem run_stream_succ (k : Nat) (st : LiveAOF) :
    Simulation.run LiveAOF.step (List.replicate (k + 1) .stream) st =
      (LiveAOF.step .stream st).bind (Simulation.run LiveAOF.step (List.replicate k .stream)) := by
  rw [List.replicate_succ, Simulation.run_cons]

theorem run_stream_eof (heof : st.aof.length ≤ st.off) (hpc : st.pc = .copy ∨ st.pc = .read) :
    ∃ k, Simulation.run LiveAOF.step (List.replicate k .stream) st =
      some { st with pc := .waiting } := by
  have hnot : ¬st.off < st.aof.length := Nat.not_lt.mpr heof
  rcases hpc with hpc | hpc
  · refine ⟨3, ?_⟩
    simp [LiveAOF.step, hpc, hnot]
  · refine ⟨2, ?_⟩
    simp [LiveAOF.step, hpc, hnot]

/-- A goroutine that is not waiting, with nothing appended meanwhile, hands the rest of the file
to the connection and then waits. The induction is on the bytes left; each `Read` takes at
least one. -/
theorem stream_catches_up (h : st.Streams pos) (hpc : st.pc = .copy ∨ st.pc = .read) :
    ∃ k st', Simulation.run LiveAOF.step (List.replicate k .stream) st = some st' ∧
      st'.aof = st.aof ∧ st'.conn = st.aof.drop pos ∧ st'.pc = .waiting := by
  induction hn : st.aof.length - st.off using Nat.strongRecOn generalizing st with
  | ind n ih =>
  by_cases hmore : st.off < st.aof.length
  · -- a `Read` of a full or a last chunk
    obtain ⟨size, hsize, hstep⟩ : ∃ size, 0 < size ∧
        LiveAOF.step .stream st = some (st.readChunk size) := by
      rcases hpc with hpc | hpc
      · exact ⟨copySize, by decide, by simp [LiveAOF.step, hpc, hmore]⟩
      · exact ⟨readSize, by decide, by simp [LiveAOF.step, hpc, hmore]⟩
    have hgrow : 0 < ((st.aof.drop st.off).take size).length := by
      simp only [List.length_take, List.length_drop]
      omega
    obtain ⟨k, st', hrun, haof, hconn, hwait⟩ := ih _ (by rw [← hn]; simp [LiveAOF.readChunk]; omega)
      (h.readChunk size) (by simpa [LiveAOF.readChunk] using hpc) rfl
    exact ⟨k + 1, st', by rw [run_stream_succ, hstep, Option.bind_some, hrun], haof, hconn, hwait⟩
  · -- the whole file has been handed over
    have heof : st.aof.length ≤ st.off := Nat.le_of_not_lt hmore
    obtain ⟨k, hrun⟩ := run_stream_eof heof hpc
    refine ⟨k, _, hrun, rfl, ?_, rfl⟩
    show st.conn = _
    rw [h.conn_eq, List.take_of_length_le (by simp; omega)]

theorem stream_catches_up_init :
    (liveInit [1, 2, 3] 1).Streams 1 ∧ (liveInit [1, 2, 3] 1).pc = .copy ∧
      ∃ k st', Simulation.run LiveAOF.step (List.replicate k .stream) (liveInit [1, 2, 3] 1) =
          some st' ∧ st'.aof = [1, 2, 3] ∧ st'.conn = ([1, 2, 3] : List UInt8).drop 1 ∧
          st'.pc = .waiting :=
  have h : (liveInit [1, 2, 3] 1).Streams 1 := ⟨Nat.le_refl _, by decide, by decide⟩
  ⟨h, rfl, stream_catches_up h (.inl rfl)⟩

/-! ### The lost wakeup -/

/-- A goroutine in `Wait` with no broadcast to come stays there until a command is appended:
a run without appends leaves the state as it is. -/
theorem run_blocked (hpc : st.pc = .waiting) (hn : st.notify = false) (acts : List LiveStep)
    (hw : ∀ a ∈ acts, ∀ data, a ≠ .write data)
    (hrun : Simulation.run LiveAOF.step acts st = some st') : st' = st := by
  cases acts with
  | nil => exact (Option.some.inj hrun).symm
  | cons a acts =>
    -- the first step is blocked: no broadcast is due, and the goroutine waits
    have hblocked : LiveAOF.step a st = none := by
      cases a with
      | write data => exact absurd rfl (hw _ List.mem_cons_self data)
      | broadcast => simp [LiveAOF.step, hn]
      | stream => simp [LiveAOF.step, hpc]
    rw [Simulation.run_cons, hblocked, Option.bind_none] at hrun
    cases hrun

end LiveAOF

/-- From `AOF 0` on an empty file: the goroutine finds the end of the file and, before it takes
`c.fcond.L`, `writeAOF` appends a command and broadcasts to no one; the goroutine then waits. The
command is in the file past the follower's offset, and however the follower goes on, the
connection gets none of it until another command is logged. -/
theorem liveAOF_lost_wakeup :
    Simulation.run LiveAOF.step [.stream, .stream, .write [42], .broadcast, .stream]
        (liveInit [] 0) = some ⟨[42], 0, [], .waiting, false⟩ ∧
    ∀ (acts : List LiveStep) (st : LiveAOF), (∀ a ∈ acts, ∀ data, a ≠ .write data) →
      Simulation.run LiveAOF.step acts ⟨[42], 0, [], .waiting, false⟩ = some st → st.conn = [] := by
  refine ⟨by decide, fun acts st hw hrun => ?_⟩
  rw [LiveAOF.run_blocked rfl rfl acts hw hrun]

/-- The same append and broadcast after the goroutine is in `Wait` wake it, and it reads the
command. -/
example :
    Simulation.run LiveAOF.step [.stream, .stream, .stream, .write [42], .broadcast, .stream]
        (liveInit [] 0) = some ⟨[42], 1, [42], .read, false⟩ := by
  decide

end Controller
