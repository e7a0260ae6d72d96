import Mathlib.Algebra.Order.Ring.Nat
import Mathlib.Algebra.Order.Sub.Basic
import Mathlib.Data.Nat.SuccPred
import Mathlib.Order.Lattice.Nat

/-!
# Reading the legacy AOF (aofmigrate.go)

The file of older versions is a series of frames: the length of a command in four
little-endian bytes, the command, the length again and a zero byte. `LegacyAOFReader` reads it
through a buffer: each `ReadCommand` hands out the frame at the front of the valid bytes
`buf[p : p + l]` when all of it is there, and otherwise moves the valid bytes to the front of the
buffer, appends what the next `Read` returns, growing the buffer when the chunk does not fit, and
tries again. At `io.EOF` it returns `io.EOF`, or `io.ErrUnexpectedEOF` when bytes are left.

However the file is cut into `Read` results, the reader answers as a reader of the whole
remaining text would (`decodeFrame`): what it has not handed out (`pending`) is the same
before and after each `Read`, and the frame test on the buffer is the frame test on those bytes
once they are all there (`ReadCommand_refines`). So the frames of a file come out in order and
then `io.EOF`, a truncated last frame gives `io.ErrUnexpectedEOF`, and a frame whose trailer
does not repeat its length gives `errCorruptedAOF`.

`ReadCommand` hands out a slice of its buffer, which later reads may overwrite; the model returns
its bytes at the time of the call, which is what `migrateAOF` copies into a string at once. The
reader's other `Read` errors are left out.
-/

namespace Controller

/-- The errors of `ReadCommand`. -/
inductive LegacyError where
  | EOF
  | ErrUnexpectedEOF
  | errCorruptedAOF
  deriving DecidableEq, Repr

/-- `binary.LittleEndian.Uint32(b)`. -/
def uint32 (b : List UInt8) : Nat :=
  (b.take 4).foldr (fun x acc => x.toNat + 256 * acc) 0

/-- `binary.LittleEndian.PutUint32` of `n`. -/
def putUint32 (n : Nat) : List UInt8 :=
  (List.range 4).map fun i => (n / 256 ^ i % 256).toUInt8

/-- `LegacyAOFReader`. `r` is the reader, as the results its `Read` calls still return: the bytes,
and whether `io.EOF` comes with them; after them `Read` returns `0, io.EOF`. `rerr` is set when
the error kept is `io.EOF`. -/
structure LegacyAOFReader where
  r : List (List UInt8 × Bool)
  rerr : Bool
  buf : List UInt8
  l : Nat
  p : Nat

def NewLegacyAOFReader (r : List (List UInt8 × Bool)) : LegacyAOFReader := ⟨r, false, [], 0, 0⟩

/-- The valid bytes `buf[p : p + l]` moved to the front: `copy(rd.buf, rd.buf[rd.p:rd.p+rd.l])`. -/
def compact (buf : List UInt8) (p l : Nat) : List UInt8 :=
  if p ≠ 0 then (buf.drop p).take l ++ buf.drop l else buf

/-- The bytes of a `Read` copied after the `l` valid bytes of `buf`, which grows when they do not
fit. -/
def appendChunk (buf : List UInt8) (l : Nat) (cbuf : List UInt8) : List UInt8 :=
  if buf.length - l < cbuf.length then
    if buf.length = 0 then cbuf
    else buf.take l ++ cbuf.take (buf.length - l) ++ cbuf.drop (buf.length - l)
  else buf.take l ++ cbuf ++ buf.drop (l + cbuf.length)

/-- `ReadCommand()`: a command or an error, and the reader after it. -/
def ReadCommand (rd : LegacyAOFReader) : Except LegacyError (List UInt8) × LegacyAOFReader :=
  if 4 ≤ rd.l ∧ uint32 (rd.buf.drop rd.p) + 9 ≤ rd.l then
    -- a whole frame is there
    let sz1 := uint32 (rd.buf.drop rd.p)
    if uint32 (rd.buf.drop (rd.p + 4 + sz1)) ≠ sz1 ∨ rd.buf.getD (rd.p + 4 + sz1 + 4) 0 ≠ 0 then
      (.error .errCorruptedAOF, rd)
    else
      (.ok ((rd.buf.drop (rd.p + 4)).take sz1),
        { rd with p := rd.p + (sz1 + 9), l := rd.l - (sz1 + 9) })
  else if rd.rerr then
    -- `io.EOF` is returned once: the next call reads again
    (.error (if rd.l ≠ 0 then .ErrUnexpectedEOF else .EOF), { rd with rerr := false })
  else
    match _ : rd.r with
    | [] => ReadCommand { rd with buf := compact rd.buf rd.p rd.l, p := 0, rerr := true }
    | (cbuf, eof) :: r =>
      ReadCommand
        { r := r, rerr := eof, l := rd.l + cbuf.length, p := 0,
          buf := if 0 < cbuf.length then appendChunk (compact rd.buf rd.p rd.l) rd.l cbuf
            else compact rd.buf rd.p rd.l }
termination_by 2 * rd.r.length + (if rd.rerr then 0 else 1)
decreasing_by
  all_goals
    simp_all only [List.length_cons, if_true, Bool.not_eq_true, Bool.false_eq_true, if_false]
    try split
    all_goals omega

/-- `n` successive calls of `ReadCommand`, as the loop of `migrateAOF` makes them. -/
def readCommands : Nat → LegacyAOFReader → List (Except LegacyError (List UInt8))
  | 0, _ => []
  | n + 1, rd => (ReadCommand rd).1 :: readCommands n (ReadCommand rd).2

/-! ### Length fields -/

@[simp] theorem length_putUint32 (n : Nat) : (putUint32 n).length = 4 := by
  simp [putUint32]

theorem putUint32_uint32 (b : List UInt8) (hb : 4 ≤ b.length) : putUint32 (uint32 b) = b.take 4 := by
  match b, hb with
  | a0 :: a1 :: a2 :: a3 :: _, _ =>
    have := a0.toNat_lt
    have := a1.toNat_lt
    have := a2.toNat_lt
    have := a3.toNat_lt
    simp [uint32, putUint32, List.range_succ]
    refine ⟨?_, ?_, ?_⟩ <;> apply UInt8.toNat_inj.mp <;> simp <;> omega

theorem uint32_take (b : List UInt8) : uint32 (b.take 4) = uint32 b := by
  simp [uint32, List.take_take]

theorem uint32_putUint32 (n : Nat) (rest : List UInt8) (h : n < 2 ^ 32) :
    uint32 (putUint32 n ++ rest) = n := by
  simp [uint32, putUint32, List.range_succ, Nat.toUInt8]
  omega

/-! ### Moving and appending bytes -/

section Buffer

variable {buf : List UInt8} {p l : Nat}

theorem length_compact (hv : p + l ≤ buf.length) : (compact buf p l).length = buf.length := by
  unfold compact
  split_ifs
  · simp only [List.length_append, List.length_take, List.length_drop]
    omega
  · rfl

theorem take_compact (hv : p + l ≤ buf.length) : (compact buf p l).take l = (buf.drop p).take l := by
  unfold compact
  split_ifs with hp
  · rw [List.take_append_of_le_length (by simp; omega), List.take_take, Nat.min_self]
  · simp only [Decidable.not_not.mp hp, List.drop_zero]

theorem take_appendChunk (cbuf : List UInt8) (hl : l ≤ buf.length) :
    (appendChunk buf l cbuf).take (l + cbuf.length) = buf.take l ++ cbuf := by
  unfold appendChunk
  split_ifs with hroom hempty
  · have hl0 : l = 0 := by omega
    simp [hl0]
  · rw [List.append_assoc, List.take_append_drop]
    exact List.take_of_length_le (by simp only [List.length_append, List.length_take]; omega)
  · exact List.take_left' (by simp only [List.length_append, List.length_take]; omega)

theorem length_appendChunk (cbuf : List UInt8) (hl : l ≤ buf.length) :
    l + cbuf.length ≤ (appendChunk buf l cbuf).length := by
  unfold appendChunk
  split_ifs
  · omega
  all_goals
    simp only [List.length_append, List.length_take, List.length_drop]
    omega

end Buffer

/-! ### The file as a whole -/

/-- A frame of the legacy file: the command between two copies of its length, and a zero byte. -/
def frame (payload : List UInt8) : List UInt8 :=
  putUint32 payload.length ++ payload ++ putUint32 payload.length ++ [0]

/-- The frame at the front of `s` read with all of `s` at hand: the command or the error, and
the bytes left after it. -/
def decodeFrame (s : List UInt8) : Except LegacyError (List UInt8) × List UInt8 :=
  let sz1 := uint32 s
  if 4 ≤ s.length ∧ sz1 + 9 ≤ s.length then
    if uint32 (s.drop (4 + sz1)) ≠ sz1 ∨ s.getD (4 + sz1 + 4) 0 ≠ 0 then (.error .errCorruptedAOF, s)
    else (.ok ((s.drop 4).take sz1), s.drop (sz1 + 9))
  else (.error (if s ≠ [] then .ErrUnexpectedEOF else .EOF), s)

theorem decodeFrame_frame (x rest : List UInt8) (hx : x.length < 2 ^ 32) :
    decodeFrame (frame x ++ rest) = (.ok x, rest) := by
  have hf : frame x ++ rest = putUint32 x.length ++ (x ++ (putUint32 x.length ++ 0 :: rest)) := by
    simp [frame]
  have hs : uint32 (frame x ++ rest) = x.length := by rw [hf, uint32_putUint32 _ _ hx]
  have hlen : (frame x ++ rest).length = x.length + 9 + rest.length := by
    simp only [hf, List.length_append, length_putUint32, List.length_cons]
    omega
  have hafter : (frame x ++ rest).drop (4 + x.length) = putUint32 x.length ++ 0 :: rest := by
    rw [hf, ← List.append_assoc, List.drop_left' (by simp)]
  have htrail : uint32 ((frame x ++ rest).drop (4 + x.length)) = x.length := by
    rw [hafter, uint32_putUint32 _ _ hx]
  have hzero : (frame x ++ rest).getD (4 + x.length + 4) 0 = 0 := by
    simp [hf, List.getD_eq_getElem?_getD, List.getElem?_append_right]
  have hpay : ((frame x ++ rest).drop 4).take x.length = x := by
    simp [hf]
  have hrest : (frame x ++ rest).drop (x.length + 9) = rest :=
    List.drop_left' (by simp [frame]; omega)
  simp only [decodeFrame, hs, htrail, hzero, hpay, hrest]
  rw [if_pos ⟨by omega, by omega⟩]
  simp

theorem decodeFrame_truncated (x : List UInt8) (m : Nat) (hx : x.length < 2 ^ 32) (hm0 : 0 < m)
    (hm : m < (frame x).length) : (decodeFrame ((frame x).take m)).1 = .error .ErrUnexpectedEOF := by
  have hflen : (frame x).length = x.length + 9 := by simp [frame]; omega
  have hlen : ((frame x).take m).length = m := by simp; omega
  have hnot : ¬(4 ≤ m ∧ uint32 ((frame x).take m) + 9 ≤ m) := by
    rintro ⟨h4, hsz⟩
    have hs : uint32 ((frame x).take m) = x.length := by
      rw [← uint32_take, List.take_take, Nat.min_eq_left h4, uint32_take, frame, List.append_assoc,
        List.append_assoc, uint32_putUint32 _ _ hx]
    omega
  have hne : (frame x).take m ≠ [] := List.ne_nil_of_length_pos (by omega)
  simp only [decodeFrame, hlen, if_neg hnot, ne_eq, hne, not_false_eq_true, if_true]

theorem decodeFrame_corrupted (x trailer rest : List UInt8) (hx : x.length < 2 ^ 32)
    (htr : trailer.length = 5) (hbad : trailer ≠ putUint32 x.length ++ [0]) :
    (decodeFrame (putUint32 x.length ++ x ++ trailer ++ rest)).1 = .error .errCorruptedAOF := by
  have hs : uint32 (putUint32 x.length ++ x ++ trailer ++ rest) = x.length := by
    rw [List.append_assoc, List.append_assoc, uint32_putUint32 _ _ hx]
  have hlen : (putUint32 x.length ++ x ++ trailer ++ rest).length = x.length + 9 + rest.length := by
    simp only [List.length_append, length_putUint32, htr]
    omega
  have hafter : (putUint32 x.length ++ x ++ trailer ++ rest).drop (4 + x.length) = trailer ++ rest := by
    rw [List.append_assoc _ trailer, List.drop_left' (by simp)]
  -- a trailer read as the length and a zero byte would be exactly those five bytes
  have hmis : uint32 (trailer ++ rest) ≠ x.length ∨ (trailer ++ rest).getD 4 0 ≠ 0 := by
    by_contra hok
    push Not at hok
    apply hbad
    have h4 : trailer.take 4 = putUint32 x.length :=
      calc trailer.take 4 = (trailer ++ rest).take 4 := (List.take_append_of_le_length (by omega)).symm
        _ = putUint32 (uint32 (trailer ++ rest)) := (putUint32_uint32 _ (by simp; omega)).symm
        _ = putUint32 x.length := by rw [hok.1]
    have h5 : trailer.drop 4 = [0] := by
      match trailer, htr, hok with
      | [_, _, _, _, t4], _, hok => simpa using hok.2
    rw [← List.take_append_drop 4 trailer, h4, h5]
  have hzero : (putUint32 x.length ++ x ++ trailer ++ rest).getD (4 + x.length + 4) 0 =
      (trailer ++ rest).getD 4 0 := by
    rw [← hafter, List.getD_eq_getElem?_getD, List.getD_eq_getElem?_getD, List.getElem?_drop]
  simp only [decodeFrame, hs, hafter, hzero]
  rw [if_pos ⟨by omega, by omega⟩, if_pos hmis]

namespace LegacyAOFReader

/-- What the reader has taken in and not handed out, then what its `Read` calls still return. -/
def pending (rd : LegacyAOFReader) : List UInt8 :=
  (rd.buf.drop rd.p).take rd.l ++ (rd.r.map Prod.fst).flatten

/-- The reader's invariant: the valid bytes lie in the buffer, `io.EOF` is kept only once nothing
is left to read, and only the last `Read` comes with `io.EOF`. -/
structure Inv (rd : LegacyAOFReader) : Prop where
  valid : rd.p + rd.l ≤ rd.buf.length
  eofLast : rd.rerr = true → rd.r = []
  eofEnd : ∀ c ∈ rd.r.dropLast, c.2 = false

namespace Inv

variable {rd : LegacyAOFReader} (h : rd.Inv)
include h

/-- Past the first `j` valid bytes, what is pending is the rest of the valid bytes and then what
is still to be read. -/
theorem drop_pending {j : Nat} (hj : j ≤ rd.l) :
    rd.pending.drop j = (rd.buf.drop (rd.p + j)).take (rd.l - j) ++ (rd.r.map Prod.fst).flatten := by
  have hlen : ((rd.buf.drop rd.p).take rd.l).length = rd.l := by
    simp only [List.length_take, List.length_drop]
    have := h.valid
    omega
  rw [pending, List.drop_append_of_le_length (by omega), List.drop_take, List.drop_drop,
    Nat.add_comm]

theorem window {i k : Nat} (hik : i + k ≤ rd.l) :
    (rd.buf.drop (rd.p + i)).take k = (rd.pending.drop i).take k := by
  rw [h.drop_pending (by omega), List.take_append_of_le_length, List.take_take,
    Nat.min_eq_left (by omega)]
  simp only [List.length_take, List.length_drop]
  have := h.valid
  omega

theorem uint32_at {i : Nat} (hi : i + 4 ≤ rd.l) :
    uint32 (rd.buf.drop (rd.p + i)) = uint32 (rd.pending.drop i) := by
  rw [← uint32_take, h.window hi, uint32_take]

theorem getD_at {i : Nat} (hi : i < rd.l) : rd.buf.getD (rd.p + i) 0 = rd.pending.getD i 0 := by
  have hw := congrArg (fun b : List UInt8 => b.getD 0 0) (h.window (k := 1) hi)
  simpa [List.getD_eq_getElem?_getD, List.getElem?_take, List.getElem?_drop] using hw

theorem l_le_length_pending : rd.l ≤ rd.pending.length := by
  have := h.valid
  simp only [pending, List.length_append, List.length_take, List.length_drop]
  omega

theorem uint32_pending (h4 : 4 ≤ rd.l) : uint32 rd.pending = uint32 (rd.buf.drop rd.p) := by
  simpa using (h.uint32_at (i := 0) (by omega)).symm

theorem decodeFrame_ready (hready : 4 ≤ rd.l ∧ uint32 (rd.buf.drop rd.p) + 9 ≤ rd.l) :
    decodeFrame rd.pending =
      let sz1 := uint32 (rd.buf.drop rd.p)
      if uint32 (rd.buf.drop (rd.p + 4 + sz1)) ≠ sz1 ∨ rd.buf.getD (rd.p + 4 + sz1 + 4) 0 ≠ 0 then
        (.error .errCorruptedAOF, rd.pending)
      else (.ok ((rd.buf.drop (rd.p + 4)).take sz1), rd.pending.drop (sz1 + 9)) := by
  obtain ⟨h4, hsz⟩ := hready
  have hlen := h.l_le_length_pending
  have hs := h.uint32_pending h4
  have htrail : uint32 (rd.pending.drop (4 + uint32 (rd.buf.drop rd.p))) =
      uint32 (rd.buf.drop (rd.p + 4 + uint32 (rd.buf.drop rd.p))) := by
    rw [Nat.add_assoc, h.uint32_at (by omega)]
  have hzero : rd.pending.getD (4 + uint32 (rd.buf.drop rd.p) + 4) 0 =
      rd.buf.getD (rd.p + 4 + uint32 (rd.buf.drop rd.p) + 4) 0 := by
    have hi : rd.p + 4 + uint32 (rd.buf.drop rd.p) + 4 = rd.p + (4 + uint32 (rd.buf.drop rd.p) + 4) :=
      by omega
    rw [hi, h.getD_at (by omega)]
  have hpay : (rd.pending.drop 4).take (uint32 (rd.buf.drop rd.p)) =
      (rd.buf.drop (rd.p + 4)).take (uint32 (rd.buf.drop rd.p)) :=
    (h.window (by omega)).symm
  simp only [decodeFrame, hs, htrail, hzero, hpay]
  rw [if_pos ⟨by omega, by omega⟩]

theorem decodeFrame_eof (hr : rd.r = []) (hnot : ¬(4 ≤ rd.l ∧ uint32 (rd.buf.drop rd.p) + 9 ≤ rd.l)) :
    decodeFrame rd.pending = (.error (if rd.l ≠ 0 then .ErrUnexpectedEOF else .EOF), rd.pending) := by
  have hlen : rd.pending.length = rd.l := by
    have := h.valid
    simp only [pending, hr, List.map_nil, List.flatten_nil, List.append_nil, List.length_take,
      List.length_drop]
    omega
  have hnot' : ¬(4 ≤ rd.pending.length ∧ uint32 rd.pending + 9 ≤ rd.pending.length) := by
    rintro ⟨h4, hsz⟩
    rw [hlen] at h4 hsz
    rw [h.uint32_pending h4] at hsz
    exact hnot ⟨h4, hsz⟩
  rw [decodeFrame, if_neg hnot']
  simp only [ne_eq, ← List.length_eq_zero_iff, hlen]

theorem close (hr : rd.r = []) :
    ({ rd with buf := compact rd.buf rd.p rd.l, p := 0, rerr := true } : LegacyAOFReader).Inv ∧
      ({ rd with buf := compact rd.buf rd.p rd.l, p := 0, rerr := true } : LegacyAOFReader).pending =
        rd.pending := by
  have hv := h.valid
  refine ⟨⟨?_, fun _ => hr, by simp [hr]⟩, ?_⟩
  · simp only [length_compact hv]
    omega
  · simp only [pending, List.drop_zero, take_compact hv]

theorem refill {cbuf : List UInt8} {eof : Bool} {r : List (List UInt8 × Bool)}
    (hr : rd.r = (cbuf, eof) :: r) :
    ({ r := r, rerr := eof, l := rd.l + cbuf.length, p := 0,
        buf := if 0 < cbuf.length then appendChunk (compact rd.buf rd.p rd.l) rd.l cbuf
          else compact rd.buf rd.p rd.l } : LegacyAOFReader).Inv ∧
      ({ r := r, rerr := eof, l := rd.l + cbuf.length, p := 0,
          buf := if 0 < cbuf.length then appendChunk (compact rd.buf rd.p rd.l) rd.l cbuf
            else compact rd.buf rd.p rd.l } : LegacyAOFReader).pending = rd.pending := by
  have hv := h.valid
  have hc := length_compact hv
  have hbuf : (if 0 < cbuf.length then appendChunk (compact rd.buf rd.p rd.l) rd.l cbuf
      else compact rd.buf rd.p rd.l).take (rd.l + cbuf.length) = (rd.buf.drop rd.p).take rd.l ++ cbuf ∧
      rd.l + cbuf.length ≤ (if 0 < cbuf.length then appendChunk (compact rd.buf rd.p rd.l) rd.l cbuf
        else compact rd.buf rd.p rd.l).length := by
    split_ifs with hn
    · rw [take_appendChunk cbuf (by omega), take_compact hv]
      exact ⟨rfl, length_appendChunk cbuf (by omega)⟩
    · have hnil : cbuf = [] := List.length_eq_zero_iff.mp (by omega)
      subst hnil
      exact ⟨by simp [take_compact hv], by simp; omega⟩
  have hend := h.eofEnd
  rw [hr] at hend
  refine ⟨⟨by simpa using hbuf.2, fun heof => ?_, fun c hc => ?_⟩, ?_⟩
  · show r = []
    by_contra hne
    rw [List.dropLast_cons_of_ne_nil hne] at hend
    have hfalse : eof = false := hend (cbuf, eof) List.mem_cons_self
    simp [hfalse] at heof
  · have hne : r ≠ [] := by rintro rfl; simp at hc
    rw [List.dropLast_cons_of_ne_nil hne] at hend
    exact hend c (List.mem_cons_of_mem _ hc)
  · simp only [pending, List.drop_zero, hbuf.1, hr, List.map_cons, List.flatten_cons,
      List.append_assoc]

end Inv

end LegacyAOFReader

/-- `ReadCommand` answers as a reader of all that is pending would, and leaves pending what that
reader leaves, however the bytes come in. -/
theorem ReadCommand_refines {rd : LegacyAOFReader} (h : rd.Inv) :
    (ReadCommand rd).2.Inv ∧ (ReadCommand rd).1 = (decodeFrame rd.pending).1 ∧
      (ReadCommand rd).2.pending = (decodeFrame rd.pending).2 := by
  fun_induction ReadCommand rd with
  | case1 rd hready sz1 hbad =>
    have hdec := h.decodeFrame_ready hready
    rw [if_pos hbad] at hdec
    exact ⟨h, by rw [hdec], by rw [hdec]⟩
  | case2 rd hready sz1 hgood =>
    have hdec := h.decodeFrame_ready hready
    rw [if_neg hgood] at hdec
    refine ⟨⟨?_, h.eofLast, h.eofEnd⟩, by rw [hdec], ?_⟩
    · have := h.valid
      dsimp only
      omega
    · rw [hdec, h.drop_pending hready.2]
      rfl
  | case3 rd hnot heof =>
    have hr := h.eofLast heof
    have hdec := h.decodeFrame_eof hr hnot
    exact ⟨⟨h.valid, fun h => absurd h Bool.false_ne_true, h.eofEnd⟩, by rw [hdec], by rw [hdec]; rfl⟩
  | case4 rd hnot heof hr ih =>
    obtain ⟨hinv, hpend⟩ := h.close hr
    rw [← hpend]
    exact ih hinv
  | case5 rd hnot heof cbuf eof r hr ih =>
    obtain ⟨hinv, hpend⟩ := h.refill hr
    simp only [dite_eq_ite] at ih ⊢
    rw [← hpend]
    exact ih hinv

/-- Over frames, successive calls hand out their commands in order, then answer as a reader of
what follows them. -/
theorem readCommands_frames (payloads : List (List UInt8)) {rd : LegacyAOFReader}
    {tail : List UInt8} (h : rd.Inv) (hlen : ∀ x ∈ payloads, x.length < 2 ^ 32)
    (hp : rd.pending = (payloads.map frame).flatten ++ tail) :
    readCommands (payloads.length + 1) rd = payloads.map .ok ++ [(decodeFrame tail).1] := by
  induction payloads generalizing rd with
  | nil =>
    obtain ⟨-, hres, -⟩ := ReadCommand_refines h
    simp only [List.map_nil, List.flatten_nil, List.nil_append] at hp
    simp [readCommands, hres, hp]
  | cons x xs ih =>
    obtain ⟨hinv, hres, hpend⟩ := ReadCommand_refines h
    have hdec : decodeFrame rd.pending = (.ok x, (xs.map frame).flatten ++ tail) := by
      rw [hp, List.map_cons, List.flatten_cons, List.append_assoc,
        decodeFrame_frame _ _ (hlen x List.mem_cons_self)]
    rw [hdec] at hres hpend
    rw [List.length_cons, readCommands, hres, ih hinv (fun y hy => hlen y (List.mem_cons_of_mem _ hy)) hpend]
    rfl

theorem readCommands_new (payloads : List (List UInt8)) {chunks : List (List UInt8 × Bool)}
    {tail : List UInt8} (hlen : ∀ x ∈ payloads, x.length < 2 ^ 32)
    (hend : ∀ c ∈ chunks.dropLast, c.2 = false)
    (hfile : (chunks.map Prod.fst).flatten = (payloads.map frame).flatten ++ tail) :
    readCommands (payloads.length + 1) (NewLegacyAOFReader chunks) =
      payloads.map .ok ++ [(decodeFrame tail).1] :=
  readCommands_frames payloads ⟨by simp [NewLegacyAOFReader], fun h => absurd h Bool.false_ne_true, hend⟩
    hlen (by simpa [LegacyAOFReader.pending, NewLegacyAOFReader] using hfile)

theorem legacy_frames_any_chunking :
    (∀ (payloads : List (List UInt8)) (chunks : List (List UInt8 × Bool)),
      (∀ x ∈ payloads, x.length < 2 ^ 32) → (∀ c ∈ chunks.dropLast, c.2 = false) →
      (chunks.map Prod.fst).flatten = (payloads.map frame).flatten →
      readCommands (payloads.length + 1) (NewLegacyAOFReader chunks) =
        payloads.map .ok ++ [.error .EOF]) ∧
    (∀ (payloads : List (List UInt8)) (x : List UInt8) (m : Nat)
        (chunks : List (List UInt8 × Bool)),
      (∀ y ∈ payloads, y.length < 2 ^ 32) → x.length < 2 ^ 32 → 0 < m → m < (frame x).length →
      (∀ c ∈ chunks.dropLast, c.2 = false) →
      (chunks.map Prod.fst).flatten = (payloads.map frame).flatten ++ (frame x).take m →
      readCommands (payloads.length + 1) (NewLegacyAOFReader chunks) =
        payloads.map .ok ++ [.error .ErrUnexpectedEOF]) ∧
    (∀ (payloads : List (List UInt8)) (x trailer rest : List UInt8)
        (chunks : List (List UInt8 × Bool)),
      (∀ y ∈ payloads, y.length < 2 ^ 32) → x.length < 2 ^ 32 → trailer.length = 5 →
      trailer ≠ putUint32 x.length ++ [0] → (∀ c ∈ chunks.dropLast, c.2 = false) →
      (chunks.map Prod.fst).flatten =
        (payloads.map frame).flatten ++ (putUint32 x.length ++ x ++ trailer ++ rest) →
      readCommands (payloads.length + 1) (NewLegacyAOFReader chunks) =
        payloads.map .ok ++ [.error .errCorruptedAOF]) := by
  refine ⟨?_, ?_, ?_⟩
  · intro payloads chunks hlen hend hfile
    have hfile' : (chunks.map Prod.fst).flatten = (payloads.map frame).flatten ++ [] := by
      rw [hfile, List.append_nil]
    rw [readCommands_new payloads hlen hend hfile']
    rfl
  · intro payloads x m chunks hlen hx hm0 hm hend hfile
    rw [readCommands_new payloads hlen hend hfile, decodeFrame_truncated x m hx hm0 hm]
  · intro payloads x trailer rest chunks hlen hx htr hbad hend hfile
    rw [readCommands_new payloads hlen hend hfile, decodeFrame_corrupted x trailer rest hx htr hbad]

theorem legacy_frames_any_chunking_split :
    readCommands 3 (NewLegacyAOFReader [([1, 0, 0], false), ([0, 7, 1, 0, 0, 0, 0, 2], false),
        ([], false), ([0, 0, 0, 8, 9, 2, 0, 0, 0, 0], true)]) =
      [.ok [7], .ok [8, 9], .error .EOF] ∧
    readCommands 2 (NewLegacyAOFReader [([1, 0, 0, 0, 7, 1, 0], false),
        ([0, 0, 0, 2, 0, 0, 0, 8, 9], true)]) =
      [.ok [7], .error .ErrUnexpectedEOF] ∧
    readCommands 2 (NewLegacyAOFReader [([1, 0, 0, 0, 7, 1, 0, 0, 0, 0, 2], false),
        ([0, 0, 0, 8, 9, 3, 0, 0, 0, 0], true)]) =
      [.ok [7], .error .errCorruptedAOF] :=
  ⟨legacy_frames_any_chunking.1 [[7], [8, 9]] _ (by decide) (by decide) (by decide),
    legacy_frames_any_chunking.2.1 [[7]] [8, 9] 6 _ (by decide) (by decide) (by decide)
      (by decide) (by decide) (by decide),
    legacy_frames_any_chunking.2.2 [[7]] [8, 9] [3, 0, 0, 0, 0] [] _ (by decide) (by decide)
      (by decide) (by decide) (by decide) (by decide)⟩

end Controller
