import Tile38.Resp.Reader
import Mathlib.Algebra.BigOperators.Group.List.Basic

/-!
# Resynchronising a follower (`checksum.go`)

Before a follower streams the leader's file, `followCheckSome` finds how much of its own file
agrees with the leader's. It compares the md5 sums of the `checksumsz`-byte chunks at the same
position in both files: the first chunk, then, if that one matched, chunks chosen by a halving
search, and keeps the end of the last chunk that matched. From there it scans back for a `*`
at which a command can be read (`getEndOfLastValuePositionInFile`), cuts its file at the end of
that command, and asks the leader for its file from that position on.

md5 is the parameter `md5`, and the two files are byte lists. Reloading the cut file, the
errors of the file system and of the connection, and the `followc` check are left out.

Over a file whose chunks match up to a divergence `d`, the search compares chunks inside the
file only and ends at a chunk boundary at most `d` and less than two chunks before it
(`checkSome_brackets_divergence`): what it knows between rounds is a `Bracket`.

The end of the command the scan finds is never compared with the position the sums verified. A
command that starts in the verified chunk and ends after it moves the position past bytes that
were never compared, and the follower keeps them in front of what the leader sends
(`followCheckSome_past_verified`).
-/

namespace Controller

/-- `checksumsz`: the size of the chunks compared. -/
def checksumsz : Nat := 512 * 1024

section CheckSome

variable {δ : Type} [DecidableEq δ] (md5 : List UInt8 → δ)

/-- `checksum(pos, size)` on the bytes of a file: the md5 of `size` bytes at `pos`, or `io.EOF`
(`none`) where they are not all there. -/
def checksum (aof : List UInt8) (pos size : Nat) : Option δ :=
  if aof.length < pos + size then none
  else if size = 0 then (if aof.length ≤ pos then none else some (md5 []))
  else some (md5 ((aof.drop pos).take size))

/-- `matchChecksums(conn, pos, size)`: the follower's sum against the one the leader's `AOFMD5`
returns; a chunk missing from either file is no match. -/
def matchChecksums (follower leader : List UInt8) (pos size : Nat) : Bool :=
  match checksum md5 follower pos size, checksum md5 leader pos size with
  | some sum, some csum => csum == sum
  | _, _ => false

/-- The loop of `followCheckSome` once the first chunk matched, on `int64` positions, where
`ok pos` compares the chunks at `pos`; the position found is `min`. -/
def checkSomeLoop (ok : Int → Bool) (min max limit : Int) : Int :=
  if max < min ∨ limit < max + checksumsz then min
  else if ok max then
    let min := max + checksumsz
    checkSomeLoop ok min ((limit - min).tdiv 2 - (checksumsz / 2 : Nat) + min) limit
  else
    let limit := max
    checkSomeLoop ok min ((limit - min).tdiv 2 - (checksumsz / 2 : Nat) + min) limit
termination_by (limit - min).toNat
decreasing_by
  all_goals
    have hsz : (checksumsz : Int) = 524288 := rfl
    omega

/-- `getEndOfLastValuePositionInFile(fname, startPos)` on the bytes of the file: scanning back
from `startPos`, the first `*` at which `ReadMultiBulk` reads a command that is not a telnet
line gives the end of that command. Reading before the start of the file is `io.EOF`. -/
def getEndOfLastValuePositionInFile (file : List UInt8) : Nat → Except Resp.RespError Nat
  | 0 => .error .eof
  | pos + 1 =>
    match file[pos]? with
    | none => .error .eof
    | some c =>
      if c = 42 then
        match Resp.ReadMultiBulk (file.drop pos) with
        | .ok (r, false) => .ok (pos + r.n)
        | _ => getEndOfLastValuePositionInFile file pos
      else getEndOfLastValuePositionInFile file pos

/-- `followCheckSome(addr, followc)` for a follower with the file `follower` and a leader with
the file `leader`: the position the leader streams its file from, and the follower's file. A
follower file shorter than a chunk is kept whole, the position being `0`. -/
def followCheckSome (follower leader : List UInt8) : Except Resp.RespError (Nat × List UInt8) :=
  if follower.length < checksumsz then .ok (0, follower)
  else
    let ok (pos : Int) : Bool := matchChecksums md5 follower leader pos.toNat checksumsz
    let pos : Int :=
      if ok 0 then checkSomeLoop ok checksumsz (follower.length - checksumsz) follower.length
      else 0
    let fullpos := pos.toNat
    -- a follower that agrees on nothing starts a new file
    if fullpos = 0 then .ok (0, [])
    else do
      let pos ← getEndOfLastValuePositionInFile follower fullpos
      if pos = fullpos then return (pos, follower)
      -- the file is cut at `pos` and loaded again
      return (pos, follower.take pos)

/-! ### The steps of the search -/

omit [DecidableEq δ] in
theorem checksum_of_le {aof : List UInt8} {pos size : Nat} (hle : pos + size ≤ aof.length)
    (hsize : size ≠ 0) : checksum md5 aof pos size = some (md5 ((aof.drop pos).take size)) := by
  rw [checksum, if_neg (by omega), if_neg hsize]

theorem matchChecksums_first {follower leader : List UInt8} (hf : checksumsz ≤ follower.length)
    (hl : checksumsz ≤ leader.length)
    (hpre : leader.take checksumsz = follower.take checksumsz) :
    matchChecksums md5 follower leader 0 checksumsz = true := by
  have hsz : checksumsz ≠ 0 := by decide
  rw [matchChecksums, checksum_of_le md5 (by omega) hsz, checksum_of_le md5 (by omega) hsz]
  simp [hpre]

theorem checkSomeLoop_of_lt (ok : Int → Bool) {min max : Int} (limit : Int) (h : max < min) :
    checkSomeLoop ok min max limit = min := by
  rw [checkSomeLoop, if_pos (Or.inl h)]

theorem getEnd_of_no_star (file : List UInt8) {k pos : Nat} (hk : k ≤ pos)
    (hpos : pos ≤ file.length) (hstar : ∀ i, k ≤ i → i < pos → file[i]? ≠ some 42) :
    getEndOfLastValuePositionInFile file pos = getEndOfLastValuePositionInFile file k := by
  induction pos with
  | zero => rw [Nat.le_zero.mp hk]
  | succ pos ih =>
    rcases Nat.eq_or_lt_of_le hk with rfl | hlt
    · rfl
    obtain ⟨c, hc⟩ : ∃ c, file[pos]? = some c := ⟨_, List.getElem?_eq_getElem (by omega)⟩
    have hc42 : c ≠ 42 := fun h => hstar pos (by omega) (by omega) (h ▸ hc)
    rw [getEndOfLastValuePositionInFile, hc]
    simp only [if_neg hc42]
    exact ih (by omega) (by omega) fun i hi hi' => hstar i hi (by omega)

theorem getEnd_of_read {file : List UInt8} {pos : Nat} {r : Resp.Read (file.drop pos) Resp.Value}
    (hstar : file[pos]? = some 42) (hr : Resp.ReadMultiBulk (file.drop pos) = .ok (r, false)) :
    getEndOfLastValuePositionInFile file (pos + 1) = .ok (pos + r.n) := by
  rw [getEndOfLastValuePositionInFile, hstar]
  simp only [if_true, hr]

end CheckSome

/-! ### The halving search brackets the divergence -/

/-- The chunks the loop of `followCheckSome` compares, in order: the `max` of each round. -/
def checkSomeProbes (ok : Int → Bool) (min max limit : Int) : List Int :=
  if max < min ∨ limit < max + checksumsz then []
  else if ok max then
    let min := max + checksumsz
    max :: checkSomeProbes ok min ((limit - min).tdiv 2 - (checksumsz / 2 : Nat) + min) limit
  else
    let limit := max
    max :: checkSomeProbes ok min ((limit - min).tdiv 2 - (checksumsz / 2 : Nat) + min) limit
termination_by (limit - min).toNat
decreasing_by
  all_goals
    have hsz : (checksumsz : Int) = 524288 := rfl
    omega

section Search

variable {ok : Int → Bool} {d : Int}

/-- What the search knows between rounds: the chunks before `min` matched, the chunk at
`limit` (or the end of the file) did not, and when the next probe `max` ends the loop, fewer
than a chunk's bytes are left undecided. -/
structure Bracket (d min max limit : Int) : Prop where
  matched : min ≤ d
  failed : d < limit + checksumsz
  ordered : min ≤ limit
  probe : max < min ∨ limit < max + checksumsz → limit - min < checksumsz

/-- The next probe, half way between `min` and `limit` less half a chunk, ends the loop only
once less than a chunk is left. -/
theorem midpoint_probe {min limit : Int} (hle : min ≤ limit) :
    let max := (limit - min).tdiv 2 - (checksumsz / 2 : Nat) + min
    max < min ∨ limit < max + checksumsz → limit - min < checksumsz := by
  intro max hmax
  have hsz : (checksumsz : Int) = 524288 := rfl
  have hhalf : ((checksumsz / 2 : Nat) : Int) = 262144 := rfl
  have hdiv : (limit - min).tdiv 2 = (limit - min) / 2 := Int.tdiv_eq_ediv_of_nonneg (by omega)
  simp only [max, hdiv, hhalf, hsz] at hmax ⊢
  omega


theorem Bracket.of_match {min max limit : Int} (h : Bracket d min max limit)
    (hin : ¬(max < min ∨ limit < max + checksumsz)) (hmatch : max + checksumsz ≤ d) :
    Bracket d (max + checksumsz)
      ((limit - (max + checksumsz)).tdiv 2 - (checksumsz / 2 : Nat) + (max + checksumsz))
      limit :=
  ⟨hmatch, h.failed, by omega, midpoint_probe (by omega)⟩

theorem Bracket.of_mismatch {min max limit : Int} (h : Bracket d min max limit)
    (hin : ¬(max < min ∨ limit < max + checksumsz)) (hmiss : d < max + checksumsz) :
    Bracket d min ((max - min).tdiv 2 - (checksumsz / 2 : Nat) + min) max :=
  ⟨h.matched, hmiss, by omega, midpoint_probe (by omega)⟩

/-- The search ends inside the bracket, at most two chunks before the divergence. -/
theorem checkSomeLoop_bracket {min max limit : Int}
    (hok : ∀ x, min ≤ x → x + checksumsz ≤ limit → (ok x = true ↔ x + checksumsz ≤ d))
    (h : Bracket d min max limit) :
    min ≤ checkSomeLoop ok min max limit ∧ checkSomeLoop ok min max limit ≤ d ∧
      d - checkSomeLoop ok min max limit < 2 * checksumsz := by
  fun_induction checkSomeLoop ok min max limit with
  | case1 min max limit hexit =>
    have := h.probe hexit
    have := h.failed
    exact ⟨le_refl _, h.matched, by omega⟩
  | case2 min max limit hin hmax min' ih =>
    have hmatch := (hok max (by omega) (by omega)).mp hmax
    obtain ⟨h1, h2, h3⟩ := ih (fun x hx hx' => hok x (by omega) hx') (h.of_match hin hmatch)
    exact ⟨by omega, h2, h3⟩
  | case3 min max limit hin hmax limit' ih =>
    have hmiss : d < max + checksumsz :=
      Int.not_le.mp fun hle => hmax ((hok max (by omega) (by omega)).mpr hle)
    exact ih (fun x hx hx' => hok x hx (by omega)) (h.of_mismatch hin hmiss)


theorem checkSomeProbes_within {min max limit : Int} :
    ∀ x ∈ checkSomeProbes ok min max limit, min ≤ x ∧ x + checksumsz ≤ limit := by
  fun_induction checkSomeProbes ok min max limit with
  | case1 => simp
  | case2 min max limit hin hmax min' ih =>
    intro x hx
    rcases List.mem_cons.mp hx with rfl | hx
    · omega
    · have := ih x hx
      omega
  | case3 min max limit hin hmax limit' ih =>
    intro x hx
    rcases List.mem_cons.mp hx with rfl | hx
    · omega
    · have := ih x hx
      omega

/-- The search of `followCheckSome` over a file of `aofsz` bytes whose chunks match up to the
divergence `d`: it compares chunks inside the file only, and ends at `0` when the first chunk
does not match, otherwise at a chunk boundary no later than `d`, less than two chunks before
`d` or the end of the file, whichever comes first. -/
theorem checkSome_brackets_divergence (aofsz : Nat) (d : Int) (ok : Int → Bool)
    (hsz : checksumsz ≤ aofsz)
    (hok : ∀ x : Int, 0 ≤ x → x + checksumsz ≤ aofsz → (ok x = true ↔ x + checksumsz ≤ d)) :
    (∀ x ∈ checkSomeProbes ok checksumsz (aofsz - checksumsz) aofsz,
      0 ≤ x ∧ x + checksumsz ≤ aofsz) ∧
    (ok 0 = false →
      (if ok 0 then checkSomeLoop ok checksumsz (aofsz - checksumsz) aofsz else 0) = 0) ∧
    (ok 0 = true →
      checksumsz ≤ checkSomeLoop ok checksumsz (aofsz - checksumsz) aofsz ∧
      checkSomeLoop ok checksumsz (aofsz - checksumsz) aofsz ≤ d ∧
      Min.min d aofsz - checkSomeLoop ok checksumsz (aofsz - checksumsz) aofsz <
        2 * checksumsz) := by
  have hC : (checksumsz : Int) = 524288 := rfl
  refine ⟨fun x hx => ?_, fun h0 => by rw [h0, if_neg Bool.false_ne_true], fun h0 => ?_⟩
  · have := checkSomeProbes_within x hx
    omega
  -- inside the file, the chunks match up to `d` exactly when they match up to the end of the
  -- file or `d`, whichever comes first
  have hok' : ∀ x, (checksumsz : Int) ≤ x → x + checksumsz ≤ aofsz →
      (ok x = true ↔ x + checksumsz ≤ Min.min d aofsz) := by
    intro x hx hx'
    rw [hok x (by omega) hx', le_min_iff]
    exact ⟨fun h => ⟨h, hx'⟩, fun h => h.1⟩
  have hfirst : (checksumsz : Int) ≤ d := by
    have := (hok 0 (le_refl _) (by omega)).mp h0
    omega
  have hstart : Bracket (Min.min d aofsz) checksumsz (aofsz - checksumsz) aofsz :=
    ⟨le_min hfirst (by omega), lt_of_le_of_lt (min_le_right _ _) (by omega), by omega,
      fun _ => by omega⟩
  obtain ⟨h1, h2, h3⟩ := checkSomeLoop_bracket hok' hstart
  exact ⟨h1, le_trans h2 (min_le_left _ _), h3⟩


/-- A file of three chunks diverging 5 bytes into its third: the search ends at the end of the
second chunk or after it, less than two chunks before the divergence. -/
theorem checkSome_brackets_divergence_third_chunk :
    (checksumsz : Int) ≤ checkSomeLoop (fun x => decide (x + checksumsz ≤ 2 * checksumsz + 5))
        checksumsz ((3 * checksumsz : Nat) - checksumsz) (3 * checksumsz : Nat) ∧
      checkSomeLoop (fun x => decide (x + checksumsz ≤ 2 * checksumsz + 5))
        checksumsz ((3 * checksumsz : Nat) - checksumsz) (3 * checksumsz : Nat) ≤
        2 * checksumsz + 5 ∧
      Min.min (2 * (checksumsz : Int) + 5) (3 * checksumsz : Nat) -
        checkSomeLoop (fun x => decide (x + checksumsz ≤ 2 * checksumsz + 5))
          checksumsz ((3 * checksumsz : Nat) - checksumsz) (3 * checksumsz : Nat) <
        2 * checksumsz :=
  (checkSome_brackets_divergence (3 * checksumsz) (2 * checksumsz + 5) _ (by decide)
    (fun x _ _ => by simp)).2.2 (by decide)

end Search

/-! ### A command across the first chunk -/

theorem star_not_mem_tail {args : List (List UInt8)} (hstar : ∀ v ∈ args, 42 ∉ v) :
    42 ∉ (marshalRESP args).tail := by
  have hdig : ∀ n : Nat, 42 ∉ word (toString n) := fun n h =>
    absurd (Resp.digit_of_mem_toString h).1 (by decide)
  have h42 : word "*" = [42] := by decide
  have h36 : word "$" = [36] := by decide
  simp only [marshalRESP, h42, h36, List.cons_append, List.tail_cons, List.mem_append,
    List.mem_flatMap, not_or, not_exists, not_and]
  refine ⟨⟨⟨List.not_mem_nil, hdig _⟩, by decide⟩, fun v hv => ?_⟩
  simp only [List.mem_cons, List.nil_append, List.mem_append, not_or]
  exact ⟨by decide, ⟨⟨hdig _, by decide⟩, hstar v hv⟩, by decide⟩

theorem length_le_of_mem_marshalRESP {args : List (List UInt8)} {v : List UInt8} (hv : v ∈ args) :
    v.length ≤ (marshalRESP args).length := by
  have hin : v.IsInfix (word "$" ++ word (toString v.length) ++ [13, 10] ++ v ++ [13, 10]) :=
    List.infix_append _ _ _
  have hflat := List.infix_of_mem_flatten (List.mem_map_of_mem
    (f := fun v => word "$" ++ word (toString v.length) ++ [13, 10] ++ v ++ [13, 10]) hv)
  rw [← List.flatMap_def] at hflat
  have htail : (args.flatMap fun v => word "$" ++ word (toString v.length) ++ [13, 10] ++ v ++
      [13, 10]).IsInfix (marshalRESP args) := (List.suffix_append _ _).isInfix
  exact (hin.trans (hflat.trans htail)).length_le

theorem length_le_marshalRESP (args : List (List UInt8)) :
    args.length ≤ (marshalRESP args).length := by
  have hsum : args.length ≤ (args.flatMap fun v => word "$" ++ word (toString v.length) ++
      [13, 10] ++ v ++ [13, 10]).length := by
    rw [List.length_flatMap]
    have h := List.length_le_sum_of_one_le (args.map fun v => (word "$" ++ word (toString v.length) ++
      [13, 10] ++ v ++ [13, 10]).length) fun i hi => by
        obtain ⟨v, -, rfl⟩ := List.mem_map.mp hi
        simp only [List.length_append, List.length_cons]
        omega
    rwa [List.length_map] at h
  simp only [marshalRESP, List.length_append] at hsum ⊢
  omega

variable {δ : Type} [DecidableEq δ] (md5 : List UInt8 → δ)

/-- A follower whose file is one command of more than one chunk and less than two, with no `*`
in its values, and a leader whose file has the same length and the same first chunk but differs
later: the first chunk matches, and the search stops there, since no second chunk fits before
the end of the file; the scan back from the end of the chunk reaches the `*` of the command and
reads the whole command, so the position returned is the end of the file. The follower keeps its
whole file, bytes that differ from the leader's included, and is sent the leader's file from
that point on. -/
theorem followCheckSome_past_verified (args : List (List UInt8)) (leader : List UInt8)
    (hstar : ∀ v ∈ args, 42 ∉ v) (hlo : checksumsz < (marshalRESP args).length)
    (hhi : (marshalRESP args).length < 2 * checksumsz)
    (hlen : leader.length = (marshalRESP args).length)
    (hpre : leader.take checksumsz = (marshalRESP args).take checksumsz)
    (hne : leader ≠ marshalRESP args) :
    followCheckSome md5 (marshalRESP args) leader =
        .ok ((marshalRESP args).length, marshalRESP args) ∧
      (marshalRESP args).take (marshalRESP args).length ≠
        leader.take (marshalRESP args).length := by
  have hsz : checksumsz = 524288 := rfl
  obtain ⟨r, hr, -, hn⟩ := Resp.ReadMultiBulk_marshalRESP args
    (by have := length_le_marshalRESP args; omega)
    (fun v hv => by have := length_le_of_mem_marshalRESP hv; omega) [] ((marshalRESP args).drop 0)
    (by simp)
  have hfirst : (marshalRESP args)[0]? = some 42 := by
    have h42 : word "*" = [42] := by decide
    simp [marshalRESP, h42]
  have hscan : getEndOfLastValuePositionInFile (marshalRESP args) checksumsz =
      .ok (marshalRESP args).length := by
    rw [getEnd_of_no_star _ (by omega : 1 ≤ checksumsz) (by omega), getEnd_of_read hfirst hr, hn, Nat.zero_add]
    intro i hi hi' h
    refine star_not_mem_tail hstar ?_
    rw [List.mem_iff_getElem?]
    exact ⟨i - 1, by rw [List.getElem?_tail, Nat.sub_add_cancel hi]; exact h⟩
  have hok : matchChecksums md5 (marshalRESP args) leader (0 : Int).toNat checksumsz = true :=
    matchChecksums_first md5 (by omega) (by omega) hpre
  have hloop : checkSomeLoop (fun pos => matchChecksums md5 (marshalRESP args) leader pos.toNat
      checksumsz) checksumsz ((marshalRESP args).length - checksumsz) (marshalRESP args).length =
      checksumsz := checkSomeLoop_of_lt _ _ (by omega)
  refine ⟨?_, ?_⟩
  · rw [followCheckSome, if_neg (by omega)]
    simp only [hok, if_true, hloop, Int.toNat_natCast]
    rw [if_neg (by omega)]
    simp only [hscan, bind, Except.bind, pure, Except.pure]
    rw [if_neg (by omega), List.take_length]
  · rw [List.take_length, ← hlen, List.take_length]
    exact hne.symm

/-- The bytes of a command end with its last value and a CR LF, after bytes that depend on that
value only through its length. -/
theorem marshalRESP_append_singleton (front : List (List UInt8)) (v : List UInt8) :
    marshalRESP (front ++ [v]) = (word "*" ++ word (toString (front.length + 1)) ++ [13, 10] ++
      (front.flatMap fun v => word "$" ++ word (toString v.length) ++ [13, 10] ++ v ++ [13, 10]) ++
      word "$" ++ word (toString v.length) ++ [13, 10]) ++ (v ++ [13, 10]) := by
  simp [marshalRESP, List.flatMap_append]

/-- The first values of `SET fleet truck1 STRING`. -/
def setFront : List (List UInt8) := [word "set", word "fleet", word "truck1", word "string"]

/-- `SET fleet truck1 STRING` with a value of 512 KiB of `x`, and the same command with the last
byte of the value changed to `y`. -/
def bigSet : List (List UInt8) := setFront ++ [List.replicate 524288 120]

def bigSetEdited : List (List UInt8) := setFront ++ [List.replicate 524287 120 ++ [121]]

theorem followCheckSome_bigSet :
    (∀ v ∈ bigSet, 42 ∉ v) ∧ checksumsz < (marshalRESP bigSet).length ∧
      (marshalRESP bigSet).length < 2 * checksumsz ∧
      (marshalRESP bigSetEdited).length = (marshalRESP bigSet).length ∧
      (marshalRESP bigSetEdited).take checksumsz = (marshalRESP bigSet).take checksumsz ∧
      marshalRESP bigSetEdited ≠ marshalRESP bigSet ∧
      followCheckSome id (marshalRESP bigSet) (marshalRESP bigSetEdited) =
          .ok ((marshalRESP bigSet).length, marshalRESP bigSet) ∧
        (marshalRESP bigSet).take (marshalRESP bigSet).length ≠
          (marshalRESP bigSetEdited).take (marshalRESP bigSet).length := by
  obtain ⟨Q, hF, hL, hQ⟩ : ∃ Q : List UInt8,
      marshalRESP bigSet = Q ++ (List.replicate 524288 120 ++ [13, 10]) ∧
      marshalRESP bigSetEdited = Q ++ ((List.replicate 524287 120 ++ [121]) ++ [13, 10]) ∧
      Q.length = 57 := by
    have hlen : (List.replicate 524287 (120 : UInt8) ++ [121]).length = 524288 := by
      rw [List.length_append, List.length_replicate]
      rfl
    refine ⟨_, by rw [bigSet, marshalRESP_append_singleton, List.length_replicate], ?_, by decide⟩
    rw [bigSetEdited, marshalRESP_append_singleton, hlen]
  have hsz : checksumsz = 524288 := rfl
  have hFlen : (marshalRESP bigSet).length = 524347 := by
    rw [hF, List.length_append, hQ, List.length_append, List.length_replicate]
    rfl
  have hLlen : (marshalRESP bigSetEdited).length = 524347 := by
    rw [hL, List.length_append, hQ, List.length_append, List.length_append, List.length_replicate]
    rfl
  have h1 : ∀ v ∈ bigSet, 42 ∉ v := by
    intro v hv
    simp only [bigSet, setFront, List.cons_append, List.nil_append, List.mem_cons,
      List.not_mem_nil, or_false] at hv
    rcases hv with rfl | rfl | rfl | rfl | rfl
    · decide
    · decide
    · decide
    · decide
    · rw [List.mem_replicate]
      decide
  have h2 : checksumsz < (marshalRESP bigSet).length := by
    rw [hFlen, hsz]
    decide
  have h3 : (marshalRESP bigSet).length < 2 * checksumsz := by
    rw [hFlen, hsz]
    decide
  have h4 : (marshalRESP bigSetEdited).length = (marshalRESP bigSet).length := by
    rw [hFlen, hLlen]
  have h5 : (marshalRESP bigSetEdited).take checksumsz = (marshalRESP bigSet).take checksumsz := by
    have hQle : Q.length ≤ checksumsz := by omega
    have hrest : checksumsz - Q.length = 524231 := by omega
    have hedit : 524231 ≤ (List.replicate 524287 (120 : UInt8) ++ [121]).length := by
      rw [List.length_append, List.length_replicate]
      decide
    have hx : 524231 ≤ (List.replicate 524287 (120 : UInt8)).length := by
      rw [List.length_replicate]
      decide
    have hx' : 524231 ≤ (List.replicate 524288 (120 : UInt8)).length := by
      rw [List.length_replicate]
      decide
    have hFtake : (marshalRESP bigSet).take checksumsz = Q ++ List.replicate 524231 120 := by
      rw [hF, List.take_append, List.take_of_length_le hQle, hrest,
        List.take_append_of_le_length hx', List.take_replicate, min_eq_left (by decide)]
    have hLtake : (marshalRESP bigSetEdited).take checksumsz = Q ++ List.replicate 524231 120 := by
      rw [hL, List.take_append, List.take_of_length_le hQle, hrest,
        List.take_append_of_le_length hedit, List.take_append_of_le_length hx, List.take_replicate,
        min_eq_left (by decide)]
    rw [hFtake, hLtake]
  have h6 : marshalRESP bigSetEdited ≠ marshalRESP bigSet := by
    rw [hF, hL]
    intro h
    have hlast := List.append_cancel_right (List.append_cancel_left h)
    have hsucc : List.replicate 524288 (120 : UInt8) = List.replicate 524287 120 ++ [120] :=
      List.replicate_succ'
    rw [hsucc] at hlast
    exact absurd (List.append_cancel_left hlast) (by decide)
  exact ⟨h1, h2, h3, h4, h5, h6, followCheckSome_past_verified id bigSet _ h1 h2 h3 h4 h5 h6⟩

end Controller
