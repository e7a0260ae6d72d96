import Tile38.Controller.Aof

/-!
# The RESP reader (`vendor/github.com/tidwall/resp/resp.go`)

`ReadMultiBulk` reads one value from a stream and returns it with the number of bytes it read.
The model reads from the bytes that remain in the stream and returns the value with that count
(`Read`), which is never zero and never more than the bytes there are: every read takes its
first byte, which is also what lets an array read its elements one after another. Only the
reader with `multibulk` set is modelled, the one `ReadMultiBulk` starts. `readInt` reads its
line with `strconv.ParseInt(line, 10, 64)`, modelled as Go defines it for base 10.

A command as `MarshalRESP` writes it reads back as the array of its values, taking exactly its
own bytes, whatever follows it in the stream (`ReadMultiBulk_marshalRESP`).
-/

namespace Resp

/-! ### `strconv.ParseInt` -/

/-- The digits of `strconv.ParseUint(s, 10, 64)`: a non-empty run of decimal digits. -/
def parseDigits (s : List UInt8) : Option Nat :=
  if s ≠ [] ∧ s.all (fun d => 48 ≤ d ∧ d ≤ 57) then
    some (s.foldl (fun n d => 10 * n + (d - 48).toNat) 0)
  else none

/-- `strconv.ParseInt(s, 10, 64)`: an optional sign, then digits, within the range of `int64`.
Both of Go's errors, the syntax error and the range error, are `none`. -/
def ParseInt (s : List UInt8) : Option Int :=
  match s with
  | 43 :: ds => (parseDigits ds).bind fun u => if u < 2 ^ 63 then some (u : Int) else none
  | 45 :: ds => (parseDigits ds).bind fun u => if u ≤ 2 ^ 63 then some (-(u : Int)) else none
  | ds => (parseDigits ds).bind fun u => if u < 2 ^ 63 then some (u : Int) else none

theorem toList_toString (n : Nat) : (toString n).toList = Nat.toDigits 10 n := by
  simp [Nat.toString_eq_repr, Nat.repr]

theorem toNat_of_mem_toDigits {n : Nat} {c : Char} (hc : c ∈ Nat.toDigits 10 n) :
    48 ≤ c.toNat ∧ c.toNat ≤ 57 := by
  have hdig := Nat.isDigit_of_mem_toDigits (by decide) (by decide) hc
  simp only [Char.isDigit, Bool.and_eq_true, decide_eq_true_eq] at hdig
  simp [UInt32.le_iff_toNat_le] at hdig
  exact hdig

theorem digit_of_mem_toString {n : Nat} {b : UInt8} (hb : b ∈ Controller.word (toString n)) :
    48 ≤ b ∧ b ≤ 57 := by
  obtain ⟨c, hc, rfl⟩ := List.mem_map.mp hb
  rw [toList_toString] at hc
  have hc' := toNat_of_mem_toDigits hc
  have hlt : c.toNat < 256 := by omega
  simp [UInt8.le_iff_toNat_le, Nat.toUInt8, UInt8.toNat_ofNat, Nat.mod_eq_of_lt hlt]
  omega

theorem parseDigits_toString (n : Nat) : parseDigits (Controller.word (toString n)) = some n := by
  have hne : Controller.word (toString n) ≠ [] := by
    simp only [Controller.word, ne_eq, List.map_eq_nil_iff, toList_toString]
    exact List.ne_nil_of_length_pos Nat.length_toDigits_pos
  have hall : (Controller.word (toString n)).all (fun d => 48 ≤ d ∧ d ≤ 57) = true := by
    simp only [List.all_eq_true, decide_eq_true_eq]
    exact fun b hb => digit_of_mem_toString hb
  rw [parseDigits, if_pos ⟨hne, hall⟩, Controller.word, List.foldl_map, toList_toString]
  congr 1
  refine (List.foldl_ext _ _ 0 fun a c hc => ?_).trans Nat.ofDigitChars_ten_toDigits
  have hc' := toNat_of_mem_toDigits hc
  have hlt : c.toNat < 256 := by omega
  simp [UInt8.toNat_sub, Nat.toUInt8, UInt8.toNat_ofNat, Nat.mod_eq_of_lt hlt]
  omega

theorem word_toString_ne_nil (n : Nat) : Controller.word (toString n) ≠ [] := by
  simp only [Controller.word, ne_eq, List.map_eq_nil_iff, toList_toString]
  exact List.ne_nil_of_length_pos Nat.length_toDigits_pos

/-- `ParseInt` reads back the decimal text of every number in the range of `int64`. -/
theorem ParseInt_toString {n : Nat} (hn : n < 2 ^ 63) :
    ParseInt (Controller.word (toString n)) = some (n : Int) := by
  obtain ⟨d, ds, hw⟩ := List.exists_cons_of_ne_nil (word_toString_ne_nil n)
  have hd := digit_of_mem_toString (hw ▸ List.mem_cons_self : d ∈ Controller.word (toString n))
  have h43 : d ≠ 43 := by intro h; rw [h] at hd; exact absurd hd.1 (by decide)
  have h45 : d ≠ 45 := by intro h; rw [h] at hd; exact absurd hd.1 (by decide)
  have hp := parseDigits_toString n
  rw [hw] at hp ⊢
  unfold ParseInt
  split
  next ds' heq => exact absurd (List.cons.inj heq).1 h43
  next ds' heq => exact absurd (List.cons.inj heq).1 h45
  next =>
    simp only [hp, Option.bind_some]
    rw [if_pos hn]

/-! ### Values and reads -/

/-- `resp.Value` as the reader builds it: `typ` with `str`, `integer`, `array` or `null`. -/
inductive Value where
  /-- A simple string (`+`) or an error (`-`). -/
  | simple (typ : UInt8) (str : List UInt8)
  | integer (i : Int)
  | bulk (str : List UInt8)
  | array (vals : List Value)
  /-- `null: true`, with the type `$` or `*`, or none (`nullValue`). -/
  | null (typ : UInt8)
  deriving Repr

/-- The errors of the reader: `io.EOF`, `io.ErrUnexpectedEOF`, an `errProtocol` with its
message, and the `*strconv.NumError` of `ParseInt`. -/
inductive RespError where
  | eof
  | unexpectedEOF
  | protocol (msg : List UInt8)
  | numError
  deriving DecidableEq, Repr

/-- What a reader took from the front of the stream `s`: the value, and the number `n` of
bytes it read, at least one and at most the bytes there are. -/
structure Read (s : List UInt8) (β : Type) where
  val : β
  n : Nat
  pos : 0 < n
  le : n ≤ s.length

/-- A read after one more byte in front of it. -/
def Read.cons {s : List UInt8} {β : Type} (c : UInt8) (r : Read s β) : Read (c :: s) β :=
  ⟨r.val, r.n + 1, Nat.succ_pos _, by simpa using r.le⟩

/-- A read with its value replaced. -/
def Read.withVal {s : List UInt8} {β γ : Type} (r : Read s β) (v : γ) : Read s γ :=
  ⟨v, r.n, r.pos, r.le⟩

theorem length_drop_lt {s : List UInt8} {β : Type} (r : Read s β) : (s.drop r.n).length < s.length := by
  have := r.pos
  have := r.le
  simp only [List.length_drop]
  omega

/-- `string(c)` of a byte `c`: the UTF-8 encoding of the code point `c`. -/
def runeBytes (c : UInt8) : List UInt8 :=
  if c < 0x80 then [c] else [(0xC0 : UInt8) ||| (c >>> 6), (0x80 : UInt8) ||| (c &&& 0x3F)]

/-! ### The readers -/

/-- `readLine()`: the bytes before the first CR LF, reading through the LF. -/
def readLine : (s : List UInt8) → Except RespError (Read s (List UInt8))
  | 13 :: 10 :: _ => .ok ⟨[], 2, by decide, by simp⟩
  | b :: s => (readLine s).map fun r => (r.cons b).withVal (b :: r.val)
  | [] => .error .eof

/-- `readInt()`: a line read by `strconv.ParseInt(line, 10, 64)`. -/
def readInt (s : List UInt8) : Except RespError (Read s Int) := do
  let r ← readLine s
  match ParseInt r.val with
  | some x => pure (r.withVal x)
  | none => throw .numError

def readSimpleValue (typ : UInt8) (s : List UInt8) : Except RespError (Read s Value) :=
  (readLine s).map fun r => r.withVal (.simple typ r.val)

/-- `readIntegerValue()`. `readInt` never fails with an `errProtocol`, so the error
`invalid integer` is never returned. -/
def readIntegerValue (s : List UInt8) : Except RespError (Read s Value) :=
  (readInt s).map fun r => r.withVal (.integer r.val)

/-- `readBulkValue()`: the length, then that many bytes and CR LF. -/
def readBulkValue (s : List UInt8) : Except RespError (Read s Value) := do
  let r ← readInt s
  if r.val < 0 then return r.withVal (.null 36)
  if 512 * 1024 * 1024 < r.val then throw (.protocol (Controller.word "invalid bulk length"))
  let l := r.val.toNat
  -- `io.ReadFull` of `l + 2` bytes
  let b := (s.drop r.n).take (l + 2)
  if hb : b.length < l + 2 then throw (if b = [] then .eof else .unexpectedEOF)
  else if b[l]? = some 13 ∧ b[l + 1]? = some 10 then
    return ⟨.bulk (b.take l), r.n + (l + 2), by omega, by
      have := r.le
      simp only [b, List.length_take, List.length_drop] at hb
      omega⟩
  else throw (.protocol (Controller.word "invalid bulk line ending"))

/-- The loop of `readTelnetMultiBulk()` over the bytes of one line: the words so far, the word
being read, and the `quote` and `mustspace` flags; at the LF, the words, the last word and
`quote`, with the bytes read. -/
def telnetLoop (values : List Value) (bline : List UInt8) (quote mustspace : Bool) :
    (s : List UInt8) → Except RespError (List Value × List UInt8 × Bool × Read s Unit)
  | [] => .error .eof
  | c :: s =>
    if c = 10 then
      .ok (values, (if bline.getLast? = some 13 then bline.dropLast else bline), quote,
        ⟨(), 1, by decide, by simp⟩)
    else if mustspace ∧ c ≠ 32 then
      .error (.protocol (Controller.word "unbalanced quotes in request"))
    else
      let next : Except RespError (List Value × List UInt8 × Bool × Read s Unit) :=
        if c = 32 then
          if quote then telnetLoop values (bline ++ [c]) quote mustspace s
          else telnetLoop (values ++ [.bulk bline]) [] quote mustspace s
        else if c = 34 then
          if quote then telnetLoop values bline quote true s
          else if bline ≠ [] then .error (.protocol (Controller.word "unbalanced quotes in request"))
          else telnetLoop values bline true mustspace s
        else telnetLoop values (bline ++ [c]) quote mustspace s
      next.map fun (v, b, q, r) => (v, b, q, r.cons c)

/-- `readTelnetMultiBulk()`: one line of words separated by spaces. -/
def readTelnetMultiBulk (s : List UInt8) : Except RespError (Read s Value) := do
  let (values, bline, quote, r) ← telnetLoop [] [] false false s
  if quote then throw (.protocol (Controller.word "unbalanced quotes in request"))
  return r.withVal (.array (if bline ≠ [] then values ++ [.bulk bline] else values))

mutual

/-- `readValue(true, child)`: the value its first byte announces; at the top (`child` false) a
first byte other than `*` starts a telnet line, and the flag returned is `telnet`. -/
def readValue (child : Bool) (s : List UInt8) : Except RespError (Read s Value × Bool) :=
  match s with
  | [] => .error .eof
  | c :: s' =>
    let r : Except RespError (Read (c :: s') Value × Bool) :=
      if c = 42 then (readArrayValue s').map fun v => (v.cons c, false)
      else if !child then (readTelnetMultiBulk (c :: s')).map fun v => (v, true)
      else if c = 45 ∨ c = 43 then (readSimpleValue c s').map fun v => (v.cons c, false)
      else if c = 58 then (readIntegerValue s').map fun v => (v.cons c, false)
      else if c = 36 then (readBulkValue s').map fun v => (v.cons c, false)
      else .error (.protocol (Controller.word "expected '$', got '" ++ runeBytes c ++ Controller.word "'"))
    r.mapError fun e => if e = .eof then .unexpectedEOF else e
termination_by (s.length, 0)

/-- `readArrayValue(true)`: the count, then that many values. A count above `1024*1024` returns
`nullValue` with no error, since the error tested there is `nil`. -/
def readArrayValue (s : List UInt8) : Except RespError (Read s Value) := do
  let r ← readInt s
  if 1024 * 1024 < r.val then return r.withVal (.null 0)
  if r.val < 0 then return r.withVal (.null 42)
  let e ← readElems r.val.toNat (s.drop r.n)
  return ⟨.array e.1, r.n + e.2.1, by have := r.pos; omega, by
    have := r.le
    have := e.2.2
    simp only [List.length_drop] at this
    omega⟩
termination_by (s.length, 1)
decreasing_by exact Prod.Lex.left _ _ (length_drop_lt r)

/-- The loop of `readArrayValue` over the elements, with the bytes they took. -/
def readElems : Nat → (s : List UInt8) →
    Except RespError (List Value × { m : Nat // m ≤ s.length })
  | 0, _ => .ok ([], ⟨0, Nat.zero_le _⟩)
  | k + 1, s => do
    let (v, _) ← readValue true s
    let e ← readElems k (s.drop v.n)
    return (v.val :: e.1, ⟨v.n + e.2.1, by
      have := v.le
      have := e.2.2
      simp only [List.length_drop] at this
      omega⟩)
termination_by _ s => (s.length, 2)
decreasing_by
  · exact Prod.Lex.right _ (by decide)
  · exact Prod.Lex.left _ _ (length_drop_lt v)

end

/-- `ReadMultiBulk()`: the value, and whether it was a telnet line. -/
def ReadMultiBulk (s : List UInt8) : Except RespError (Read s Value × Bool) :=
  readValue false s

/-! ### Reading back what `MarshalRESP` writes

Each lemma reads a stream `s` given by an equation `hs`, so that the read it returns, whose type
mentions `s`, fits the next lemma without a rewrite under it. -/

theorem readLine_append {xs : List UInt8} (hxs : 13 ∉ xs) (rest : List UInt8) :
    ∃ r, readLine (xs ++ 13 :: 10 :: rest) = .ok r ∧ r.val = xs ∧ r.n = xs.length + 2 := by
  induction xs with
  | nil => exact ⟨_, rfl, rfl, rfl⟩
  | cons x xs ih =>
    have hx : x ≠ 13 := fun h => hxs (h ▸ List.mem_cons_self)
    obtain ⟨r, hr, hv, hn⟩ := ih fun h => hxs (List.mem_cons_of_mem x h)
    refine ⟨(r.cons x).withVal (x :: r.val), ?_, by simp [Read.withVal, hv], ?_⟩
    · show readLine (x :: (xs ++ 13 :: 10 :: rest)) = _
      rw [readLine.eq_2 _ _ (fun _ h _ => hx h), hr]
      rfl
    · simp [Read.withVal, Read.cons, hn]

/-- The decimal text of a number in the range of `int64`, with its CR LF, reads back as the
number. -/
theorem readInt_toString {n : Nat} (hn : n < 2 ^ 63) (rest s : List UInt8)
    (hs : s = Controller.word (toString n) ++ 13 :: 10 :: rest) :
    ∃ r, readInt s = .ok r ∧ r.val = n ∧ r.n = (Controller.word (toString n)).length + 2 := by
  subst hs
  have hcr : 13 ∉ Controller.word (toString n) := fun h =>
    absurd (digit_of_mem_toString h).1 (by decide)
  obtain ⟨r, hr, hv, hlen⟩ := readLine_append hcr rest
  refine ⟨r.withVal (n : Int), ?_, rfl, hlen⟩
  rw [readInt, hr]
  simp only [bind, Except.bind, hv, ParseInt_toString hn]
  rfl

/-- The length and bytes of one value, as `MarshalRESP` writes them after the `$`, read back as
the bulk string. -/
theorem readBulkValue_marshal {v : List UInt8} (hv : v.length ≤ 512 * 1024 * 1024)
    (rest s : List UInt8)
    (hs : s = Controller.word (toString v.length) ++ 13 :: 10 :: (v ++ 13 :: 10 :: rest)) :
    ∃ r, readBulkValue s = .ok r ∧ r.val = .bulk v ∧
      r.n = (Controller.word (toString v.length)).length + 2 + (v.length + 2) := by
  obtain ⟨r, hr, hval, hlen⟩ := readInt_toString (hv.trans_lt (by decide)) _ s hs
  have hdrop : s.drop r.n = v ++ 13 :: 10 :: rest := by
    rw [hlen, hs, List.drop_append]
    simp
  have htake : (v ++ 13 :: 10 :: rest).take (v.length + 2) = v ++ [13, 10] := by
    simp [List.take_append]
  have hneg : ¬ ((v.length : Int) < 0) := by omega
  have hbig : ¬ (512 * 1024 * 1024 < (v.length : Int)) := by omega
  rw [readBulkValue, hr]
  simp only [bind, Except.bind, hval, if_neg hneg, if_neg hbig, Int.toNat_natCast, hdrop, htake]
  rw [dif_neg (by simp), if_pos (by simp)]
  exact ⟨_, rfl, by simp, by simp [hlen]⟩

theorem readValue_bulk {v : List UInt8} (hv : v.length ≤ 512 * 1024 * 1024) (rest s : List UInt8)
    (hs : s = (Controller.word "$" ++ Controller.word (toString v.length) ++ [13, 10] ++ v ++
      [13, 10]) ++ rest) :
    ∃ r, readValue true s = .ok (r, false) ∧ r.val = .bulk v ∧
      r.n = (Controller.word "$" ++ Controller.word (toString v.length) ++ [13, 10] ++ v ++
        [13, 10]).length := by
  have h36 : Controller.word "$" = [36] := by decide
  have hs' : s = 36 :: (Controller.word (toString v.length) ++ 13 :: 10 ::
      (v ++ 13 :: 10 :: rest)) := by
    simp [hs, h36]
  subst hs'
  obtain ⟨r, hr, hval, hlen⟩ := readBulkValue_marshal hv rest _ rfl
  refine ⟨r.cons 36, ?_, hval, ?_⟩
  · rw [readValue]
    simp only [hr]
    rfl
  · simp [Read.cons, hlen, h36]
    omega

theorem readElems_marshal (args : List (List UInt8))
    (hsize : ∀ v ∈ args, v.length ≤ 512 * 1024 * 1024) (rest s : List UInt8)
    (hs : s = (args.flatMap fun v => Controller.word "$" ++ Controller.word (toString v.length) ++
      [13, 10] ++ v ++ [13, 10]) ++ rest) :
    ∃ e, readElems args.length s = .ok e ∧ e.1 = args.map .bulk ∧
      e.2.1 = (args.flatMap fun v => Controller.word "$" ++ Controller.word (toString v.length) ++
        [13, 10] ++ v ++ [13, 10]).length := by
  induction args generalizing s with
  | nil => exact ⟨_, by rw [List.length_nil, readElems], rfl, rfl⟩
  | cons v vs ih =>
    rw [List.flatMap_cons, List.append_assoc] at hs
    obtain ⟨r, hr, hval, hlen⟩ := readValue_bulk (hsize v List.mem_cons_self) _ s hs
    obtain ⟨e, he, he1, he2⟩ := ih (fun w hw => hsize w (List.mem_cons_of_mem v hw)) (s.drop r.n)
      (by rw [hlen, hs, List.drop_left])
    rw [List.length_cons, readElems]
    simp only [hr, he, bind, Except.bind, pure, Except.pure]
    exact ⟨_, rfl, by simp [hval, he1],
      by simp only [hlen, he2, List.flatMap_cons, List.length_append]⟩

theorem readArrayValue_marshal (args : List (List UInt8)) (hcount : args.length ≤ 1024 * 1024)
    (hsize : ∀ v ∈ args, v.length ≤ 512 * 1024 * 1024) (rest s : List UInt8)
    (hs : s = Controller.word (toString args.length) ++ 13 :: 10 ::
      ((args.flatMap fun v => Controller.word "$" ++ Controller.word (toString v.length) ++
        [13, 10] ++ v ++ [13, 10]) ++ rest)) :
    ∃ r, readArrayValue s = .ok r ∧ r.val = .array (args.map .bulk) ∧
      r.n = (Controller.word (toString args.length)).length + 2 +
        (args.flatMap fun v => Controller.word "$" ++ Controller.word (toString v.length) ++
          [13, 10] ++ v ++ [13, 10]).length := by
  obtain ⟨r, hr, hval, hlen⟩ := readInt_toString (hcount.trans_lt (by decide)) _ s hs
  obtain ⟨e, he, he1, he2⟩ := readElems_marshal args hsize rest (s.drop r.n)
    (by rw [hlen, hs, List.drop_append]; simp)
  have hbig : ¬ (1024 * 1024 < (args.length : Int)) := by omega
  have hneg : ¬ ((args.length : Int) < 0) := by omega
  rw [readArrayValue, hr]
  simp only [bind, Except.bind, hval, if_neg hbig, if_neg hneg, Int.toNat_natCast, he, pure,
    Except.pure]
  exact ⟨_, rfl, by simp [he1], by simp [hlen, he2]⟩

/-- The round trip: a command as `MarshalRESP` writes it, with at most `1024*1024` values of at
most 512 MiB each, reads back as the array of its values, taking exactly its own bytes, whatever
follows it. -/
theorem ReadMultiBulk_marshalRESP (args : List (List UInt8)) (hcount : args.length ≤ 1024 * 1024)
    (hsize : ∀ v ∈ args, v.length ≤ 512 * 1024 * 1024) (rest s : List UInt8)
    (hs : s = Controller.marshalRESP args ++ rest) :
    ∃ r, ReadMultiBulk s = .ok (r, false) ∧ r.val = .array (args.map .bulk) ∧
      r.n = (Controller.marshalRESP args).length := by
  have h42 : Controller.word "*" = [42] := by decide
  have hs' : s = 42 :: (Controller.word (toString args.length) ++ 13 :: 10 ::
      ((args.flatMap fun v => Controller.word "$" ++ Controller.word (toString v.length) ++
        [13, 10] ++ v ++ [13, 10]) ++ rest)) := by
    simp [hs, Controller.marshalRESP, h42]
  subst hs'
  obtain ⟨r, hr, hval, hlen⟩ := readArrayValue_marshal args hcount hsize rest _ rfl
  refine ⟨r.cons 42, ?_, hval, ?_⟩
  · rw [ReadMultiBulk, readValue]
    simp only [hr]
    rfl
  · simp [Read.cons, hlen, Controller.marshalRESP, h42]
    omega

end Resp
