import Tile38.Geo.Json
import Mathlib.Data.Bool.AllAny

/-!
# The raw `id` and `properties` of a feature (feature.go, object.go)

A feature keeps the texts of its `id` and `properties` members packed in one byte string,
`idprops`: `makeCompositeRaw` strips the whitespace from both and puts the length of the id in
front, in one byte up to 254 and as `0xFF` and eight little-endian bytes above; `getRaw` takes
them apart. Unpacking gives back both stripped texts for ids of every length, the two headers
meeting between 254 and 255 (`getRaw_makeCompositeRaw`).

`stripWhitespace` drops the bytes up to `' '` outside string literals, where a string ends at a
quote after an even run of backslashes. A JSON text is its tokens with whitespace between
them; a string token is a quoted body of plain bytes and escapes, any other token holds neither
a quote nor a byte up to `' '`. Stripping such a text leaves exactly its tokens
(`stripWhitespace_tokens`): string literals pass whole, escaped quotes and runs of backslashes
included.
-/

namespace Geojson

open Glob

/-! ### JSON texts as tokens -/

/-- A piece of the body of a string literal: a byte that is neither a quote nor a backslash, or
a backslash and the byte it escapes. -/
inductive StrPiece where
  | char (c : UInt8) (hq : c ≠ ch '"') (hb : c ≠ ch '\\')
  | escape (c : UInt8)

def StrPiece.text : StrPiece → List UInt8
  | .char c _ _ => [c]
  | .escape c => [ch '\\', c]

/-- A token of a JSON text: a string literal, or a number, a literal name or a punctuation
mark, which hold no quote and no byte up to `' '`. -/
inductive Token where
  | str (body : List StrPiece)
  | lexeme (bytes : List UInt8) (h : ∀ c ∈ bytes, ch ' ' < c ∧ c ≠ ch '"')

def Token.text : Token → List UInt8
  | .str body => ch '"' :: (body.flatMap StrPiece.text ++ [ch '"'])
  | .lexeme bytes _ => bytes

/-- Whitespace as `stripWhitespace` reads it: bytes up to `' '`. -/
def IsBlank (w : List UInt8) : Prop := ∀ c ∈ w, c ≤ ch ' '

instance (w : List UInt8) : Decidable (IsBlank w) :=
  List.decidableBAll _ w

/-- A JSON text: each token after the whitespace before it, then whitespace at the end. -/
def layout (ts : List (List UInt8 × Token)) (wEnd : List UInt8) : List UInt8 :=
  (ts.flatMap fun p => p.1 ++ p.2.text) ++ wEnd

/-! ### Stripping a JSON text -/

theorem loop_blank {w : List UInt8} (hw : IsBlank w) (rest : List UInt8) :
    stripWhitespaceLoop false 0 (w ++ rest) = stripWhitespaceLoop false 0 rest := by
  induction w with
  | nil => rfl
  | cons c w ih =>
    have hc : c ≤ ch ' ' := hw c (by simp)
    have hq : c ≠ ch '"' := by
      rintro rfl
      exact absurd hc (by decide)
    rw [List.cons_append, stripWhitespaceLoop]
    simp only [Bool.false_eq_true, if_false, if_neg hq, if_pos hc]
    exact ih fun d hd => hw d (by simp [hd])

theorem loop_lexeme {bytes : List UInt8} (h : ∀ c ∈ bytes, ch ' ' < c ∧ c ≠ ch '"')
    (rest : List UInt8) :
    stripWhitespaceLoop false 0 (bytes ++ rest) = bytes ++ stripWhitespaceLoop false 0 rest := by
  induction bytes with
  | nil => rfl
  | cons c bytes ih =>
    obtain ⟨hc, hq⟩ := h c (by simp)
    rw [List.cons_append, stripWhitespaceLoop]
    simp only [Bool.false_eq_true, if_false, if_neg hq, if_neg (UInt8.not_le.mpr hc)]
    rw [ih fun d hd => h d (by simp [hd]), List.cons_append]

/-- Inside a string, after an even run of backslashes, the body passes whole and the closing
quote ends the string: a backslash makes the run odd, and the byte it escapes either ends the
run or, being a backslash, makes it even again. -/
theorem loop_body (body : List StrPiece) {escs : Nat} (he : escs % 2 = 0) (rest : List UInt8) :
    stripWhitespaceLoop true escs (body.flatMap StrPiece.text ++ ch '"' :: rest) =
      body.flatMap StrPiece.text ++ ch '"' :: stripWhitespaceLoop false 0 rest := by
  induction body generalizing escs with
  | nil =>
    simp +decide [stripWhitespaceLoop, he]
  | cons p body ih =>
    cases p with
    | char c hq hb =>
      simp only [List.flatMap_cons, StrPiece.text, List.cons_append, List.nil_append]
      rw [stripWhitespaceLoop]
      simp only [if_true, if_neg hb, hq, false_and, if_false]
      rw [ih (by decide)]
    | escape c =>
      simp only [List.flatMap_cons, StrPiece.text, List.cons_append, List.nil_append]
      rw [stripWhitespaceLoop]
      simp only [if_true]
      rw [stripWhitespaceLoop]
      by_cases hb : c = ch '\\'
      · simp only [if_true, if_pos hb]
        rw [ih (by omega)]
      · have hodd : ¬(c = ch '"' ∧ (escs + 1) % 2 = 0) := fun h => by omega
        simp only [if_true, if_neg hb, if_neg hodd]
        rw [ih (by decide)]

theorem loop_token (t : Token) (rest : List UInt8) :
    stripWhitespaceLoop false 0 (t.text ++ rest) = t.text ++ stripWhitespaceLoop false 0 rest := by
  cases t with
  | str body =>
    simp only [Token.text, List.cons_append, List.append_assoc, List.nil_append]
    rw [stripWhitespaceLoop, if_neg Bool.false_ne_true, if_pos rfl, loop_body body (by decide)]
  | lexeme bytes h => exact loop_lexeme h rest

/-- Stripping a JSON text leaves its tokens, and only its tokens. -/
theorem stripWhitespace_tokens (ts : List (List UInt8 × Token)) (wEnd : List UInt8)
    (hws : ∀ p ∈ ts, IsBlank p.1) (hend : IsBlank wEnd) :
    stripWhitespace (layout ts wEnd) = ts.flatMap fun p => p.2.text := by
  induction ts with
  | nil =>
    rw [stripWhitespace, layout, List.flatMap_nil, List.nil_append, ← List.append_nil wEnd,
      loop_blank hend]
    rfl
  | cons p ts ih =>
    have hrest : layout (p :: ts) wEnd = p.1 ++ (p.2.text ++ layout ts wEnd) := by
      simp [layout]
    rw [stripWhitespace, hrest, loop_blank (hws p (by simp)), loop_token, List.flatMap_cons]
    rw [stripWhitespace] at ih
    rw [ih fun q hq => hws q (by simp [hq])]


/-- The text `[` LF `"a\" \\"` `,` TAB `true ]` LF: an array of a string holding an escaped
quote, a space and an escaped backslash, and `true`. -/
def escapedArray : List (List UInt8 × Token) :=
  [([], .lexeme [ch '['] (List.all_iff_forall_prop.mp (by decide))),
    ([ch '\n'], .str [.char (ch 'a') (by decide) (by decide), .escape (ch '"'),
      .char (ch ' ') (by decide) (by decide), .escape (ch '\\')]),
    ([], .lexeme [ch ','] (List.all_iff_forall_prop.mp (by decide))),
    ([ch '\t'], .lexeme (ascii "true") (List.all_iff_forall_prop.mp (by decide))),
    ([ch ' '], .lexeme [ch ']'] (List.all_iff_forall_prop.mp (by decide)))]

theorem stripWhitespace_tokens_escapedArray :
    stripWhitespace (layout escapedArray [ch '\n']) = escapedArray.flatMap fun p => p.2.text :=
  stripWhitespace_tokens _ _ (by decide) (by decide)

example : stripWhitespace (layout escapedArray [ch '\n']) =
    ascii "[\"a\\\" \\\\\",true]" := by
  decide

/-! ### Packing the id and the properties -/

theorem length_stripWhitespaceLoop_le (str : Bool) (escs : Nat) (s : List UInt8) :
    (stripWhitespaceLoop str escs s).length ≤ s.length := by
  fun_induction stripWhitespaceLoop str escs s <;> (try simp only [List.length_cons]) <;> omega

theorem length_putUint64 (n : Nat) : (putUint64 n).length = 8 := by
  simp [putUint64]

theorem uint64_putUint64 {n : Nat} (h : n < 2 ^ 64) : uint64 (putUint64 n) = n := by
  simp [uint64, putUint64, List.range_succ]
  omega

theorem getRaw_long {id : List UInt8} (props : List UInt8) (hid : id.length < 2 ^ 64) :
    getRaw (0xFF :: putUint64 id.length ++ id ++ props) = (id, props) := by
  have hcons : ((0xFF : UInt8) :: putUint64 id.length ++ id ++ props) =
      255 :: (putUint64 id.length ++ (id ++ props)) := by
    simp
  have h8 : (putUint64 id.length ++ (id ++ props)).take 8 = putUint64 id.length :=
    List.take_left' (length_putUint64 _)
  rw [hcons]
  simp only [getRaw, if_true, h8, uint64_putUint64 hid]
  simp [List.take_append, List.drop_append, length_putUint64]

theorem getRaw_short {id : List UInt8} (props : List UInt8) (hshort : id.length ≤ 254) :
    getRaw (id.length.toUInt8 :: id ++ props) = (id, props) := by
  have hbyte : id.length.toUInt8.toNat = id.length := by
    simp
    omega
  have hne : id.length.toUInt8 ≠ 255 := by
    intro h
    have := congrArg UInt8.toNat h
    rw [hbyte] at this
    simp at this
    omega
  rw [List.cons_append]
  simp only [getRaw, if_neg hne, hbyte]
  simp

/-- Unpacking the id and the properties gives back both texts without their whitespace, for
ids of every length: the one-byte header up to 254, `0xFF` and eight bytes from 255 on. -/
theorem getRaw_makeCompositeRaw (idRaw propsRaw : List UInt8) (hlen : idRaw.length < 2 ^ 64) :
    getRaw (makeCompositeRaw idRaw propsRaw) = (stripWhitespace idRaw, stripWhitespace propsRaw) := by
  have hid : (stripWhitespace idRaw).length < 2 ^ 64 :=
    Nat.lt_of_le_of_lt (length_stripWhitespaceLoop_le _ _ _) hlen
  unfold makeCompositeRaw
  dsimp only
  split_ifs with hempty hlong
  · rw [List.length_eq_zero_iff.mp hempty.1, List.length_eq_zero_iff.mp hempty.2]
    rfl
  · exact getRaw_long _ hid
  · exact getRaw_short _ (by omega)

/-- Ids of 254 and 255 digits, on either side of the change of header. -/
theorem getRaw_makeCompositeRaw_boundary :
    getRaw (makeCompositeRaw (List.replicate 254 (ch '1')) (ascii "null")) =
        (stripWhitespace (List.replicate 254 (ch '1')), stripWhitespace (ascii "null")) ∧
      getRaw (makeCompositeRaw (List.replicate 255 (ch '1')) (ascii "null")) =
        (stripWhitespace (List.replicate 255 (ch '1')), stripWhitespace (ascii "null")) :=
  ⟨getRaw_makeCompositeRaw _ _ (by rw [List.length_replicate]; decide),
    getRaw_makeCompositeRaw _ _ (by rw [List.length_replicate]; decide)⟩

end Geojson
