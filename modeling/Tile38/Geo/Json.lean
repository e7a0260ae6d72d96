import Mathlib.Algebra.Order.Ring.Rat
import Tile38.Geo.Object
import Tile38.Glob.Match

/-!
# GeoJSON text: `ObjectJSON` and `JSON()` (pkg/geojson)

The reader `ObjectJSON` and the printers `appendJSON` of the nine GeoJSON types. The reader
looks at its input through `gjson`; the model starts from the JSON value `gjson` sees (`Json`),
with each member as `gjson.Get` returns it and each number as `Float()` reads it, and each
printer builds the value that the text it writes reads back as. The text level itself is left
out: that a printed number reads back as the same number (`strconv.AppendFloat(…, 'f', -1, 64)`
then `ParseFloat`) is taken for granted. The raw texts a feature keeps of its `id` and
`properties` members are the exception: the reader hands them over as text, so `JsonText` names
the text of a member (`Raw`) and the value a spliced text reads back as (`Parse`).

Coordinates nest one to four arrays deep. The four `fillLevelNMap`, `appendLevelNJSON` and
`levelNIsCoordZDefined` of `levels.go` differ only in the depth and are one definition each over
`Coords α n`, the positions nested `n` arrays deep.

Printing and reading disagree on the `bbox` member. `fillBBox` reads four values as a box with
both `Z` zero, and `isCordZDefined` asks for either `Z` to be nonzero, but `appendBBoxJSON`
prints six values only when both are nonzero: a box with one nonzero `Z` prints as four values
and reads back with both `Z` zero (`BBox.printed`).
-/

namespace Geojson

open Glob

universe u
variable {α : Type u}

/-- A JSON value as `gjson` hands it over: the kind of a `Result` and what it holds. -/
inductive Json (α : Type u) where
  | null
  | bool (b : Bool)
  | num (x : α)
  | str (s : List UInt8)
  | arr (vs : List (Json α))
  | obj (members : List (List UInt8 × Json α))

namespace Json

/-- `gjson.Get(json, key)` when the member exists: the first member of that name of an
object. -/
def find? (json : Json α) (key : List UInt8) : Option (Json α) :=
  match json with
  | obj members => (members.find? (·.1 == key)).map Prod.snd
  | _ => none

/-- `gjson.Get(json, key)`: a missing member reads as `null`. -/
def get (json : Json α) (key : List UInt8) : Json α :=
  (json.find? key).getD null

/-- `Type == gjson.JSON`: an array or an object. -/
def isJSON : Json α → Bool
  | arr _ | obj _ => true
  | _ => false

/-- `Type == gjson.Number`. -/
def isNumber : Json α → Bool
  | num _ => true
  | _ => false

/-- `Array()`: the elements of an array, none of an object or of `null`, and any other value
as the one element. -/
def Array : Json α → List (Json α)
  | arr vs => vs
  | obj _ | null => []
  | j => [j]

/-- `Float()` of a number. -/
def Float [Zero α] : Json α → α
  | num x => x
  | _ => 0

end Json

def resIsArray : Json α → Bool
  | .arr _ => true
  | _ => false

/-- The json errors of `object.go`, and the fill errors, that `ObjectJSON` returns. -/
inductive JsonError where
  | errInvalidTypeMember
  | errInvalidCoordinates
  | errCoordinatesRequired
  | errInvalidGeometries
  | errGeometriesRequired
  | errInvalidGeometryMember
  | errGeometryMemberRequired
  | errInvalidFeaturesMember
  | errFeaturesMemberRequired
  | errInvalidFeature
  | errInvalidPropertiesMember
  | errInvalidNumberOfPositionValues
  | errInvalidPositionValue
  | errBBoxInvalidType
  | errBBoxInvalidNumberOfValues
  | errBBoxInvalidValue
  | errInvalidGeometry
  | errTypeIsUnknown (typ : List UInt8)
  | fill (e : GeoError)
  deriving DecidableEq, Repr

/-- The texts of the errors; `fmtErrTypeIsUnknown` quotes the type. -/
def JsonError.Error : JsonError → List UInt8
  | .errInvalidTypeMember => ascii "Type member is invalid. Expecting a string"
  | .errInvalidCoordinates => ascii "Coordinates member is invalid. Expecting an array"
  | .errCoordinatesRequired => ascii "Coordinates member is required"
  | .errInvalidGeometries => ascii "Geometries member is invalid. Expecting an array"
  | .errGeometriesRequired => ascii "Geometries member is required"
  | .errInvalidGeometryMember => ascii "Geometry member is invalid. Expecting an object"
  | .errGeometryMemberRequired => ascii "Geometry member is required"
  | .errInvalidFeaturesMember => ascii "Features member is invalid. Expecting an array"
  | .errFeaturesMemberRequired => ascii "Features member is required"
  | .errInvalidFeature => ascii "Invalid feature in collection"
  | .errInvalidPropertiesMember => ascii "Properties member in invalid. Expecting an array"
  | .errInvalidNumberOfPositionValues => ascii "Position must have two or more numbers"
  | .errInvalidPositionValue => ascii "Position has an invalid value"
  | .errBBoxInvalidType => ascii "BBox member is an invalid. Expecting an array"
  | .errBBoxInvalidNumberOfValues => ascii "BBox member requires exactly 4 or 6 values"
  | .errBBoxInvalidValue => ascii "BBox has an invalid value"
  | .errInvalidGeometry => ascii "Invalid geometry in collection"
  | .errTypeIsUnknown typ => ascii "The type '" ++ typ ++ ascii "' is unknown"
  | .fill e => ascii e.Error

/-- Positions nested `n` arrays deep: the coordinates of level `n + 1` of `levels.go`. -/
def Coords (α : Type u) : Nat → Type u
  | 0 => Position α
  | n + 1 => List (Coords α n)

/-! ### Reading -/

section Read

variable [Zero α]

/-- `fillPosition(coords)`: two or more numbers, the third read as `Z` when there is one. -/
def fillPosition (coords : Json α) : Except JsonError (Position α) :=
  let v := coords.Array
  match v with
  | [] => .error .errInvalidNumberOfPositionValues
  | [v0] =>
    if v0.isNumber then .error .errInvalidNumberOfPositionValues
    else .error .errInvalidPositionValue
  | _ =>
    if v.all Json.isNumber then
      .ok ⟨(v.getD 0 .null).Float, (v.getD 1 .null).Float,
        if 2 < v.length then (v.getD 2 .null).Float else 0⟩
    else .error .errInvalidPositionValue

/-- `fillBBox(json)`: no `bbox` member, or an array of four or six numbers; four values leave
both `Z` at `nilz`. -/
def fillBBox (json : Json α) : Except JsonError (Option (BBox α)) :=
  let res := json.get (ascii "bbox")
  match res with
  | .null => .ok none
  | .arr _ | .obj _ =>
    let v := res.Array
    if ¬(v.length = 4 ∨ v.length = 6) then .error .errBBoxInvalidNumberOfValues
    else if !v.all Json.isNumber then .error .errBBoxInvalidValue
    else
      let f (i : Nat) : α := (v.getD i .null).Float
      if v.length = 6 then .ok (some ⟨⟨f 0, f 1, f 2⟩, ⟨f 3, f 4, f 5⟩⟩)
      else .ok (some ⟨⟨f 0, f 1, 0⟩, ⟨f 2, f 3, 0⟩⟩)
  | _ => .error .errBBoxInvalidType

/-- The coordinates of level `n + 1`: each nesting an array, the innermost read by
`fillPosition`, the first error stopping the loops. -/
def fillCoords : (n : Nat) → Json α → Except JsonError (Coords α n)
  | 0, coords => if resIsArray coords then fillPosition coords else .error .errInvalidCoordinates
  | n + 1, coords =>
    if resIsArray coords then coords.Array.mapM (fillCoords n)
    else .error .errInvalidCoordinates

/-- `fillLevelNMap(json)` for level `n + 1`: the `coordinates` member, then the `bbox`. A value
that is not an array is `errInvalidCoordinates`, a missing one `errCoordinatesRequired`. -/
def fillLevelMap (n : Nat) (json : Json α) : Except JsonError (Coords α n × Option (BBox α)) :=
  match json.get (ascii "coordinates") with
  | .null => .error .errCoordinatesRequired
  | coords => do
    let coordinates ← fillCoords n coords
    let bbox ← fillBBox json
    pure (coordinates, bbox)

def fillLevel1Map (json : Json α) : Except JsonError (Position α × Option (BBox α)) :=
  fillLevelMap 0 json

def fillLevel2Map (json : Json α) : Except JsonError (List (Position α) × Option (BBox α)) :=
  fillLevelMap 1 json

def fillLevel3Map (json : Json α) :
    Except JsonError (List (List (Position α)) × Option (BBox α)) :=
  fillLevelMap 2 json

def fillLevel4Map (json : Json α) :
    Except JsonError (List (List (List (Position α))) × Option (BBox α)) :=
  fillLevelMap 3 json

end Read

/-! ### Printing -/

section Print

variable [Zero α] [DecidableEq α]

/-- `appendPositionJSON(p, isCordZ)`: `X`, `Y`, and `Z` when asked for. -/
def appendPositionJSON (p : Position α) (isCordZ : Bool) : List (Json α) :=
  [.num p.X, .num p.Y] ++ if isCordZ then [.num p.Z] else []

/-- `isCordZDefined()` of a bbox pointer: either `Z` nonzero. -/
def isCordZDefined : Option (BBox α) → Bool
  | none => false
  | some b => b.Min.Z ≠ 0 ∨ b.Max.Z ≠ 0

/-- `appendBBoxJSON(b)`: the `bbox` member, with six values only when both `Z` are nonzero. -/
def appendBBoxJSON : Option (BBox α) → List (List UInt8 × Json α)
  | none => []
  | some b =>
    let hasZ := decide (b.Min.Z ≠ 0 ∧ b.Max.Z ≠ 0)
    [(ascii "bbox", .arr (appendPositionJSON b.Min hasZ ++ appendPositionJSON b.Max hasZ))]

/-- Whether a position of the coordinates has a nonzero `Z`. -/
def coordsZDefined : (n : Nat) → Coords α n → Bool
  | 0, p => p.Z ≠ 0
  | n + 1, ps => ps.any (coordsZDefined n)

/-- `levelNIsCoordZDefined(coordinates, bbox)`. -/
def levelIsCoordZDefined (n : Nat) (coordinates : Coords α n) (bbox : Option (BBox α)) : Bool :=
  isCordZDefined bbox || coordsZDefined n coordinates

/-- The coordinates of level `n + 1` as printed, each position with `Z` or all without. -/
def appendCoords : (n : Nat) → Bool → Coords α n → Json α
  | 0, isCordZ, p => .arr (appendPositionJSON p isCordZ)
  | n + 1, isCordZ, ps => .arr (ps.map (appendCoords n isCordZ))

/-- `appendLevelNJSON(name, coordinates, bbox, bboxDefined)` for level `n + 1`: a calculated box
is not printed and does not decide whether the positions carry `Z`. -/
def appendLevelJSON (n : Nat) (name : List UInt8) (coordinates : Coords α n)
    (bbox : Option (BBox α)) (bboxDefined : Bool) : Json α :=
  let bbox := if bboxDefined then bbox else none
  let isCordZ := levelIsCoordZDefined n coordinates bbox
  .obj ([(ascii "type", .str name), (ascii "coordinates", appendCoords n isCordZ coordinates)] ++
    if bboxDefined then appendBBoxJSON bbox else [])

/-- `appendLevel1JSON`. -/
def appendLevel1JSON (name : List UInt8) (coordinates : Position α) (bbox : Option (BBox α))
    (bboxDefined : Bool) : Json α :=
  appendLevelJSON 0 name coordinates bbox bboxDefined

/-- `appendLevel2JSON`. -/
def appendLevel2JSON (name : List UInt8) (coordinates : List (Position α))
    (bbox : Option (BBox α)) (bboxDefined : Bool) : Json α :=
  appendLevelJSON 1 name coordinates bbox bboxDefined

/-- `appendLevel3JSON`. -/
def appendLevel3JSON (name : List UInt8) (coordinates : List (List (Position α)))
    (bbox : Option (BBox α)) (bboxDefined : Bool) : Json α :=
  appendLevelJSON 2 name coordinates bbox bboxDefined

/-- `appendLevel4JSON`. -/
def appendLevel4JSON (name : List UInt8) (coordinates : List (List (List (Position α))))
    (bbox : Option (BBox α)) (bboxDefined : Bool) : Json α :=
  appendLevelJSON 3 name coordinates bbox bboxDefined

end Print

/-! ### The raw `id` and `properties` of a feature -/

/-- The text level the value model leaves out, where a feature needs it: `Raw` is the text
`gjson` hands over for a member value (`Result.Raw`), `Parse` the value a text spliced into the
output reads back as. -/
structure JsonText (α : Type u) where
  Raw : Json α → List UInt8
  Parse : List UInt8 → Json α

/-- The loop of `stripWhitespace`: inside a string (`str`) every byte is kept and `escs` counts
the backslashes just before; outside, bytes up to `' '` are dropped. -/
def stripWhitespaceLoop : Bool → Nat → List UInt8 → List UInt8
  | _, _, [] => []
  | str, escs, c :: s =>
    if str then
      if c = ch '\\' then c :: stripWhitespaceLoop true (escs + 1) s
      else if c = ch '"' ∧ escs % 2 = 0 then c :: stripWhitespaceLoop false 0 s
      else c :: stripWhitespaceLoop true 0 s
    else if c = ch '"' then c :: stripWhitespaceLoop true escs s
    else if c ≤ ch ' ' then stripWhitespaceLoop false escs s
    else c :: stripWhitespaceLoop false escs s

def stripWhitespace (s : List UInt8) : List UInt8 :=
  stripWhitespaceLoop false 0 s

/-- `binary.LittleEndian.PutUint64` of `uint64(n)`. -/
def putUint64 (n : Nat) : List UInt8 :=
  (List.range 8).map fun i => (n / 256 ^ i % 256).toUInt8

/-- `binary.LittleEndian.Uint64` of eight bytes. -/
def uint64 (b : List UInt8) : Nat :=
  b.foldr (fun x acc => x.toNat + 256 * acc) 0

/-- `makeCompositeRaw(idRaw, propsRaw)`: both texts without whitespace, after the length of the
id in one byte, or in `0xFF` and eight bytes when it is longer than 254. -/
def makeCompositeRaw (idRaw propsRaw : List UInt8) : List UInt8 :=
  let idRaw := stripWhitespace idRaw
  let propsRaw := stripWhitespace propsRaw
  if idRaw.length = 0 ∧ propsRaw.length = 0 then []
  else if 0xFF - 1 < idRaw.length then 0xFF :: putUint64 idRaw.length ++ idRaw ++ propsRaw
  else idRaw.length.toUInt8 :: idRaw ++ propsRaw

/-- `getRaw()`: the id and properties texts packed in `idprops`. -/
def getRaw (idprops : List UInt8) : List UInt8 × List UInt8 :=
  match idprops with
  | [] => ([], [])
  | b :: rest =>
    if b = 255 then
      let lnp := uint64 (rest.take 8) + 9
      ((idprops.take lnp).drop 9, idprops.drop lnp)
    else
      let lnp := b.toNat + 1
      ((idprops.take lnp).drop 1, idprops.drop lnp)

/-- The `properties` and `id` members `Feature.appendJSON` prints from the raw texts, each
unless it is empty. -/
def appendRawJSON (T : JsonText α) (idprops : List UInt8) : List (List UInt8 × Json α) :=
  let (idRaw, propsRaw) := getRaw idprops
  (if propsRaw ≠ [] then [(ascii "properties", T.Parse propsRaw)] else []) ++
    (if idRaw ≠ [] then [(ascii "id", T.Parse idRaw)] else [])

/-! ### `objectMap` -/

/-- The `from` argument of `objectMap`: any type at the root, geometries inside a geometry
collection or a feature, features inside a feature collection. -/
inductive From where
  | root
  | gcoll
  | feat
  | fcoll
  deriving DecidableEq, Repr

/-- The types `gcoll` and `feat` accept. -/
def geometryTypes : List (List UInt8) :=
  [ascii "Point", ascii "MultiPoint", ascii "LineString", ascii "MultiLineString",
    ascii "Polygon", ascii "MultiPolygon", ascii "GeometryCollection"]

/-- The type check at the head of `objectMap`. -/
def From.accepts : From → List UInt8 → Bool
  | root, _ => true
  | gcoll, typ | feat, typ => typ ∈ geometryTypes
  | fcoll, typ => typ = ascii "Feature"

namespace Json

theorem sizeOf_find?_lt {json v : Json α} {key : List UInt8} (h : json.find? key = some v) :
    sizeOf v < sizeOf json := by
  cases json with
  | obj members =>
    obtain ⟨m, hm, rfl⟩ := Option.map_eq_some_iff.mp h
    have hmem := List.mem_of_find?_eq_some hm
    have := List.sizeOf_lt_of_mem hmem
    cases m
    simp only [obj.sizeOf_spec, Prod.mk.sizeOf_spec] at this ⊢
    omega
  | _ => simp [find?] at h

theorem sizeOf_get_lt {json v : Json α} {key : List UInt8} (h : json.get key = v)
    (hv : v ≠ null) : sizeOf v < sizeOf json := by
  cases hf : json.find? key with
  | none => simp [get, hf] at h; exact absurd h.symm hv
  | some w =>
    simp only [get, hf, Option.getD_some] at h
    exact h ▸ sizeOf_find?_lt hf

theorem sizeOf_lt_of_get_arr {json : Json α} {key : List UInt8} {vs : List (Json α)}
    (h : json.get key = arr vs) : sizeOf vs < sizeOf json := by
  have := sizeOf_get_lt h (by simp)
  simp only [arr.sizeOf_spec] at this
  omega

end Json

section ObjectMap

variable [Zero α] [LinearOrder α]

/-- A fill error as an `ObjectJSON` error. -/
def liftFill {β : Type u} : Except GeoError β → Except JsonError β
  | .ok b => .ok b
  | .error e => .error (.fill e)

/-- The `id` and `properties` of a feature as `fillFeatureMap` packs them: only when the id
exists or the properties are an array or an object, which any other value but `null` is an
error. -/
def featureIdprops (T : JsonText α) (json : Json α) : Except JsonError (List UInt8) :=
  let props := json.find? (ascii "properties")
  let propsRaw := (props.map T.Raw).getD []
  let id := json.find? (ascii "id")
  let idRaw := (id.map T.Raw).getD []
  match props.getD .null with
  | .null => .ok (if id.isSome then makeCompositeRaw idRaw propsRaw else [])
  | .arr _ | .obj _ => .ok (makeCompositeRaw idRaw propsRaw)
  | _ => .error .errInvalidPropertiesMember

-- the hypotheses the matches name are used by the termination proofs only
set_option linter.unusedVariables false in
mutual

/-- `objectMap(json, from)`: the `type` member decides the reader, after the check of what
`from` accepts. -/
def objectMap (T : JsonText α) (json : Json α) (src : From) : Except JsonError (Object α) :=
  match json.get (ascii "type") with
  | .str typ =>
    if !src.accepts typ then .error (.errTypeIsUnknown typ)
    else if typ = ascii "Point" then do
      let (c, b) ← fillLevel1Map json
      pure (fillSimplePointOrPoint c b)
    else if typ = ascii "MultiPoint" then do
      let (c, b) ← fillLevel2Map json
      pure (fillMultiPoint c b)
    else if typ = ascii "LineString" then do
      let (c, b) ← fillLevel2Map json
      liftFill (fillLineString c b)
    else if typ = ascii "MultiLineString" then do
      let (c, b) ← fillLevel3Map json
      liftFill (fillMultiLineString c b)
    else if typ = ascii "Polygon" then do
      let (c, b) ← fillLevel3Map json
      liftFill ((fillPolygon c b).map .polygon)
    else if typ = ascii "MultiPolygon" then do
      let (c, b) ← fillLevel4Map json
      liftFill (fillMultiPolygon c b)
    else if typ = ascii "GeometryCollection" then
      -- `fillGeometryCollectionMap`
      match h : json.get (ascii "geometries") with
      | .null => .error .errGeometriesRequired
      | .arr vs => do
        let geometries ← objectMapMembers T vs .errInvalidGeometry .gcoll
        let bbox ← fillBBox json
        pure (fillGeometryCollection geometries bbox)
      | _ => .error .errInvalidGeometries
    else if typ = ascii "Feature" then
      -- `fillFeatureMap`
      match h : json.get (ascii "geometry") with
      | .null => .error .errGeometryMemberRequired
      | v =>
        if hv : v.isJSON then
          match objectMap T v .feat, fillBBox json, featureIdprops T json with
          | .error e, _, _ | .ok _, .error e, _ | .ok _, .ok _, .error e => .error e
          | .ok geometry, .ok bbox, .ok idprops => .ok (fillFeature geometry bbox idprops)
        else .error .errInvalidGeometryMember
    else if typ = ascii "FeatureCollection" then
      -- `fillFeatureCollectionMap`
      match h : json.get (ascii "features") with
      | .null => .error .errFeaturesMemberRequired
      | .arr vs => do
        let features ← objectMapMembers T vs .errInvalidFeature .fcoll
        let bbox ← fillBBox json
        pure (fillFeatureCollection features bbox)
      | _ => .error .errInvalidFeaturesMember
    else .error (.errTypeIsUnknown typ)
  | _ => .error .errInvalidTypeMember
termination_by sizeOf json
decreasing_by
  all_goals first
    | exact Json.sizeOf_lt_of_get_arr h
    | exact Json.sizeOf_get_lt h (by rintro rfl; simp [Json.isJSON] at hv)

/-- The members of a collection in order, each a JSON value read by `objectMap` from `src`;
the first error stops the loop. -/
def objectMapMembers (T : JsonText α) (vs : List (Json α)) (err : JsonError) (src : From) :
    Except JsonError (List (Object α)) :=
  match vs with
  | [] => .ok []
  | res :: rest =>
    if res.isJSON then do
      let o ← objectMap T res src
      let os ← objectMapMembers T rest err src
      pure (o :: os)
    else .error err
termination_by sizeOf vs
decreasing_by
  all_goals simp only [List.cons.sizeOf_spec]; omega

end

def ObjectJSON (T : JsonText α) (json : Json α) : Except JsonError (Object α) :=
  objectMap T json .root

end ObjectMap

/-! ### `appendJSON` -/

section AppendJSON

variable [Zero α] [DecidableEq α]

mutual

/-- `appendJSON()` of each type: the value `JSON()` is the text of. -/
def Object.appendJSON (T : JsonText α) : Object α → Json α
  | .point c b d => appendLevel1JSON (ascii "Point") c b d
  | .simplePoint x y => appendLevel1JSON (ascii "Point") ⟨x, y, 0⟩ none false
  | .multiPoint cs b d => appendLevel2JSON (ascii "MultiPoint") cs b d
  | .lineString cs b d => appendLevel2JSON (ascii "LineString") cs b d
  | .multiLineString css b d => appendLevel3JSON (ascii "MultiLineString") css b d
  | .polygon v => appendLevel3JSON (ascii "Polygon") v.Coordinates v.BBox v.bboxDefined
  | .multiPolygon csss b d _ => appendLevel4JSON (ascii "MultiPolygon") csss b d
  | .geometryCollection gs b d =>
    .obj ([(ascii "type", .str (ascii "GeometryCollection")),
      (ascii "geometries", .arr (Object.appendJSONList T gs))] ++
      if d then appendBBoxJSON b else [])
  | .feature g b d idprops =>
    .obj ([(ascii "type", .str (ascii "Feature")), (ascii "geometry", Object.appendJSON T g)] ++
      (if d then appendBBoxJSON b else []) ++ appendRawJSON T idprops)
  | .featureCollection gs b d =>
    .obj ([(ascii "type", .str (ascii "FeatureCollection")),
      (ascii "features", .arr (Object.appendJSONList T gs))] ++
      if d then appendBBoxJSON b else [])
  | .string s => .str s

/-- The members of a collection, printed in order. -/
def Object.appendJSONList (T : JsonText α) : List (Object α) → List (Json α)
  | [] => []
  | g :: gs => Object.appendJSON T g :: Object.appendJSONList T gs

end

end AppendJSON

/-! ### Reading what was printed -/

namespace Json

theorem find?_obj_cons (k key : List UInt8) (v : Json α) (ms : List (List UInt8 × Json α)) :
    (obj ((k, v) :: ms)).find? key = if k = key then some v else (obj ms).find? key := by
  by_cases h : k = key <;> simp [find?, h]

theorem find?_obj_append {key : List UInt8} :
    ∀ {ms : List (List UInt8 × Json α)} (ns : List (List UInt8 × Json α)),
      (∀ m ∈ ms, m.1 ≠ key) → (obj (ms ++ ns)).find? key = (obj ns).find? key
  | [], _, _ => rfl
  | (k, v) :: ms, ns, hms => by
    have hk : k ≠ key := hms (k, v) List.mem_cons_self
    rw [List.cons_append, find?_obj_cons, if_neg hk]
    exact find?_obj_append ns fun m hm => hms m (List.mem_cons_of_mem _ hm)

end Json

section ReadBack

variable [Zero α] [DecidableEq α]

/-- The box a printed `bbox` member reads back as: itself when both `Z` are nonzero, with both
`Z` zero otherwise. -/
def BBox.printed (b : BBox α) : BBox α :=
  if b.Min.Z ≠ 0 ∧ b.Max.Z ≠ 0 then b else ⟨⟨b.Min.X, b.Min.Y, 0⟩, ⟨b.Max.X, b.Max.Y, 0⟩⟩

/-- The `bbox` an object's printed text reads back as: a defined box as printed, nothing for a
calculated one. -/
def printedBBox (bbox : Option (BBox α)) (bboxDefined : Bool) : Option (BBox α) :=
  if bboxDefined then bbox.map BBox.printed else none

/-- A box prints as itself exactly when its two `Z` are both zero or both nonzero. -/
theorem BBox.printed_eq_self_iff (b : BBox α) :
    b.printed = b ↔ (b.Min.Z = 0 ↔ b.Max.Z = 0) := by
  obtain ⟨⟨x1, y1, z1⟩, ⟨x2, y2, z2⟩⟩ := b
  by_cases h1 : z1 = 0 <;> by_cases h2 : z2 = 0 <;> simp [BBox.printed, h1, h2, eq_comm]

@[simp] theorem BBox.printed_printed (b : BBox α) : b.printed.printed = b.printed := by
  by_cases h : b.Min.Z ≠ 0 ∧ b.Max.Z ≠ 0 <;> simp [BBox.printed, h]

theorem fillPosition_appendPositionJSON (p : Position α) {isCordZ : Bool}
    (hz : p.Z ≠ 0 → isCordZ = true) :
    fillPosition (.arr (appendPositionJSON p isCordZ)) = .ok p := by
  obtain ⟨x, y, z⟩ := p
  cases isCordZ with
  | true => simp [fillPosition, appendPositionJSON, Json.Array, Json.isNumber, Json.Float]
  | false =>
    have hz0 : z = 0 := by by_contra h; simpa using hz h
    simp [fillPosition, appendPositionJSON, Json.Array, Json.isNumber, Json.Float, hz0]

/-- The `bbox` member, printed after members of other names, reads back as the box as
printed. -/
theorem fillBBox_printed {ms ns : List (List UInt8 × Json α)}
    (hms : ∀ m ∈ ms, m.1 ≠ ascii "bbox") (hns : ∀ m ∈ ns, m.1 ≠ ascii "bbox")
    (b : Option (BBox α)) (d : Bool) :
    fillBBox (.obj (ms ++ (if d then appendBBoxJSON b else []) ++ ns)) =
      .ok (printedBBox b d) := by
  have hnone : (Json.obj ns).find? (ascii "bbox") = none := by
    rw [← List.append_nil ns]
    exact Json.find?_obj_append [] hns
  rw [fillBBox, Json.get, List.append_assoc, Json.find?_obj_append _ hms]
  cases d with
  | false => simp [hnone, printedBBox]
  | true =>
    cases b with
    | none => simp [hnone, printedBBox, appendBBoxJSON]
    | some b =>
      obtain ⟨⟨x1, y1, z1⟩, ⟨x2, y2, z2⟩⟩ := b
      by_cases hz : z1 ≠ 0 ∧ z2 ≠ 0 <;>
        simp [hz, appendBBoxJSON, Json.find?_obj_cons, appendPositionJSON, Json.Array,
          Json.isNumber, Json.Float, BBox.printed, printedBBox]

theorem mapM_map_of_read {β : Type _} {γ : Type _} {ε : Type _} {f : γ → Except ε β} {g : β → γ} :
    ∀ {l : List β}, (∀ x ∈ l, f (g x) = .ok x) → (l.map g).mapM f = .ok l
  | [], _ => rfl
  | x :: l, h => by
    rw [List.map_cons, List.mapM_cons, h x List.mem_cons_self,
      mapM_map_of_read fun y hy => h y (List.mem_cons_of_mem _ hy)]
    rfl

/-- Coordinates printed with `Z`, or without a `Z` they do not have, read back as
themselves. -/
theorem fillCoords_appendCoords :
    ∀ (n : Nat) (c : Coords α n) {isCordZ : Bool}, (coordsZDefined n c = true → isCordZ = true) →
      fillCoords n (appendCoords n isCordZ c) = .ok c
  | 0, p, _, hz => by
    simp only [fillCoords, appendCoords, resIsArray, ↓reduceIte]
    exact fillPosition_appendPositionJSON p fun h => hz (by simpa [coordsZDefined] using h)
  | n + 1, ps, _, hz => by
    simp only [fillCoords, appendCoords, resIsArray, ↓reduceIte, Json.Array]
    refine @mapM_map_of_read _ _ _ (fillCoords n) (appendCoords n _) ps fun c hc => fillCoords_appendCoords n c fun h => hz ?_
    rw [coordsZDefined]
    exact List.any_eq_true.mpr ⟨c, hc, h⟩

/-- A level printed as `appendLevelNJSON` prints it reads back as its coordinates and its box as
printed. -/
theorem fillLevelMap_appendLevelJSON (n : Nat) (name : List UInt8) (c : Coords α n)
    (b : Option (BBox α)) (d : Bool) :
    fillLevelMap n (appendLevelJSON n name c b d) = .ok (c, printedBBox b d) := by
  obtain ⟨vs, hvs⟩ : ∃ vs, appendCoords n (levelIsCoordZDefined n c (if d then b else none)) c =
      .arr vs := by
    cases n <;> exact ⟨_, rfl⟩
  have hcoords : (appendLevelJSON n name c b d).get (ascii "coordinates") = .arr vs := by
    simp +decide [appendLevelJSON, Json.get, Json.find?_obj_cons, hvs]
  have hbbox : fillBBox (appendLevelJSON n name c b d) = .ok (printedBBox b d) := by
    have hd : (if d then appendBBoxJSON (if d then b else none) else []) =
        (if d then appendBBoxJSON b else []) ++ [] := by
      cases d <;> simp
    rw [appendLevelJSON, hd, ← List.append_assoc, fillBBox_printed (by simp +decide) (by simp)]
  have hread : fillCoords n (.arr vs) = .ok c := by
    rw [← hvs]
    exact fillCoords_appendCoords n c fun h => by simp [levelIsCoordZDefined, h]
  simp only [fillLevelMap, hcoords, hread, hbbox, bind, Except.bind, pure, Except.pure]

end ReadBack

/-! ### What `objectMap` reads -/

section Readable

variable [Zero α] [LinearOrder α]

mutual

/-- What an object `objectMap` reads from `src` satisfies: `src` accepts its type, the checks
of its fill function passed, and each member was read as its collection reads members. -/
def Object.Readable (src : From) : Object α → Prop
  | .point .. | .simplePoint .. => src.accepts (ascii "Point")
  | .multiPoint .. => src.accepts (ascii "MultiPoint")
  | .lineString cs _ _ => src.accepts (ascii "LineString") ∧ 2 ≤ cs.length
  | .multiLineString css _ _ => src.accepts (ascii "MultiLineString") ∧ ∀ ls ∈ css, 2 ≤ ls.length
  | .polygon v =>
    src.accepts (ascii "Polygon") ∧ v.Coordinates ≠ [] ∧ ∀ ps ∈ v.Coordinates, isLinearRing ps
  | .multiPolygon csss _ _ polygons =>
    src.accepts (ascii "MultiPolygon") ∧ csss.mapM (fun ps => fillPolygon ps none) = .ok polygons
  | .geometryCollection gs _ _ =>
    src.accepts (ascii "GeometryCollection") ∧ Object.ReadableList .gcoll gs
  | .feature g _ _ _ => src.accepts (ascii "Feature") ∧ g.Readable .feat
  | .featureCollection gs _ _ =>
    src.accepts (ascii "FeatureCollection") ∧ Object.ReadableList .fcoll gs
  | .string _ => False

/-- Each member readable from `src`. -/
def Object.ReadableList (src : From) : List (Object α) → Prop
  | [] => True
  | g :: gs => g.Readable src ∧ Object.ReadableList src gs

end

theorem Except.bind_eq_ok {ε β γ : Type _} {x : Except ε β} {f : β → Except ε γ} {c : γ} :
    x >>= f = .ok c ↔ ∃ b, x = .ok b ∧ f b = .ok c := by
  cases x <;> simp [bind, Except.bind]

theorem liftFill_eq_ok {β : Type u} {x : Except GeoError β} {b : β} :
    liftFill x = .ok b ↔ x = .ok b := by
  cases x <;> simp [liftFill]

theorem any_short_eq_true_iff {β : Type u} {css : List (List β)} :
    ¬(css.any fun ls => decide (ls.length < 2)) = true ↔ ∀ ls ∈ css, 2 ≤ ls.length := by
  simp only [List.any_eq_true, decide_eq_true_eq, not_exists, not_and, Nat.not_lt]

section Fill

variable {src : From}

theorem readable_fillSimplePointOrPoint (c : Position α) (b : Option (BBox α))
    (ha : src.accepts (ascii "Point") = true) : (fillSimplePointOrPoint c b).Readable src := by
  unfold fillSimplePointOrPoint fillPoint
  split_ifs <;> exact ha

theorem readable_fillLineString {cs : List (Position α)} {b : Option (BBox α)} {o : Object α}
    (h : fillLineString cs b = .ok o) (ha : src.accepts (ascii "LineString") = true) :
    o.Readable src := by
  unfold fillLineString at h
  split_ifs at h with hlt
  cases h
  exact ⟨ha, by omega⟩

theorem readable_fillMultiLineString {css : List (List (Position α))} {b : Option (BBox α)}
    {o : Object α} (h : fillMultiLineString css b = .ok o)
    (ha : src.accepts (ascii "MultiLineString") = true) : o.Readable src := by
  unfold fillMultiLineString at h
  split_ifs at h with hany
  cases h
  exact ⟨ha, any_short_eq_true_iff.mp hany⟩

theorem readable_fillPolygon {css : List (List (Position α))} {b : Option (BBox α)}
    {q : Polygon α} (h : fillPolygon css b = .ok q) (ha : src.accepts (ascii "Polygon") = true) :
    (Object.polygon q).Readable src := by
  unfold fillPolygon at h
  split_ifs at h with hnil hring
  cases h
  exact ⟨ha, hnil, by simpa using hring⟩

theorem readable_fillMultiPolygon {csss : List (List (List (Position α)))} {b : Option (BBox α)}
    {o : Object α} (h : fillMultiPolygon csss b = .ok o)
    (ha : src.accepts (ascii "MultiPolygon") = true) : o.Readable src := by
  unfold fillMultiPolygon at h
  split at h
  · cases h
  · next polygons hpolygons =>
    cases h
    exact ⟨ha, hpolygons⟩

end Fill

mutual

/-- Whatever `objectMap` reads is readable: the inversion of the reader, one case per
type. -/
theorem objectMap_readable (T : JsonText α) {json : Json α} {src : From} {o : Object α}
    (h : objectMap T json src = .ok o) : o.Readable src := by
  rw [objectMap] at h
  split at h
  next typ htyp =>
    by_cases ha : src.accepts typ = true
    case neg => rw [if_pos (by simpa using ha)] at h; cases h
    rw [if_neg (by simpa using ha)] at h
    by_cases hP : typ = ascii "Point"
    · rw [if_pos hP] at h
      obtain ⟨⟨c, b⟩, -, h⟩ := Except.bind_eq_ok.mp h
      cases h
      exact readable_fillSimplePointOrPoint c b (hP ▸ ha)
    rw [if_neg hP] at h
    by_cases hMP : typ = ascii "MultiPoint"
    · rw [if_pos hMP] at h
      obtain ⟨⟨c, b⟩, -, h⟩ := Except.bind_eq_ok.mp h
      cases h
      simp only [fillMultiPoint, Object.Readable]
      exact hMP ▸ ha
    rw [if_neg hMP] at h
    by_cases hLS : typ = ascii "LineString"
    · rw [if_pos hLS] at h
      obtain ⟨⟨c, b⟩, -, h⟩ := Except.bind_eq_ok.mp h
      exact readable_fillLineString (liftFill_eq_ok.mp h) (hLS ▸ ha)
    rw [if_neg hLS] at h
    by_cases hMLS : typ = ascii "MultiLineString"
    · rw [if_pos hMLS] at h
      obtain ⟨⟨c, b⟩, -, h⟩ := Except.bind_eq_ok.mp h
      exact readable_fillMultiLineString (liftFill_eq_ok.mp h) (hMLS ▸ ha)
    rw [if_neg hMLS] at h
    by_cases hPg : typ = ascii "Polygon"
    · rw [if_pos hPg] at h
      obtain ⟨⟨c, b⟩, -, h⟩ := Except.bind_eq_ok.mp h
      cases hq : fillPolygon c b with
      | error e => simp [hq, liftFill, Except.map] at h
      | ok q =>
        simp only [hq, liftFill, Except.map, Except.ok.injEq] at h
        exact h ▸ readable_fillPolygon hq (hPg ▸ ha)
    rw [if_neg hPg] at h
    by_cases hMPg : typ = ascii "MultiPolygon"
    · rw [if_pos hMPg] at h
      obtain ⟨⟨c, b⟩, -, h⟩ := Except.bind_eq_ok.mp h
      exact readable_fillMultiPolygon (liftFill_eq_ok.mp h) (hMPg ▸ ha)
    rw [if_neg hMPg] at h
    by_cases hGC : typ = ascii "GeometryCollection"
    · rw [if_pos hGC] at h
      split at h
      · cases h
      · next vs hvs =>
        obtain ⟨gs, hgs, h⟩ := Except.bind_eq_ok.mp h
        obtain ⟨b, -, h⟩ := Except.bind_eq_ok.mp h
        cases h
        exact ⟨hGC ▸ ha, objectMapMembers_readable T hgs⟩
      · cases h
    rw [if_neg hGC] at h
    by_cases hF : typ = ascii "Feature"
    · rw [if_pos hF] at h
      split at h
      · cases h
      · next v hv =>
        split_ifs at h with hj
        split at h <;> try cases h
        next g b idprops hg _ _ => exact ⟨hF ▸ ha, objectMap_readable T hg⟩
    rw [if_neg hF] at h
    by_cases hFC : typ = ascii "FeatureCollection"
    · rw [if_pos hFC] at h
      split at h
      · cases h
      · next vs hvs =>
        obtain ⟨gs, hgs, h⟩ := Except.bind_eq_ok.mp h
        obtain ⟨b, -, h⟩ := Except.bind_eq_ok.mp h
        cases h
        exact ⟨hFC ▸ ha, objectMapMembers_readable T hgs⟩
      · cases h
    rw [if_neg hFC] at h
    cases h
  next => cases h
termination_by sizeOf json
decreasing_by
  all_goals first
    | exact Json.sizeOf_lt_of_get_arr ‹_ = Json.arr _›
    | exact Json.sizeOf_get_lt rfl ‹_ = Json.null → False›

theorem objectMapMembers_readable (T : JsonText α) {vs : List (Json α)} {err : JsonError}
    {src : From} {os : List (Object α)} (h : objectMapMembers T vs err src = .ok os) :
    Object.ReadableList src os := by
  unfold objectMapMembers at h
  split at h
  · cases h
    trivial
  · next res rest =>
    split_ifs at h with hj
    obtain ⟨o, ho, h⟩ := Except.bind_eq_ok.mp h
    obtain ⟨os', hos, h⟩ := Except.bind_eq_ok.mp h
    cases h
    exact ⟨objectMap_readable T ho, objectMapMembers_readable T hos⟩
termination_by sizeOf vs
decreasing_by
  all_goals subst_vars; simp only [List.cons.sizeOf_spec]; omega

end

end Readable

/-! ### Printing then reading -/

section RoundTrip

variable [Zero α] [LinearOrder α] (T : JsonText α)

mutual

/-- What `ObjectJSON(o.JSON())` reads for an object `o`: the same coordinates and members,
each defined box as it prints, and the other boxes calculated again by the fill functions. -/
def Object.reread : Object α → Object α
  | .point c b d => fillSimplePointOrPoint c (printedBBox b d)
  | .simplePoint x y => .simplePoint x y
  | .multiPoint cs b d => fillMultiPoint cs (printedBBox b d)
  | .lineString cs b d =>
    .lineString cs (fillBBoxFields (printedBBox b d) (level2CalculatedBBox cs none)).1
      (printedBBox b d).isSome
  | .multiLineString css b d =>
    .multiLineString css
      (fillBBoxFields (printedBBox b d) (level3CalculatedBBox css none false)).1
      (printedBBox b d).isSome
  | .polygon v =>
    .polygon ⟨v.Coordinates, (fillBBoxFields (printedBBox v.BBox v.bboxDefined)
      (level3CalculatedBBox v.Coordinates none true)).1, (printedBBox v.BBox v.bboxDefined).isSome⟩
  | .multiPolygon csss b d polygons =>
    .multiPolygon csss (fillBBoxFields (printedBBox b d) (calculatedBBox polygons none)).1
      (printedBBox b d).isSome polygons
  | .geometryCollection gs b d => fillGeometryCollection (Object.rereadList gs) (printedBBox b d)
  | .feature g b d idprops => fillFeature g.reread (printedBBox b d) idprops
  | .featureCollection gs b d => fillFeatureCollection (Object.rereadList gs) (printedBBox b d)
  | .string s => .string s

/-- The members read back, in order. -/
def Object.rereadList : List (Object α) → List (Object α)
  | [] => []
  | g :: gs => g.reread :: Object.rereadList gs

end

mutual

/-- Each feature of the object reads the `properties` and `id` it prints back as the raw texts
it keeps. -/
def Object.RawReadBack : Object α → Prop
  | .geometryCollection gs _ _ | .featureCollection gs _ _ => Object.RawReadBackList gs
  | .feature g _ _ idprops =>
    featureIdprops T (.obj (appendRawJSON T idprops)) = .ok idprops ∧ g.RawReadBack
  | _ => True

/-- Each member reads its raw texts back. -/
def Object.RawReadBackList : List (Object α) → Prop
  | [] => True
  | g :: gs => g.RawReadBack ∧ Object.RawReadBackList gs

end

theorem appendLevelJSON_get_type (n : Nat) (name : List UInt8) (c : Coords α n)
    (b : Option (BBox α)) (d : Bool) :
    (appendLevelJSON n name c b d).get (ascii "type") = .str name := by
  simp [appendLevelJSON, Json.get, Json.find?_obj_cons]

variable {src : From}

theorem objectMap_Point_printed (ha : src.accepts (ascii "Point") = true) (c : Position α)
    (b : Option (BBox α)) (d : Bool) :
    objectMap T (appendLevel1JSON (ascii "Point") c b d) src =
      .ok (fillSimplePointOrPoint c (printedBBox b d)) := by
  rw [objectMap, appendLevel1JSON, appendLevelJSON_get_type 0 _ c b d]
  simp only [ha, Bool.not_true, Bool.false_eq_true, ↓reduceIte, fillLevel1Map,
    fillLevelMap_appendLevelJSON 0 _ c b d, bind, Except.bind, pure, Except.pure]

theorem objectMap_MultiPoint_printed (ha : src.accepts (ascii "MultiPoint") = true)
    (cs : List (Position α)) (b : Option (BBox α)) (d : Bool) :
    objectMap T (appendLevel2JSON (ascii "MultiPoint") cs b d) src =
      .ok (fillMultiPoint cs (printedBBox b d)) := by
  rw [objectMap, appendLevel2JSON, appendLevelJSON_get_type 1 _ cs b d]
  simp +decide only [ha, Bool.not_true, Bool.false_eq_true, ↓reduceIte, fillLevel2Map,
    fillLevelMap_appendLevelJSON 1 _ cs b d, bind, Except.bind, pure, Except.pure]

theorem objectMap_LineString_printed (ha : src.accepts (ascii "LineString") = true)
    (cs : List (Position α)) (b : Option (BBox α)) (d : Bool) :
    objectMap T (appendLevel2JSON (ascii "LineString") cs b d) src =
      liftFill (fillLineString cs (printedBBox b d)) := by
  rw [objectMap, appendLevel2JSON, appendLevelJSON_get_type 1 _ cs b d]
  simp +decide only [ha, Bool.not_true, Bool.false_eq_true, ↓reduceIte, fillLevel2Map,
    fillLevelMap_appendLevelJSON 1 _ cs b d, bind, Except.bind]

theorem objectMap_MultiLineString_printed (ha : src.accepts (ascii "MultiLineString") = true)
    (css : List (List (Position α))) (b : Option (BBox α)) (d : Bool) :
    objectMap T (appendLevel3JSON (ascii "MultiLineString") css b d) src =
      liftFill (fillMultiLineString css (printedBBox b d)) := by
  rw [objectMap, appendLevel3JSON, appendLevelJSON_get_type 2 _ css b d]
  simp +decide only [ha, Bool.not_true, Bool.false_eq_true, ↓reduceIte, fillLevel3Map,
    fillLevelMap_appendLevelJSON 2 _ css b d, bind, Except.bind]

theorem objectMap_Polygon_printed (ha : src.accepts (ascii "Polygon") = true)
    (css : List (List (Position α))) (b : Option (BBox α)) (d : Bool) :
    objectMap T (appendLevel3JSON (ascii "Polygon") css b d) src =
      liftFill ((fillPolygon css (printedBBox b d)).map .polygon) := by
  rw [objectMap, appendLevel3JSON, appendLevelJSON_get_type 2 _ css b d]
  simp +decide only [ha, Bool.not_true, Bool.false_eq_true, ↓reduceIte, fillLevel3Map,
    fillLevelMap_appendLevelJSON 2 _ css b d, bind, Except.bind]

theorem objectMap_MultiPolygon_printed (ha : src.accepts (ascii "MultiPolygon") = true)
    (csss : List (List (List (Position α)))) (b : Option (BBox α)) (d : Bool) :
    objectMap T (appendLevel4JSON (ascii "MultiPolygon") csss b d) src =
      liftFill (fillMultiPolygon csss (printedBBox b d)) := by
  rw [objectMap, appendLevel4JSON, appendLevelJSON_get_type 3 _ csss b d]
  simp +decide only [ha, Bool.not_true, Bool.false_eq_true, ↓reduceIte, fillLevel4Map,
    fillLevelMap_appendLevelJSON 3 _ csss b d, bind, Except.bind]

theorem objectMap_GeometryCollection_printed (ha : src.accepts (ascii "GeometryCollection") = true)
    (vs : List (Json α)) (b : Option (BBox α)) (d : Bool) :
    objectMap T (.obj ([(ascii "type", .str (ascii "GeometryCollection")),
        (ascii "geometries", .arr vs)] ++ if d then appendBBoxJSON b else [])) src =
      objectMapMembers T vs .errInvalidGeometry .gcoll >>= fun gs =>
        .ok (fillGeometryCollection gs (printedBBox b d)) := by
  have hbbox : fillBBox (.obj (([(ascii "type", .str (ascii "GeometryCollection")),
      (ascii "geometries", .arr vs)] ++ if d then appendBBoxJSON b else []) ++ [])) =
      .ok (printedBBox b d) :=
    fillBBox_printed (by simp +decide) (by simp) b d
  rw [List.append_nil] at hbbox
  have htype : (Json.obj ([(ascii "type", .str (ascii "GeometryCollection")),
      (ascii "geometries", .arr vs)] ++ if d then appendBBoxJSON b else [])).get (ascii "type") =
      .str (ascii "GeometryCollection") := by
    simp [Json.get, Json.find?_obj_cons]
  have hget : (Json.obj ([(ascii "type", .str (ascii "GeometryCollection")),
      (ascii "geometries", .arr vs)] ++ if d then appendBBoxJSON b else [])).get
      (ascii "geometries") = .arr vs := by
    simp +decide [Json.get, Json.find?_obj_cons]
  rw [objectMap, htype]
  simp +decide only [ha, Bool.not_true, Bool.false_eq_true, ↓reduceIte, hbbox, bind,
    Except.bind]
  split
  next heq => rw [hget] at heq; cases heq
  next heq => rw [hget] at heq; cases heq; rfl
  next harr => exact absurd hget (harr vs)

theorem objectMap_FeatureCollection_printed (ha : src.accepts (ascii "FeatureCollection") = true)
    (vs : List (Json α)) (b : Option (BBox α)) (d : Bool) :
    objectMap T (.obj ([(ascii "type", .str (ascii "FeatureCollection")),
        (ascii "features", .arr vs)] ++ if d then appendBBoxJSON b else [])) src =
      objectMapMembers T vs .errInvalidFeature .fcoll >>= fun gs =>
        .ok (fillFeatureCollection gs (printedBBox b d)) := by
  have hbbox : fillBBox (.obj (([(ascii "type", .str (ascii "FeatureCollection")),
      (ascii "features", .arr vs)] ++ if d then appendBBoxJSON b else []) ++ [])) =
      .ok (printedBBox b d) :=
    fillBBox_printed (by simp +decide) (by simp) b d
  rw [List.append_nil] at hbbox
  have htype : (Json.obj ([(ascii "type", .str (ascii "FeatureCollection")),
      (ascii "features", .arr vs)] ++ if d then appendBBoxJSON b else [])).get (ascii "type") =
      .str (ascii "FeatureCollection") := by
    simp [Json.get, Json.find?_obj_cons]
  have hget : (Json.obj ([(ascii "type", .str (ascii "FeatureCollection")),
      (ascii "features", .arr vs)] ++ if d then appendBBoxJSON b else [])).get
      (ascii "features") = .arr vs := by
    simp +decide [Json.get, Json.find?_obj_cons]
  rw [objectMap, htype]
  simp +decide only [ha, Bool.not_true, Bool.false_eq_true, ↓reduceIte, hbbox, bind,
    Except.bind]
  split
  next heq => rw [hget] at heq; cases heq
  next heq => rw [hget] at heq; cases heq; rfl
  next harr => exact absurd hget (harr vs)

omit [Zero α] [LinearOrder α] in
theorem featureIdprops_append {ms : List (List UInt8 × Json α)} (ns : List (List UInt8 × Json α))
    (hms : ∀ m ∈ ms, m.1 ≠ ascii "properties" ∧ m.1 ≠ ascii "id") :
    featureIdprops T (.obj (ms ++ ns)) = featureIdprops T (.obj ns) := by
  simp only [featureIdprops, Json.find?_obj_append ns fun m hm => (hms m hm).1,
    Json.find?_obj_append ns fun m hm => (hms m hm).2]

omit [Zero α] [LinearOrder α] in
theorem appendRawJSON_keys (idprops : List UInt8) :
    ∀ m ∈ appendRawJSON T idprops, m.1 = ascii "properties" ∨ m.1 = ascii "id" := by
  intro m hm
  cases hg : getRaw idprops with
  | mk idRaw propsRaw =>
    simp only [appendRawJSON, hg] at hm
    split_ifs at hm <;> simp at hm <;> rcases hm with rfl | rfl <;> simp

theorem objectMap_Feature_printed (ha : src.accepts (ascii "Feature") = true) {G : Json α}
    {g : Object α} (hG : objectMap T G .feat = .ok g) (hj : G.isJSON = true)
    (b : Option (BBox α)) (d : Bool) {idprops : List UInt8}
    (hraw : featureIdprops T (.obj (appendRawJSON T idprops)) = .ok idprops) :
    objectMap T (.obj ([(ascii "type", .str (ascii "Feature")), (ascii "geometry", G)] ++
        (if d then appendBBoxJSON b else []) ++ appendRawJSON T idprops)) src =
      .ok (fillFeature g (printedBBox b d) idprops) := by
  have hbbox : fillBBox (.obj ([(ascii "type", .str (ascii "Feature")), (ascii "geometry", G)] ++
      (if d then appendBBoxJSON b else []) ++ appendRawJSON T idprops)) =
      .ok (printedBBox b d) := by
    refine fillBBox_printed (by simp +decide) (fun m hm => ?_) b d
    rcases appendRawJSON_keys T idprops m hm with h | h <;> rw [h] <;> decide
  have hidprops : featureIdprops T (.obj ([(ascii "type", .str (ascii "Feature")),
      (ascii "geometry", G)] ++ (if d then appendBBoxJSON b else []) ++ appendRawJSON T idprops)) =
      .ok idprops := by
    rw [featureIdprops_append T _ ?_, hraw]
    intro m hm
    simp only [List.mem_append] at hm
    rcases hm with hm | hm
    · simp at hm
      rcases hm with rfl | rfl <;> simp +decide
    · cases d <;> simp at hm
      cases b <;> simp [appendBBoxJSON] at hm
      rw [hm]
      simp +decide
  have htype : (Json.obj ([(ascii "type", .str (ascii "Feature")), (ascii "geometry", G)] ++
      (if d then appendBBoxJSON b else []) ++ appendRawJSON T idprops)).get (ascii "type") =
      .str (ascii "Feature") := by
    simp [Json.get, Json.find?_obj_cons]
  have hget : (Json.obj ([(ascii "type", .str (ascii "Feature")), (ascii "geometry", G)] ++
      (if d then appendBBoxJSON b else []) ++ appendRawJSON T idprops)).get (ascii "geometry") =
      G := by
    simp +decide [Json.get, Json.find?_obj_cons]
  rw [objectMap, htype]
  simp +decide only [ha, Bool.not_true, Bool.false_eq_true, ↓reduceIte]
  split
  next heq => rw [hget] at heq; subst heq; cases hj
  next => rw [hget, dif_pos hj, hG, hbbox, hidprops]

theorem Object.appendJSON_isJSON {o : Object α} (h : o.Readable src) :
    (o.appendJSON T).isJSON = true := by
  cases o with
  | string s => exact h.elim
  | _ => rfl

mutual

/-- An object `objectMap` can read prints as a value that `objectMap` reads back as its
`reread`: the checks of the fill functions pass again on the same coordinates. -/
theorem objectMap_appendJSON : ∀ {src : From} (o : Object α), o.Readable src →
    o.RawReadBack T → objectMap T (o.appendJSON T) src = .ok o.reread
  | _, .point c b d, ha, _ => objectMap_Point_printed T ha c b d
  | _, .simplePoint x y, ha, _ => by
    rw [Object.appendJSON, objectMap_Point_printed T ha]
    simp [fillSimplePointOrPoint, printedBBox, Object.reread]
  | _, .multiPoint cs b d, ha, _ => objectMap_MultiPoint_printed T ha cs b d
  | _, .lineString cs b d, ⟨ha, hlen⟩, _ => by
    rw [Object.appendJSON, objectMap_LineString_printed T ha, fillLineString, if_neg (by omega)]
    rfl
  | _, .multiLineString css b d, ⟨ha, hlines⟩, _ => by
    rw [Object.appendJSON, objectMap_MultiLineString_printed T ha, fillMultiLineString,
      if_neg (any_short_eq_true_iff.mpr hlines)]
    rfl
  | _, .polygon v, ⟨ha, hnil, hrings⟩, _ => by
    rw [Object.appendJSON, objectMap_Polygon_printed T ha, fillPolygon, if_neg hnil,
      if_neg (by simpa using hrings)]
    rfl
  | _, .multiPolygon csss b d polygons, ⟨ha, hpolygons⟩, _ => by
    rw [Object.appendJSON, objectMap_MultiPolygon_printed T ha, fillMultiPolygon, hpolygons]
    rfl
  | _, .geometryCollection gs b d, ⟨ha, hgs⟩, hraw => by
    rw [Object.appendJSON, objectMap_GeometryCollection_printed T ha,
      objectMapMembers_appendJSONList gs hgs hraw]
    rfl
  | _, .feature g b d idprops, ⟨ha, hg⟩, ⟨hidprops, hraw⟩ => by
    rw [Object.appendJSON]
    exact objectMap_Feature_printed T ha (objectMap_appendJSON g hg hraw)
      (Object.appendJSON_isJSON T hg) b d hidprops
  | _, .featureCollection gs b d, ⟨ha, hgs⟩, hraw => by
    rw [Object.appendJSON, objectMap_FeatureCollection_printed T ha,
      objectMapMembers_appendJSONList gs hgs hraw]
    rfl
  | _, .string _, h, _ => h.elim

theorem objectMapMembers_appendJSONList : ∀ {src : From} {err : JsonError}
    (gs : List (Object α)), Object.ReadableList src gs → Object.RawReadBackList T gs →
      objectMapMembers T (Object.appendJSONList T gs) err src = .ok (Object.rereadList gs)
  | _, _, [], _, _ => by
    rw [Object.appendJSONList, objectMapMembers]
    rfl
  | _, _, g :: gs, ⟨hg, hgs⟩, ⟨hrg, hrgs⟩ => by
    rw [Object.appendJSONList, objectMapMembers, if_pos (Object.appendJSON_isJSON T hg),
      objectMap_appendJSON g hg hrg, objectMapMembers_appendJSONList gs hgs hrgs]
    rfl

end

/-- What `ObjectJSON(o.JSON())` reads for every object `ObjectJSON` returns, the raw texts of its
features read back as they print. -/
theorem ObjectJSON_appendJSON {json : Json α} {o : Object α} (hread : ObjectJSON T json = .ok o)
    (hraw : o.RawReadBack T) : ObjectJSON T (o.appendJSON T) = .ok o.reread :=
  objectMap_appendJSON T o (objectMap_readable T hread) hraw

end RoundTrip

/-! ### The second round is stable, the first is not -/

section Stable

variable [Zero α] [LinearOrder α]

@[simp] theorem printedBBox_refill (b : Option (BBox α)) (d : Bool) (calculated : BBox α) :
    printedBBox (fillBBoxFields (printedBBox b d) calculated).1 (printedBBox b d).isSome =
      printedBBox b d := by
  cases d <;> cases b <;> simp [printedBBox, fillBBoxFields]

mutual

/-- Reading back what was read back changes nothing: from the second round on, printing and
reading is the identity. -/
theorem Object.reread_reread : ∀ o : Object α, o.reread.reread = o.reread
  | .point c b d => by
    by_cases h : c.Z = 0 ∧ printedBBox b d = none
    · simp [Object.reread, fillSimplePointOrPoint, h]
    · simp [Object.reread, fillSimplePointOrPoint, h, fillPoint]
  | .simplePoint _ _ => rfl
  | .multiPoint cs b d => by simp [Object.reread, fillMultiPoint]
  | .lineString cs b d | .multiLineString cs b d | .polygon ⟨cs, b, d⟩
  | .multiPolygon cs b d _ => by simp [Object.reread]
  | .geometryCollection gs b d => by
    simp [Object.reread, fillGeometryCollection, Object.rereadList_reread gs]
  | .feature g b d idprops => by simp [Object.reread, fillFeature, Object.reread_reread g]
  | .featureCollection gs b d => by
    simp [Object.reread, fillFeatureCollection, Object.rereadList_reread gs]
  | .string _ => rfl

theorem Object.rereadList_reread : ∀ gs : List (Object α),
    Object.rereadList (Object.rereadList gs) = Object.rereadList gs
  | [] => rfl
  | g :: gs => by
    simp only [Object.rereadList, Object.reread_reread g, Object.rereadList_reread gs]

end

mutual

theorem Object.RawReadBack_reread (T : JsonText α) : ∀ {o : Object α}, o.RawReadBack T →
    o.reread.RawReadBack T
  | .point c b d, _ => by
    unfold Object.reread fillSimplePointOrPoint fillPoint
    split_ifs <;> trivial
  | .simplePoint _ _, _ | .multiPoint _ _ _, _ | .lineString _ _ _, _
  | .multiLineString _ _ _, _ | .polygon _, _ | .multiPolygon _ _ _ _, _ | .string _, _ => trivial
  | .geometryCollection gs _ _, h => Object.RawReadBackList_reread T h
  | .feature g _ _ _, ⟨hid, hg⟩ => ⟨hid, Object.RawReadBack_reread T hg⟩
  | .featureCollection gs _ _, h => Object.RawReadBackList_reread T h

theorem Object.RawReadBackList_reread (T : JsonText α) : ∀ {o : List (Object α)},
    Object.RawReadBackList T o → Object.RawReadBackList T (Object.rereadList o)
  | [], _ => trivial
  | _ :: _, ⟨hg, hgs⟩ => ⟨Object.RawReadBack_reread T hg, Object.RawReadBackList_reread T hgs⟩

end

theorem Object.CalculatedBBox_of_bboxPtr {o : Object α} {b : BBox α} (h : o.bboxPtr = some b) :
    o.CalculatedBBox = b := by
  cases o <;> simp_all [Object.bboxPtr, Object.CalculatedBBox, level1CalculatedBBox,
    level2CalculatedBBox, level3CalculatedBBox, Polygon.CalculatedBBox, calculatedBBox]

theorem Object.reread_bboxPtr {o : Object α} {b : BBox α} (h : o.bboxPtr = some b)
    (hd : o.IsBBoxDefined = true) :
    o.reread.bboxPtr = some b.printed ∧ o.reread.IsBBoxDefined = true := by
  cases o <;> simp_all [Object.bboxPtr, Object.IsBBoxDefined, Object.reread, printedBBox,
    fillSimplePointOrPoint, fillPoint, fillMultiPoint, fillGeometryCollection, fillFeature,
    fillFeatureCollection, fillBBoxFields]

/-- A box given with one zero and one nonzero `Z` does not survive printing: `ObjectJSON`
reads the printed text of any object that carries one (the raw texts of its features reading
back as they print) as an object whose box has lost the nonzero `Z`. -/
theorem reprint_changes_bbox (T : JsonText α) {json : Json α} {o : Object α}
    (hread : ObjectJSON T json = .ok o) (hraw : o.RawReadBack T) {b : BBox α}
    (hb : o.bboxPtr = some b) (hdef : o.IsBBoxDefined = true)
    (hz : ¬(b.Min.Z = 0 ↔ b.Max.Z = 0)) :
    ∃ o2, ObjectJSON T (o.appendJSON T) = .ok o2 ∧ o2.IsBBoxDefined = true ∧
      o2.CalculatedBBox = b.printed ∧ o2.CalculatedBBox ≠ o.CalculatedBBox := by
  obtain ⟨hb2, hd2⟩ := Object.reread_bboxPtr hb hdef
  refine ⟨o.reread, ObjectJSON_appendJSON T hread hraw, hd2,
    Object.CalculatedBBox_of_bboxPtr hb2, ?_⟩
  rw [Object.CalculatedBBox_of_bboxPtr hb2, Object.CalculatedBBox_of_bboxPtr hb]
  exact fun h => hz ((BBox.printed_eq_self_iff b).mp h)

theorem reprint_changes_bbox_point :
    let T : JsonText ℚ := ⟨fun _ => [], fun _ => .null⟩
    let json : Json ℚ := .obj [(ascii "type", .str (ascii "Point")),
      (ascii "coordinates", .arr [.num 0, .num 0]),
      (ascii "bbox", .arr [.num 0, .num 0, .num 0, .num 0, .num 0, .num 5])]
    let b : BBox ℚ := ⟨⟨0, 0, 0⟩, ⟨0, 0, 5⟩⟩
    let o : Object ℚ := .point ⟨0, 0, 0⟩ (some b) true
    ObjectJSON T json = .ok o ∧ o.RawReadBack T ∧ o.bboxPtr = some b ∧
      o.IsBBoxDefined = true ∧ ¬(b.Min.Z = 0 ↔ b.Max.Z = 0) ∧
      ∃ o2, ObjectJSON T (o.appendJSON T) = .ok o2 ∧ o2.IsBBoxDefined = true ∧
        o2.CalculatedBBox = b.printed ∧ o2.CalculatedBBox ≠ o.CalculatedBBox := by
  intro T json b o
  have hread : ObjectJSON T json = .ok o := by
    rw [ObjectJSON, objectMap]
    simp +decide [json, o, b, Json.get, Json.find?_obj_cons, fillLevel1Map, fillLevelMap,
      fillCoords, fillPosition, Json.Array, Json.isNumber, Json.Float, fillBBox,
      fillSimplePointOrPoint, fillPoint, fillBBoxFields, bind, Except.bind, pure, Except.pure]
  exact ⟨hread, trivial, rfl, rfl, by norm_num [b],
    reprint_changes_bbox T hread trivial rfl rfl (by norm_num [b])⟩

end Stable

end Geojson
