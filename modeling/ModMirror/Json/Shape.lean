import ModMirror.Json.Read
import ModMirror.Version

/-!
# Shapes: typed reading of JSON

A `Shape` describes what a document must look like to be read as one of the
library's types: a record with named fields (some with defaults), a list, a
map from strings, a tagged union whose variant is named by one field, an
untagged union whose alternatives are tried in order, and a few scalars.

Reading by a shape gives a value in a normal form: a record is an object with
every field in declaration order, a tagged union an object with its tag
first, a map an object sorted by key. The domain types are then built from
that normal form without further failure.

A shape is read from text (`readText`), where failures carry their place, or
from a value already in memory (`ofValue`), where they do not. A failure that
a field's reader cannot place itself is placed by the nearest enclosing
container once its closing bracket is read.
-/

namespace ModMirror.Json

mutual
/-- What a place of a document must hold. -/
inductive Shape where
  /-- Any value, kept with sorted object keys. -/
  | value
  /-- Any value, ignored. -/
  | skip
  | bool
  /-- An unsigned integer of the given number of bits; `name` names its type in messages. -/
  | unsigned (bits : Nat) (name : String)
  /-- A string; `expecting` names it in messages. -/
  | text (expecting : String)
  /-- `null` or the inner shape. -/
  | option (inner : Shape)
  | list (item : Shape)
  /-- An object read as a map from keys to items. -/
  | dict (item : Shape)
  /-- An object with named fields. -/
  | record (name : String) (fields : List Field)
  /-- A union named by the string field `tag`. -/
  | tagged (name tag : String) (variants : List Variant)
  /-- A union whose alternatives are tried in order. -/
  | untagged (name : String) (alternatives : List Shape)
  /-- A semantic version written as a string. -/
  | version

/-- A field of a record: its name, other accepted names, shape and default. -/
inductive Field where
  | mk (name : String) (aliases : List String) (shape : Shape) (fallback : Option Json)

/-- A variant of a tagged union: its tag value and fields. -/
inductive Variant where
  | mk (name : String) (fields : List Field)
end

namespace Field
def name : Field → String | .mk n .. => n
def aliases : Field → List String | .mk _ a .. => a
def shape : Field → Shape | .mk _ _ s _ => s
def fallback : Field → Option Json | .mk _ _ _ d => d
def accepts (f : Field) (k : String) : Bool := f.name == k || f.aliases.contains k
def req (name : String) (shape : Shape) : Field := .mk name [] shape none
def opt (name : String) (shape : Shape) (d : Json) : Field := .mk name [] shape (some d)
end Field

namespace Variant
def name : Variant → String | .mk n _ => n
def fields : Variant → List Field | .mk _ fs => fs
end Variant

/-- An unsigned integer of `bits` bits, of the type named `name`, from a number. -/
def visitUnsigned (bits : Nat) (name : String) : JsonNumber → Except String Json
  | .nat n => if n < Nat.pow 2 bits then .ok (.num (.nat n)) else .error (invalidValue (unexpectedNumber (.nat n)) name)
  | .negInt n => .error (invalidValue (unexpectedNumber (.negInt n)) name)
  | .float x => .error (invalidType (unexpectedNumber (.float x)) name)

/-- A version from its text; the failure is the version's own message. -/
def visitVersion (s : String) : Except String Json :=
  match Version.parse s with
  | .ok v => .ok (.str v.render)
  | .error e => .error e.message

/-- The value for an absent field: its default, `null` for an optional one. -/
def absentField (f : Field) : Except String (String × Json) :=
  match f.fallback, f.shape with
  | some d, _ => .ok (f.name, d)
  | none, .option _ => .ok (f.name, .null)
  | none, _ => .error (missingField f.name)

/-- Every field of a record, in order, from the values found. -/
def finishRecord (fields : List Field) (found : List (String × Json)) : Except String (List (String × Json)) :=
  fields.mapM fun f =>
    match found.lookup f.name with
    | some v => .ok (f.name, v)
    | none => absentField f

/-- How a record is named in messages about a list of its fields. -/
def recordItemsName (name : String) (n : Nat) : String :=
  name ++ " with " ++ toString n ++ (if n == 1 then " element" else " elements")

/-! ## Values in memory -/

/-- Where a value in memory came from: a parsed document (sorted keys), or a
buffered piece of text (fields in order). They differ only in the message
for a list with too many items. -/
inductive Origin where
  | document
  | buffered
  deriving DecidableEq

mutual
/-- A value with sorted keys, the last of equal keys kept. -/
def canonical : Json → Json
  | .arr xs => .arr (canonicalItems xs)
  | .obj fs => .obj (sortFields (canonicalFields fs))
  | j => j

/-- Items of an array in normal form. -/
def canonicalItems : List Json → List Json
  | [] => []
  | x :: xs => canonical x :: canonicalItems xs

/-- Fields of an object in normal form, in their order. -/
def canonicalFields : List (String × Json) → List (String × Json)
  | [] => []
  | (k, v) :: fs => (k, canonical v) :: canonicalFields fs
end

/-- The variant named by a tag value. -/
def variantOf (variants : List Variant) (j : Json) : Except String Variant :=
  match j with
  | .str s =>
    match variants.find? (·.name == s) with
    | some v => .ok v
    | none => .error (unknownVariant s (variants.map Variant.name))
  | j => .error (invalidType (unexpectedOf j) "variant identifier")

/-- Finds the tag among the fields of a tagged value; the other fields are kept in order. -/
def decodeTag (tag : String) (variants : List Variant) :
    List (String × Json) → Option Variant → List (String × Json) → Except String (Variant × List (String × Json))
  | [], none, _ => .error (missingField tag)
  | [], some v, rest => .ok (v, rest)
  | (k, x) :: fs, found, rest =>
    if k == tag then
      if found.isSome then .error (duplicateField tag)
      else do
        let v ← variantOf variants x
        decodeTag tag variants fs (some v) rest
    else decodeTag tag variants fs found (rest ++ [(k, x)])

mutual
/-- Reads a value in memory by a shape. -/
def decodeData (origin : Origin) : Nat → Shape → Json → Except String Json
  | 0, _, _ => .error Msg.depth
  | fuel + 1, shape, j =>
    match shape, j with
    | .value, j => .ok (canonical j)
    | .skip, _ => .ok .null
    | .bool, .bool b => .ok (.bool b)
    | .bool, j => .error (invalidType (unexpectedOf j) "a boolean")
    | .unsigned bits name, .num n => visitUnsigned bits name n
    | .unsigned _ name, j => .error (invalidType (unexpectedOf j) name)
    | .text _, .str s => .ok (.str s)
    | .text exp, j => .error (invalidType (unexpectedOf j) exp)
    | .option _, .null => .ok .null
    | .option inner, j => decodeData origin fuel inner j
    | .list item, .arr xs => (decodeItems origin fuel item xs).map .arr
    | .list _, j => .error (invalidType (unexpectedOf j) "a sequence")
    | .dict item, .obj fs => (decodeEntries origin fuel item fs []).map .obj
    | .dict _, j => .error (invalidType (unexpectedOf j) "a map")
    | .record _ fields, .obj fs => do
      let found ← decodeRecordFields origin fuel fields fs []
      return .obj (← finishRecord fields found)
    | .record name fields, .arr xs => (decodeRecordItems origin fuel ("struct " ++ name) fields xs).map .obj
    | .record name _, j => .error (invalidType (unexpectedOf j) ("struct " ++ name))
    | .tagged name tag variants, .obj fs => do
      let (v, rest) ← decodeTag tag variants fs none []
      decodeVariant fuel name tag v (.obj rest)
    | .tagged name tag variants, .arr xs =>
      match xs with
      | [] => .error (missingField tag)
      | t :: rest => do
        let v ← variantOf variants t
        decodeVariant fuel name tag v (.arr rest)
    | .tagged name _ _, j => .error (invalidType (unexpectedOf j) ("internally tagged enum " ++ name))
    | .untagged name alts, j => decodeAlternatives fuel name alts j
    | .version, .str s => visitVersion s
    | .version, j => .error (invalidType (unexpectedOf j) "semver version")

/-- Items of a list. -/
def decodeItems (origin : Origin) : Nat → Shape → List Json → Except String (List Json)
  | 0, _, _ => .error Msg.depth
  | _ + 1, _, [] => .ok []
  | fuel + 1, item, x :: xs => do
    let v ← decodeData origin fuel item x
    return v :: (← decodeItems origin fuel item xs)

/-- Entries of a map, sorted by key. -/
def decodeEntries (origin : Origin) : Nat → Shape → List (String × Json) → List (String × Json) →
    Except String (List (String × Json))
  | 0, _, _, _ => .error Msg.depth
  | _ + 1, _, [], acc => .ok acc
  | fuel + 1, item, (k, x) :: fs, acc => do
    let v ← decodeData origin fuel item x
    decodeEntries origin fuel item fs (insertField k v acc)

/-- Fields of a record given as an object, in the order found. -/
def decodeRecordFields (origin : Origin) : Nat → List Field → List (String × Json) →
    List (String × Json) → Except String (List (String × Json))
  | 0, _, _, _ => .error Msg.depth
  | _ + 1, _, [], acc => .ok acc
  | fuel + 1, fields, (k, x) :: fs, acc =>
    match fields.find? (·.accepts k) with
    | some f =>
      if (acc.lookup f.name).isSome then .error (duplicateField f.name)
      else do
        let v ← decodeData origin fuel f.shape x
        decodeRecordFields origin fuel fields fs (acc ++ [(f.name, v)])
    | none => decodeRecordFields origin fuel fields fs acc

/-- Fields of a record given as a list, one item per field in order. -/
def decodeRecordItems (origin : Origin) : Nat → String → List Field → List Json →
    Except String (List (String × Json))
  | 0, _, _, _ => .error Msg.depth
  | fuel + 1, name, fields, xs => recordItemsFrom origin fuel name fields.length fields xs 0

/-- Record fields from list items, `used` items taken so far; extra items are refused. -/
def recordItemsFrom (origin : Origin) : Nat → String → Nat → List Field → List Json → Nat →
    Except String (List (String × Json))
  | 0, _, _, _, _, _ => .error Msg.depth
  | _ + 1, _, _, [], rest, used =>
    if rest.isEmpty then .ok []
    else match origin with
      | .document => .error (invalidLength (used + rest.length) "fewer elements in array")
      | .buffered =>
        .error (invalidLength (used + rest.length)
          (toString used ++ (if used == 1 then " element in sequence" else " elements in sequence")))
  | fuel + 1, name, n, f :: fs, [], used =>
    match f.fallback with
    | some d => do return (f.name, d) :: (← recordItemsFrom origin fuel name n fs [] used)
    | none => .error (invalidLength used (recordItemsName name n))
  | fuel + 1, name, n, f :: fs, x :: rest, used => do
    let v ← decodeData origin fuel f.shape x
    return (f.name, v) :: (← recordItemsFrom origin fuel name n fs rest (used + 1))

/-- The fields of a variant from the rest of a tagged value. -/
def decodeVariant : Nat → String → String → Variant → Json → Except String Json
  | 0, _, _, _, _ => .error Msg.depth
  | fuel + 1, name, tag, v, rest =>
    let label := "struct variant " ++ name ++ "::" ++ v.name
    match rest with
    | .obj fs => do
      let found ← decodeRecordFields .buffered fuel v.fields fs []
      let fields ← finishRecord v.fields found
      return .obj ((tag, .str v.name) :: fields)
    | .arr xs => do
      let fields ← decodeRecordItems .buffered fuel label v.fields xs
      return .obj ((tag, .str v.name) :: fields)
    | j => .error (invalidType (unexpectedOf j) label)

/-- Alternatives of an untagged union, the first that reads. -/
def decodeAlternatives : Nat → String → List Shape → Json → Except String Json
  | 0, _, _, _ => .error Msg.depth
  | _ + 1, name, [], _ => .error ("data did not match any variant of untagged enum " ++ name)
  | fuel + 1, name, s :: ss, j =>
    match decodeData .buffered fuel s j with
    | .ok v => .ok v
    | .error _ => decodeAlternatives fuel name ss j
end

/-- Reads a value in memory by a shape. -/
def ofValue (shape : Shape) (j : Json) : Except String Json :=
  decodeData .document 1000 shape j

/-! ## Text -/

open Reader in
/-- A variant name written as a string. -/
def readVariantName (variants : List Variant) : Reader Variant := do
  match ← blank? with
  | none => failPeek Msg.eofValue
  | some 34 => do
    eat
    let s ← string
    match variants.find? (·.name == s) with
    | some v => pure v
    | none => throw (← fix (unplaced (unknownVariant s (variants.map Variant.name))))
  | some _ => throw (← invalidTypeHere "variant identifier")

open Reader in
mutual
/-- Reads the value at the index by a shape. -/
def readShape : Nat → Nat → Shape → Reader Json
  | 0, _, _ => fail Msg.depth
  | fuel + 1, depth, shape =>
    match shape with
    | .value => readAny true fuel depth
    | .skip => do skipValue; pure .null
    | .bool => do
      match ← blank? with
      | none => failPeek Msg.eofValue
      | some 116 => do eat; ident rue; pure (.bool true)
      | some 102 => do eat; ident alse; pure (.bool false)
      | some _ => throw (← invalidTypeHere "a boolean")
    | .unsigned bits name => do
      let n ← match ← blank? with
        | none => failPeek Msg.eofValue
        | some 45 => do eat; number false
        | some c => if isDigitByte c then number true else do throw (← invalidTypeHere name)
      match visitUnsigned bits name n with
      | .ok j => pure j
      | .error m => throw (← fix (unplaced m))
    | .text exp => do
      match ← blank? with
      | none => failPeek Msg.eofValue
      | some 34 => do eat; return .str (← string)
      | some _ => throw (← invalidTypeHere exp)
    | .version => do
      match ← blank? with
      | none => failPeek Msg.eofValue
      | some 34 => do
        eat
        match visitVersion (← string) with
        | .ok j => pure j
        | .error m => throw (← fix (unplaced m))
      | some _ => throw (← invalidTypeHere "semver version")
    | .option inner => do
      match ← blank? with
      | some 110 => do eat; ident ull; pure .null
      | _ => readShape fuel depth inner
    | .list item => do
      match ← blank? with
      | none => failPeek Msg.eofValue
      | some 91 => container depth (do return .arr (← readShapeItems fuel (depth - 1) item true [])) endSeq
      | some _ => throw (← invalidTypeHere "a sequence")
    | .dict item => do
      match ← blank? with
      | none => failPeek Msg.eofValue
      | some 123 => container depth (do return .obj (← readShapeEntries fuel (depth - 1) item true [])) endMap
      | some _ => throw (← invalidTypeHere "a map")
    | .record name fields => do
      match ← blank? with
      | none => failPeek Msg.eofValue
      | some 91 =>
        container depth
          (do return .obj (← readRecordItems fuel (depth - 1) ("struct " ++ name) fields.length fields true)) endSeq
      | some 123 =>
        container depth (do
          let found ← readRecordFields fuel (depth - 1) fields true []
          match finishRecord fields found with
          | .ok fs => pure (.obj fs)
          | .error m => throw (unplaced m)) endMap
      | some _ => throw (← invalidTypeHere ("struct " ++ name))
    | .tagged name tag variants => do
      let rest : Variant × Json ← match ← blank? with
        | none => failPeek Msg.eofValue
        | some 123 => container depth (readTagFields fuel (depth - 1) tag variants true none []) endMap
        | some 91 => container depth (do
            if ← nextItem? true then
              let v ← readVariantName variants
              let items ← readItems false fuel (depth - 1) false []
              pure (v, .arr items)
            else throw (unplaced (missingField tag))) endSeq
        | some _ => throw (← invalidTypeHere ("internally tagged enum " ++ name))
      match decodeVariant 1000 name tag rest.1 rest.2 with
      | .ok j => pure j
      | .error m => throw (unplaced m)
    | .untagged name alts => do
      let content ← readAny false fuel depth
      match decodeAlternatives 1000 name alts content with
      | .ok j => pure j
      | .error m => throw (unplaced m)

/-- Items of a list, collected in reverse. -/
def readShapeItems : Nat → Nat → Shape → Bool → List Json → Reader (List Json)
  | 0, _, _, _, _ => fail Msg.depth
  | fuel + 1, depth, item, first, acc => do
    if ← nextItem? first then
      let v ← readShape fuel depth item
      readShapeItems fuel depth item false (v :: acc)
    else pure acc.reverse

/-- Entries of a map, sorted by key. -/
def readShapeEntries : Nat → Nat → Shape → Bool → List (String × Json) → Reader (List (String × Json))
  | 0, _, _, _, _ => fail Msg.depth
  | fuel + 1, depth, item, first, acc => do
    if ← nextKey? first then
      let k ← key
      colon
      let v ← readShape fuel depth item
      readShapeEntries fuel depth item false (insertField k v acc)
    else pure acc

/-- Fields of a record written as an object; unknown keys are skipped. -/
def readRecordFields : Nat → Nat → List Field → Bool → List (String × Json) → Reader (List (String × Json))
  | 0, _, _, _, _ => fail Msg.depth
  | fuel + 1, depth, fields, first, acc => do
    if ← nextKey? first then
      let k ← key
      match fields.find? (·.accepts k) with
      | some f =>
        if (acc.lookup f.name).isSome then throw (unplaced (duplicateField f.name))
        colon
        let v ← readShape fuel depth f.shape
        readRecordFields fuel depth fields false (acc ++ [(f.name, v)])
      | none =>
        colon
        skipValue
        readRecordFields fuel depth fields false acc
    else pure acc

/-- Fields of a record written as a list, one item per field in order. -/
def readRecordItems : Nat → Nat → String → Nat → List Field → Bool → Reader (List (String × Json))
  | 0, _, _, _, _, _ => fail Msg.depth
  | _ + 1, _, _, _, [], _ => pure []
  | fuel + 1, depth, name, n, f :: fs, first => do
    if ← nextItem? first then
      let v ← readShape fuel depth f.shape
      return (f.name, v) :: (← readRecordItems fuel depth name n fs false)
    else
      match f.fallback with
      | some d => return (f.name, d) :: (← readRecordItems fuel depth name n fs first)
      | none => throw (unplaced (invalidLength (n - (f :: fs).length) (recordItemsName name n)))

/-- Fields of a tagged value: the tag names the variant, the others are kept in order. -/
def readTagFields : Nat → Nat → String → List Variant → Bool → Option Variant → List (String × Json) →
    Reader (Variant × Json)
  | 0, _, _, _, _, _, _ => fail Msg.depth
  | fuel + 1, depth, tag, variants, first, found, rest => do
    if ← nextKey? first then
      let k ← key
      if k == tag then
        if found.isSome then throw (unplaced (duplicateField tag))
        colon
        let v ← readVariantName variants
        readTagFields fuel depth tag variants false (some v) rest
      else
        colon
        let x ← readAny false fuel depth
        readTagFields fuel depth tag variants false found (rest ++ [(k, x)])
    else
      match found with
      | some v => pure (v, .obj rest)
      | none => throw (unplaced (missingField tag))
end

/-- Reads a whole document by a shape. -/
def readText (shape : Shape) (text : String) : Except ReadError Json :=
  runDocument (readShape (2 * text.utf8ByteSize + 4) 128 shape) text

end ModMirror.Json
