import ModMirror.Toml.Parse
import ModMirror.Json.Shape

/-!
# Reading a document by a shape

A document's tree is read by the same shapes as JSON text, giving the same
normal form. What TOML adds is the place of a failure: a failure is placed
at the value it concerns, and a failure that a value's reader cannot place
itself (a missing field, an untagged union that matched no alternative) is
placed at the nearest enclosing value that has a span. A table entry without
a span of its own (an array of tables, a table made only as a parent) is
placed at its key.

The document's own table spans from its start to the end of its last value,
so a missing field of the document points at its first line.

A date-time is seen by a free-form reader as a one-field table holding its
text, and a float that is not a number as `null`.
-/

namespace ModMirror.Toml

open Json

/-- The field that holds the text of a date-time seen as a table. -/
def datetimeKey : String := "$__toml_private_datetime"

/-- A scalar as a free-form reader sees it. -/
def Scalar.content : Scalar → Json
  | .string s => .str s
  | .integer n => if 0 ≤ n then .num (.nat n.toNat) else .num (.negInt n)
  | .float x => .num (.float x)
  | .boolean b => .bool b
  | .datetime t => .obj [(datetimeKey, .str t)]

mutual
/-- A value as a free-form reader sees it, table entries in document order. -/
def Node.content : Node → Json
  | .scalar v _ => v.content
  | .array items _ => .arr (contentItems items)
  | .table entries _ _ => .obj (contentEntries entries)
  | .tables items => .arr (contentItems items)

/-- Items as a free-form reader sees them. -/
def contentItems : List Node → List Json
  | [] => []
  | x :: xs => x.content :: contentItems xs

/-- Entries as a free-form reader sees them. -/
def contentEntries : List (String × Span × Node) → List (String × Json)
  | [] => []
  | (k, _, v) :: es => (k, v.content) :: contentEntries es
end

/-- A failure of reading by a shape, with the span it concerns once known. -/
structure Miss where
  message : String
  span : Option Span := none
  deriving Repr

/-- A result whose failure, if not placed yet, is placed at `span`. -/
def placeAt {α : Type} (span : Option Span) (r : Except Miss α) : Except Miss α :=
  match r with
  | .error m => .error (if m.span.isSome then m else { m with span := span })
  | ok => ok

/-- A result of the shared readers, not placed yet. -/
def unplaced {α : Type} (r : Except String α) : Except Miss α :=
  r.mapError fun m => { message := m }

def wrongType {α : Type} (node : Node) (expected : String) : Except Miss α :=
  .error { message := invalidType (unexpectedOf node.content) expected }

def integerNumber (n : Int) : JsonNumber :=
  if 0 ≤ n then .nat n.toNat else .negInt n

/-- Where an entry's failures are placed: its value, or else its key. -/
def entrySpan (keySpan : Span) (v : Node) : Option Span := v.span?.orElse fun _ => some keySpan

/-- Finds the tag among the entries of a tagged table; the other entries are kept in order. -/
def findTag (tag : String) (variants : List Variant) :
    List (String × Span × Node) → Option Variant → List (String × Json) →
    Except Miss (Variant × List (String × Json))
  | [], none, _ => .error { message := missingField tag }
  | [], some v, rest => .ok (v, rest)
  | (k, ks, x) :: es, found, rest =>
    if k == tag then
      if found.isSome then .error { message := duplicateField tag }
      else do
        let v ← placeAt (entrySpan ks x) (unplaced (variantOf variants x.content))
        findTag tag variants es (some v) rest
    else findTag tag variants es found (rest ++ [(k, x.content)])

mutual
/-- Reads a value by a shape. Failures are placed at the value, except
those of an untagged union and of a tagged variant's fields, which are left
to the enclosing value. -/
def decode : Nat → Shape → Node → Except Miss Json
  | 0, _, _ => .error { message := Msg.depth }
  | fuel + 1, shape, node =>
    match shape with
    | .untagged name alts => unplaced (decodeAlternatives 1000 name alts node.content)
    | .tagged name tag variants =>
      match node with
      | .table entries _ span => do
        let (v, rest) ← placeAt span (findTag tag variants entries none [])
        unplaced (decodeVariant 1000 name tag v (.obj rest))
      | .array items span => do
        match items with
        | [] => .error { message := missingField tag, span := span }
        | t :: rest => do
          let v ← placeAt t.span? (unplaced (variantOf variants t.content))
          unplaced (decodeVariant 1000 name tag v (.arr (contentItems rest)))
      | _ => placeAt node.span? (wrongType node ("internally tagged enum " ++ name))
    | _ => placeAt node.span? (decodeHere fuel shape node)

/-- Reads a value by a shape other than a union. -/
def decodeHere : Nat → Shape → Node → Except Miss Json
  | 0, _, _ => .error { message := Msg.depth }
  | fuel + 1, shape, node =>
    match shape, node with
    | .value, node => .ok (canonical node.content)
    | .skip, _ => .ok .null
    | .bool, .scalar (.boolean b) _ => .ok (.bool b)
    | .bool, node => wrongType node "a boolean"
    | .unsigned bits name, .scalar (.integer n) _ => unplaced (visitUnsigned bits name (integerNumber n))
    | .unsigned bits name, .scalar (.float x) _ => unplaced (visitUnsigned bits name (.float x))
    | .unsigned _ name, node => wrongType node name
    | .text _, .scalar (.string s) _ => .ok (.str s)
    | .text expected, node => wrongType node expected
    | .option inner, node => decode fuel inner node
    | .list item, .array items _ => (decodeItems fuel item items).map .arr
    | .list item, .tables items => (decodeItems fuel item items).map .arr
    | .list _, node => wrongType node "a sequence"
    | .dict item, .table entries _ _ => (decodeEntries fuel item entries []).map .obj
    | .dict _, node => wrongType node "a map"
    | .record _ fields, .table entries _ _ => do
      let found ← decodeFields fuel fields entries []
      (unplaced (finishRecord fields found)).map .obj
    | .record name fields, .array items _ =>
      (decodeRecordItems fuel (recordItemsName ("struct " ++ name) fields.length) fields items 0).map .obj
    | .record name fields, .tables items =>
      (decodeRecordItems fuel (recordItemsName ("struct " ++ name) fields.length) fields items 0).map .obj
    | .record name _, node => wrongType node ("struct " ++ name)
    | .version, .scalar (.string s) _ => unplaced (visitVersion s)
    | .version, node => wrongType node "semver version"
    | shape, node => decode fuel shape node

/-- Items of a list. -/
def decodeItems : Nat → Shape → List Node → Except Miss (List Json)
  | 0, _, _ => .error { message := Msg.depth }
  | _ + 1, _, [] => .ok []
  | fuel + 1, item, x :: xs => do
    let v ← decode fuel item x
    return v :: (← decodeItems fuel item xs)

/-- Entries of a map, sorted by key. -/
def decodeEntries : Nat → Shape → List (String × Span × Node) → List (String × Json) →
    Except Miss (List (String × Json))
  | 0, _, _, _ => .error { message := Msg.depth }
  | _ + 1, _, [], acc => .ok acc
  | fuel + 1, item, (k, ks, x) :: es, acc => do
    let v ← placeAt (entrySpan ks x) (decode fuel item x)
    decodeEntries fuel item es (insertField k v acc)

/-- Fields of a record given as a table, in the order found; unknown keys are skipped. -/
def decodeFields : Nat → List Field → List (String × Span × Node) → List (String × Json) →
    Except Miss (List (String × Json))
  | 0, _, _, _ => .error { message := Msg.depth }
  | _ + 1, _, [], acc => .ok acc
  | fuel + 1, fields, (k, ks, x) :: es, acc =>
    match fields.find? (·.accepts k) with
    | some f =>
      if (acc.lookup f.name).isSome then .error { message := duplicateField f.name }
      else do
        let v ← placeAt (entrySpan ks x) (decode fuel f.shape x)
        decodeFields fuel fields es (acc ++ [(f.name, v)])
    | none => decodeFields fuel fields es acc

/-- Fields of a record given as an array, one item per field in order; extra items are ignored. -/
def decodeRecordItems : Nat → String → List Field → List Node → Nat → Except Miss (List (String × Json))
  | 0, _, _, _, _ => .error { message := Msg.depth }
  | _ + 1, _, [], _, _ => .ok []
  | fuel + 1, label, f :: fs, [], used =>
    match f.fallback with
    | some d => do return (f.name, d) :: (← decodeRecordItems fuel label fs [] used)
    | none => .error { message := invalidLength used label }
  | fuel + 1, label, f :: fs, x :: xs, used => do
    let v ← decode fuel f.shape x
    return (f.name, v) :: (← decodeRecordItems fuel label fs xs (used + 1))
end

/-- Reads a document by a shape; the failure is the full error text. -/
def readText (shape : Shape) (text : String) : Except String Json :=
  match parseDocument text with
  | .error f => .error (f.text text)
  | .ok root =>
    match decode 1000 shape root with
    | .ok j => .ok j
    | .error m => .error (({ span := m.span, message := m.message } : Failure).text text)

end ModMirror.Toml
