import ModMirror.Json.Value

/-!
# TOML documents as trees

A document is a table of keys, each holding a scalar (string, integer,
float, boolean or date-time), an array, a table, or an array of tables.
Every value remembers the bytes of the text it was read from, so that a
value of the wrong type can be pointed at.

Tables differ in how they came to be, which decides what a later line may
still add to them: a header or the document itself makes an explicit
table, a header's missing parents are implicit tables, a dotted key makes
dotted tables, and braces make an inline table, which is closed.

A failure is printed with the line it happened on and a row of carets under
the bytes it concerns:

    TOML parse error at line 1, column 8
      |
    1 | bind = 5
      |        ^
    invalid type: integer `5`, expected a string
-/

namespace ModMirror.Toml

/-- The bytes `start` up to `stop` of a document. -/
structure Span where
  start : Nat
  stop : Nat
  deriving DecidableEq, Repr, Inhabited

/-- A value that holds no other value. -/
inductive Scalar where
  | string (s : String)
  | integer (n : Int)
  | float (x : Float)
  | boolean (b : Bool)
  /-- A date, a time or both, in its normal text. -/
  | datetime (text : String)
  deriving Inhabited

/-- How a scalar's type is named in messages. -/
def Scalar.typeName : Scalar → String
  | .string _ => "string"
  | .integer _ => "integer"
  | .float _ => "float"
  | .boolean _ => "boolean"
  | .datetime _ => "datetime"

/-- How a table came to be. -/
inductive TableKind where
  /-- Made by a header, or the document itself. -/
  | explicit
  /-- Made as the missing parent of a header. -/
  | implicit
  /-- Made by a dotted key. -/
  | dotted
  /-- Written in braces. -/
  | inline
  deriving DecidableEq, Repr, Inhabited

/-- A value of a document. Table entries keep the span of their key. -/
inductive Node where
  | scalar (v : Scalar) (span : Span)
  | array (items : List Node) (span : Span)
  | table (entries : List (String × Span × Node)) (kind : TableKind) (span : Option Span)
  /-- An array of tables, each made by its own header. -/
  | tables (items : List Node)
  deriving Inhabited

namespace Node

/-- The span of a value, when it has one. -/
def span? : Node → Option Span
  | .scalar _ s => some s
  | .array _ s => some s
  | .table _ _ s => s
  | .tables _ => none

/-- How a value's type is named in messages. -/
def typeName : Node → String
  | .scalar v _ => v.typeName
  | .array _ _ => "array"
  | .table _ .inline _ => "inline table"
  | .table .. => "table"
  | .tables _ => "array of tables"

def emptyTable (kind : TableKind) : Node := .table [] kind none

end Node

/-- A failure of reading a document: the bytes it concerns (when known) and
its message. -/
structure Failure where
  span : Option Span
  message : String
  deriving Repr

/-- The line and column (counted in characters, both from zero) of a byte
offset; an offset past the end lies after the last character. A character
cut by the offset is counted in bytes. -/
def position (raw : List UInt8) (index : Nat) : Nat × Nat :=
  if raw.isEmpty then (0, index)
  else
    let safe := min index (raw.length - 1)
    let before := raw.take safe
    let lineStart := match (before.reverse.findIdx? (· = 10)) with
      | some back => safe - back
      | none => 0
    let line := ((raw.take lineStart).filter (· = 10)).length
    let piece := (raw.drop lineStart).take (safe - lineStart + 1)
    let column := match String.fromUTF8? (ByteArray.mk piece.toArray) with
      | some s => s.length - 1
      | none => safe - lineStart
    (line, column + (index - safe))

/-- The text of a failure in a document (see the module comment). -/
def Failure.text (raw : String) (f : Failure) : String :=
  match f.span with
  | none => f.message ++ "\n"
  | some span =>
    let bytes := raw.toUTF8.toList
    let (line, column) := position bytes span.start
    let lineNo := toString (line + 1)
    let content := ((raw.splitOn "\n")[line]?).getD ""
    let gutter := String.ofList (List.replicate (lineNo.length + 1) ' ')
    let width := min (span.stop - span.start) (content.utf8ByteSize - column)
    "TOML parse error at line " ++ lineNo ++ ", column " ++ toString (column + 1) ++ "\n" ++
      gutter ++ "|\n" ++
      lineNo ++ " | " ++ content ++ "\n" ++
      gutter ++ "|" ++ String.ofList (List.replicate (column + 1) ' ') ++ "^" ++
        String.ofList (List.replicate (width - 1) '^') ++ "\n" ++
      f.message ++ "\n"

end ModMirror.Toml
