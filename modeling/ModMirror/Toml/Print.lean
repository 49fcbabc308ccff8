import ModMirror.Json.Value
import ModMirror.Text.Shortest

/-!
# Writing a value as a TOML document

The value must be an object. Its fields that hold objects become tables
with headers, its fields that hold non-empty arrays of objects become arrays
of tables, and every other field is written as `key = value` at the top of
its table. A table is written after its parent's values, depth first; a
table whose fields are all tables gets no header of its own, while an empty
table keeps one.

Inside a value everything is inline: arrays of two or more items put each on
its own line indented by four spaces, with a comma after each; shorter
arrays stay on one line; objects become `{ k = v, ... }`.

TOML has no null: a `null` field is left out when the value's type marks
absent fields that way (`nullIsAbsent`), and refused otherwise, as are
integers beyond the signed 64-bit range and a top level that is not an
object.
-/

namespace ModMirror.Toml

/-! ## Scalars -/

def hexUpper (n : Nat) : Char := if n < 10 then Char.ofNat (48 + n) else Char.ofNat (55 + n)

/-- A character inside a double-quoted string; a line feed is kept as it is
only in a multi-line string. -/
def escapeBasic (multiline : Bool) (c : Char) : String :=
  if c = '\x08' then "\\b"
  else if c = '\t' then "\\t"
  else if c = '\n' then (if multiline then "\n" else "\\n")
  else if c = '\x0c' then "\\f"
  else if c = '\r' then "\\r"
  else if c = '"' then "\\\""
  else if c = '\\' then "\\\\"
  else if c.toNat ≤ 0x1F || c.toNat = 0x7F then
    "\\u" ++ String.ofList ((List.range 4).reverse.map fun i => hexUpper (c.toNat / Nat.pow 16 i % 16))
  else c.toString

/-- Whether a character needs an escape in any string. -/
def isControl (c : Char) : Bool := c.toNat ≤ 0x1F || c.toNat = 0x7F

/-- The longest run of apostrophes in a text. -/
def longestQuoteRun (s : String) : Nat :=
  (s.toList.foldl (fun (best, run) c => if c = '\'' then (max best (run + 1), run + 1) else (best, 0)) (0, 0)).1

/-- Whether a text is written as a literal (between apostrophes): it has a
backslash, which a literal keeps without an escape, and it can be one: no
run of three apostrophes, no control character but tab and line feed, and no
apostrophe at its end. -/
def prefersLiteral (s : String) : Bool :=
  s.toList.contains '\\' && longestQuoteRun s < 3 &&
    !(s.toList.any fun c => c != '\t' && c != '\n' && isControl c) &&
    !(s.endsWith "'")

/-- How a string is written: as a literal when `prefersLiteral`, otherwise
double-quoted with escapes; on several lines (between triple quotes) when it
has a line feed; a one-line literal with an apostrophe in it takes triple
apostrophes. -/
def stringText (s : String) : String :=
  let multiline := s.toList.contains '\n'
  let literal := prefersLiteral s
  if literal then
    if multiline then "'''\n" ++ s ++ "'''"
    else if s.toList.contains '\'' then "'''" ++ s ++ "'''"
    else "'" ++ s ++ "'"
  else if multiline then "\"\"\"\n" ++ String.join (s.toList.map (escapeBasic true)) ++ "\"\"\""
  else "\"" ++ String.join (s.toList.map (escapeBasic false)) ++ "\""

/-- A key: bare when it is letters, digits, `-` and `_`, otherwise quoted on
one line, between apostrophes when `prefersLiteral` (the text is then kept
as it is) and double-quoted with escapes otherwise. -/
def keyText (k : String) : String :=
  if !k.isEmpty && k.toList.all (fun c => c.isAlphanum || c = '-' || c = '_') && k.toList.all (·.toNat < 128) then k
  else if prefersLiteral k then "'" ++ k ++ "'"
  else "\"" ++ String.join (k.toList.map (escapeBasic false)) ++ "\""

/-- A float: `nan`, `inf`, or its positional digits, with `.0` on a whole number. -/
def floatText (x : Float) : String :=
  if x.isNaN then "nan"
  else if x.isInf then (if x < 0 then "-inf" else "inf")
  else Text.floatWithPoint x

/-! ## Values -/

mutual
/-- A value written inline. -/
def valueText : Json → String
  | .null => ""
  | .bool b => if b then "true" else "false"
  | .num (.nat n) => toString n
  | .num (.negInt n) => toString n
  | .num (.float x) => floatText x
  | .str s => stringText s
  | .arr [] => "[]"
  | .arr [x] => "[" ++ valueText x ++ "]"
  | .arr (x :: y :: zs) => "[" ++ lineItems (x :: y :: zs) ++ "\n]"
  | .obj [] => "\x7b\x7d"
  | .obj (f :: fs) => "\x7b " ++ inlineFields (f :: fs) ++ " \x7d"

/-- Array items, each on its own line and followed by a comma. -/
def lineItems : List Json → String
  | [] => ""
  | x :: xs => "\n    " ++ valueText x ++ "," ++ lineItems xs

/-- Fields of an inline table, separated by commas. -/
def inlineFields : List (String × Json) → String
  | [] => ""
  | [(k, v)] => keyText k ++ " = " ++ valueText v
  | (k, v) :: fs => keyText k ++ " = " ++ valueText v ++ ", " ++ inlineFields fs
end

/-! ## Checking what can be written -/

mutual
/-- A value that can be written, its absent fields dropped. -/
def writable (nullIsAbsent : Bool) : Json → Except String Json
  | .null => .error (if nullIsAbsent then "unsupported None value" else "unsupported unit type")
  | .num (.nat n) => if n < Nat.pow 2 63 then .ok (.num (.nat n)) else .error "out-of-range value for u64 type"
  | .arr xs => (writableItems nullIsAbsent xs).map .arr
  | .obj fs => (writableFields nullIsAbsent fs).map .obj
  | j => .ok j

/-- Items that can be written; an item cannot be absent. -/
def writableItems (nullIsAbsent : Bool) : List Json → Except String (List Json)
  | [] => .ok []
  | x :: xs => do
    let x ← writable nullIsAbsent x
    return x :: (← writableItems nullIsAbsent xs)

/-- Fields that can be written, absent ones dropped. -/
def writableFields (nullIsAbsent : Bool) : List (String × Json) → Except String (List (String × Json))
  | [] => .ok []
  | (_, .null) :: fs =>
    if nullIsAbsent then writableFields nullIsAbsent fs else .error "unsupported unit type"
  | (k, v) :: fs => do
    let v ← writable nullIsAbsent v
    return (k, v) :: (← writableFields nullIsAbsent fs)
end

/-! ## Tables -/

/-- Whether a field becomes a table or an array of tables. -/
def isTableField : Json → Bool
  | .obj _ => true
  | .arr (x :: xs) => (x :: xs).all fun
    | .obj _ => true
    | _ => false
  | _ => false

/-- One table of the document: its path, whether it belongs to an array of
tables, its fields other than tables, and whether it has no fields at all. -/
structure Section where
  path : List String
  inArray : Bool
  values : List (String × Json)
  empty : Bool

def sectionOf (path : List String) (inArray : Bool) (fs : List (String × Json)) : Section :=
  { path, inArray, values := fs.filter fun (_, v) => !isTableField v, empty := fs.isEmpty }

mutual
/-- The sections below a table's fields, depth first. -/
def fieldSections (path : List String) : List (String × Json) → List Section
  | [] => []
  | (k, .obj gs) :: fs =>
    sectionOf (path ++ [k]) false gs :: fieldSections (path ++ [k]) gs ++ fieldSections path fs
  | (k, .arr xs) :: fs =>
    (if isTableField (.arr xs) then arraySections (path ++ [k]) xs else []) ++ fieldSections path fs
  | _ :: fs => fieldSections path fs

/-- The sections of an array of tables, each with those below it. -/
def arraySections (path : List String) : List Json → List Section
  | [] => []
  | .obj gs :: xs => sectionOf path true gs :: fieldSections path gs ++ arraySections path xs
  | _ :: xs => arraySections path xs
end

/-- `key = value` lines. -/
def valueLines (fs : List (String × Json)) : String :=
  String.join (fs.map fun (k, v) => keyText k ++ " = " ++ valueText v ++ "\n")

/-- A document from the fields of its top level. A section gets a header
unless it has only tables below it; every header but the document's first
line is preceded by an empty line. -/
def documentText (fs : List (String × Json)) : String :=
  let top := (sectionOf [] false fs).values
  let (text, _) := (fieldSections [] fs).foldl (fun (text, first) s =>
      let dotted := ".".intercalate (s.path.map keyText)
      let gap := if first then "" else "\n"
      if s.inArray then (text ++ gap ++ "[[" ++ dotted ++ "]]\n" ++ valueLines s.values, false)
      else if s.values.isEmpty && !s.empty then (text, first)
      else (text ++ gap ++ "[" ++ dotted ++ "]\n" ++ valueLines s.values, false))
    (valueLines top, top.isEmpty)
  text

/-- Writes a value as a document; the failure is the writer's message. -/
def renderPretty (nullIsAbsent : Bool) (j : Json) : Except String String := do
  match ← writable nullIsAbsent j with
  | .obj fs => pure (documentText fs)
  | _ => .error "unsupported rust type"

end ModMirror.Toml
