import ModMirror.Json.Value
import ModMirror.Text.Shortest

/-!
# Writing JSON

Two layouts of one value: compact, with no blanks at all, and pretty, with
each item of a non-empty container on its own line, indented by two spaces
per level, and `": "` between a key and its value. Strings escape the quote,
the backslash and the control characters (`\n`, `\t`, `\r`, `\b`, `\f` by
name, the others as `\u00xx` in lowercase hex); everything else is written as
it is. Doubles take their shortest text; a non-finite double is `null`.
-/

namespace ModMirror.Json

def hexDigit (n : Nat) : Char :=
  if n < 10 then Char.ofNat (48 + n) else Char.ofNat (87 + n)

/-- The escaped form of one character inside a string. -/
def escapeChar (c : Char) : List Char :=
  if c = '"' then ['\\', '"']
  else if c = '\\' then ['\\', '\\']
  else if c = '\n' then ['\\', 'n']
  else if c = '\r' then ['\\', 'r']
  else if c = '\t' then ['\\', 't']
  else if c = '\x08' then ['\\', 'b']
  else if c = '\x0c' then ['\\', 'f']
  else if c.toNat < 0x20 then ['\\', 'u', '0', '0', hexDigit (c.toNat / 16), hexDigit (c.toNat % 16)]
  else [c]

def quote (s : String) : String :=
  String.ofList ('"' :: (s.toList.flatMap escapeChar ++ ['"']))

/-- The text of a number. -/
def numberText : JsonNumber → String
  | .nat n => toString n
  | .negInt n => toString n
  | .float x => if x.isFinite then Text.floatText x else "null"

mutual
/-- Compact text. -/
def render : Json → String
  | .null => "null"
  | .bool true => "true"
  | .bool false => "false"
  | .num n => numberText n
  | .str s => quote s
  | .arr xs => "[" ++ renderItems xs ++ "]"
  | .obj fs => "\x7b" ++ renderFields fs ++ "\x7d"

/-- Compact items separated by commas. -/
def renderItems : List Json → String
  | [] => ""
  | [x] => render x
  | x :: xs => render x ++ "," ++ renderItems xs

/-- Compact fields separated by commas. -/
def renderFields : List (String × Json) → String
  | [] => ""
  | [(k, v)] => quote k ++ ":" ++ render v
  | (k, v) :: fs => quote k ++ ":" ++ render v ++ "," ++ renderFields fs
end

/-- Blanks for an indentation of `depth` levels. -/
def indent (depth : Nat) : String := String.ofList (List.replicate (2 * depth) ' ')

mutual
/-- Pretty text at an indentation of `depth` levels. -/
def renderAt (depth : Nat) : Json → String
  | .arr [] => "[]"
  | .obj [] => "\x7b\x7d"
  | .arr (x :: xs) => "[\n" ++ prettyItems (depth + 1) (x :: xs) ++ "\n" ++ indent depth ++ "]"
  | .obj (f :: fs) => "\x7b\n" ++ prettyFields (depth + 1) (f :: fs) ++ "\n" ++ indent depth ++ "\x7d"
  | .null => "null"
  | .bool true => "true"
  | .bool false => "false"
  | .num n => numberText n
  | .str s => quote s

/-- Pretty items, one per line. -/
def prettyItems (depth : Nat) : List Json → String
  | [] => ""
  | [x] => indent depth ++ renderAt depth x
  | x :: xs => indent depth ++ renderAt depth x ++ ",\n" ++ prettyItems depth xs

/-- Pretty fields, one per line. -/
def prettyFields (depth : Nat) : List (String × Json) → String
  | [] => ""
  | [(k, v)] => indent depth ++ quote k ++ ": " ++ renderAt depth v
  | (k, v) :: fs => indent depth ++ quote k ++ ": " ++ renderAt depth v ++ ",\n" ++ prettyFields depth fs
end

def renderPretty (j : Json) : String := renderAt 0 j

end ModMirror.Json
