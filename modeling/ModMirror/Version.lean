/-!
# Semantic versions

A version is `major.minor.patch`, optionally followed by `-` and a
pre-release tag and by `+` and build metadata; the tags are dot-separated
identifiers of ASCII letters, digits and hyphens. Numbers have no leading
zeros, and a numeric pre-release identifier has none either.

Versions are ordered by their numbers, then by the pre-release tag (a release
comes after all of its pre-releases; numeric identifiers compare by value and
come before alphanumeric ones), then by build metadata.

    Version.parse (v.render) = .ok v   for every version read by `parse`
-/

namespace ModMirror

/-- A semantic version; tags are kept as written, empty when absent. -/
structure Version where
  major : Nat
  minor : Nat
  patch : Nat
  pre : String := ""
  build : String := ""
  deriving DecidableEq, Repr, Inhabited

namespace Version

/-- The part of a version being read when a fault is found. -/
inductive Part where
  | major | minor | patch | pre | build
  deriving DecidableEq, Repr

/-- How the part is named in messages. -/
def Part.label : Part → String
  | .major => "major version number"
  | .minor => "minor version number"
  | .patch => "patch version number"
  | .pre => "pre-release identifier"
  | .build => "build metadata"

/-- Why a text is not a version. -/
inductive ParseError where
  | empty
  | unexpectedEnd (part : Part)
  | leadingZero (part : Part)
  | overflow (part : Part)
  | emptySegment (part : Part)
  | unexpectedChar (part : Part) (c : Char)
  | unexpectedCharAfter (part : Part) (c : Char)
  deriving DecidableEq, Repr

/-- A character between single quotes, a NUL written as `\0`. -/
def quoteChar (c : Char) : String :=
  if c = '\x00' then "'\\0'"
  else if c = '\'' then "'\\''"
  else if c = '\\' then "'\\\\'"
  else if c = '\n' then "'\\n'"
  else if c = '\t' then "'\\t'"
  else if c = '\r' then "'\\r'"
  else String.ofList ['\'', c, '\'']

/-- The message of a fault. -/
def ParseError.message : ParseError → String
  | .empty => "empty string, expected a semver version"
  | .unexpectedEnd p => "unexpected end of input while parsing " ++ p.label
  | .leadingZero p => "invalid leading zero in " ++ p.label
  | .overflow p => "value of " ++ p.label ++ " exceeds u64::MAX"
  | .emptySegment p => "empty identifier segment in " ++ p.label
  | .unexpectedChar p c => "unexpected character " ++ quoteChar c ++ " while parsing " ++ p.label
  | .unexpectedCharAfter p c => "unexpected character " ++ quoteChar c ++ " after " ++ p.label

/-- Reads the digits of a number at the front of `cs`. -/
def number (part : Part) (cs : List Char) : Except ParseError (Nat × List Char) :=
  let digits := cs.takeWhile Char.isDigit
  let rest := cs.dropWhile Char.isDigit
  match digits with
  | [] =>
    match cs with
    | c :: _ => .error (.unexpectedChar part c)
    | [] => .error (.unexpectedEnd part)
  | d :: ds =>
    if d = '0' ∧ ds ≠ [] then .error (.leadingZero part)
    else
      let value := (d :: ds).foldl (fun n c => 10 * n + (c.toNat - 48)) 0
      if value ≥ Nat.pow 2 64 then .error (.overflow part) else .ok (value, rest)

/-- Expects a dot after a part. -/
def dot (part : Part) : List Char → Except ParseError (List Char)
  | '.' :: rest => .ok rest
  | c :: _ => .error (.unexpectedCharAfter part c)
  | [] => .error (.unexpectedEnd part)

/-- A character allowed in a tag identifier. -/
def tagChar (c : Char) : Bool := c.isAlpha || c.isDigit || c = '-'

/-- Reads dot-separated identifiers; the text and the rest. A numeric
pre-release identifier with a leading zero is refused. -/
def identifiers (part : Part) (cs : List Char) : Except ParseError (List Char × List Char) :=
  go cs [] true (cs.length + 1)
where
  go (cs : List Char) (acc : List Char) (first : Bool) : Nat → Except ParseError (List Char × List Char)
    | 0 => .ok (acc, cs)
    | fuel + 1 =>
      let seg := cs.takeWhile tagChar
      let rest := cs.dropWhile tagChar
      if seg = [] then
        if first && rest.head? ≠ some '.' then .ok ([], cs)
        else .error (.emptySegment part)
      else if part = .pre && seg.length > 1 && seg.all Char.isDigit && seg.head? = some '0' then
        .error (.leadingZero part)
      else
        let acc' := if first then seg else acc ++ '.' :: seg
        match rest with
        | '.' :: more => go more acc' false fuel
        | _ => .ok (acc', rest)

/-- Reads a version. -/
def parse (text : String) : Except ParseError Version := do
  let cs := text.toList
  if cs = [] then throw .empty
  let (major, cs) ← number .major cs
  let cs ← dot .major cs
  let (minor, cs) ← number .minor cs
  let cs ← dot .minor cs
  let (patch, cs) ← number .patch cs
  if cs = [] then return { major, minor, patch }
  let (part, pre, cs) ← match cs with
    | '-' :: more => do
      let (pre, rest) ← identifiers .pre more
      if pre = [] then throw (.emptySegment .pre)
      pure (Part.pre, pre, rest)
    | _ => pure (Part.patch, [], cs)
  let (part, build, cs) ← match cs with
    | '+' :: more => do
      let (build, rest) ← identifiers .build more
      if build = [] then throw (.emptySegment .build)
      pure (Part.build, build, rest)
    | _ => pure (part, [], cs)
  match cs with
  | c :: _ => throw (.unexpectedCharAfter part c)
  | [] => return { major, minor, patch, pre := String.ofList pre, build := String.ofList build }

/-- The text of a version. -/
def render (v : Version) : String :=
  toString v.major ++ "." ++ toString v.minor ++ "." ++ toString v.patch ++
    (if v.pre = "" then "" else "-" ++ v.pre) ++
    (if v.build = "" then "" else "+" ++ v.build)

/-- Whether an identifier has only digits (the empty one counts). -/
def numeric (s : String) : Bool := s.toList.all Char.isDigit

/-- Order of two pre-release identifiers. -/
def compareIdent (a b : String) : Ordering :=
  match numeric a, numeric b with
  | true, true => (compare a.length b.length).then (compare a b)
  | true, false => .lt
  | false, true => .gt
  | false, false => compare a b

/-- Order of two build identifiers: numeric ones by value, then by length. -/
def compareBuildIdent (a b : String) : Ordering :=
  match numeric a, numeric b with
  | true, true =>
    let a' := String.ofList (a.toList.dropWhile (· = '0'))
    let b' := String.ofList (b.toList.dropWhile (· = '0'))
    ((compare a'.length b'.length).then (compare a' b')).then (compare a.length b.length)
  | true, false => .lt
  | false, true => .gt
  | false, false => compare a b

/-- Lexicographic order of identifier lists; a longer list wins a tie. -/
def compareIdents (cmp : String → String → Ordering) : List String → List String → Ordering
  | [], [] => .eq
  | [], _ :: _ => .lt
  | _ :: _, [] => .gt
  | a :: as, b :: bs =>
    match cmp a b with
    | .eq => compareIdents cmp as bs
    | o => o

/-- Order of pre-release tags: no tag is the greatest. -/
def comparePre (a b : String) : Ordering :=
  if a = "" ∧ b = "" then .eq
  else if a = "" then .gt
  else if b = "" then .lt
  else compareIdents compareIdent (a.splitOn ".") (b.splitOn ".")

def cmp (v w : Version) : Ordering :=
  (compare v.major w.major).then <| (compare v.minor w.minor).then <| (compare v.patch w.patch).then <|
    (comparePre v.pre w.pre).then (compareIdents compareBuildIdent (v.build.splitOn ".") (w.build.splitOn "."))

/-- `v` is not above `w`. -/
def le (v w : Version) : Bool := cmp v w != .gt

end Version

end ModMirror
