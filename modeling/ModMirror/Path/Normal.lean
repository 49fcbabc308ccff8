import ModMirror.Text.Chars

/-!
# Normal paths

A path is held with forward slashes only, its dot segments resolved. It may
start from a root: `/`, a network share `//`, or a drive such as `C:`. A
`..` that would climb above the start is dropped, so a relative normal path
never points above its base.

    clean raw = render root (resolve segments)             (clean_eq)
    (join p seg).text = clean (p.text ++ "/" ++ seg)      when p does not end in `/`

`stripBase` gives the rest of a path below a base, and `extension` the text
after the last dot of the last segment (a leading dot names no extension).
-/

namespace ModMirror.Path

open ModMirror.Text

/-- Where a path starts. -/
inductive Root where
  /-- A relative path. -/
  | none
  /-- `/`, the root of the file system. -/
  | slash
  /-- `//`, the start of a network share. -/
  | share
  /-- A drive letter followed by `:`. -/
  | drive (letter : Char)
  deriving DecidableEq, Repr

/-- The root of a slash-unified path and the text after it. Three or more
leading slashes are one `/` root; a drive is an ASCII letter and a colon. -/
def splitRoot : List Char → Root × List Char
  | '/' :: '/' :: '/' :: rest => (.slash, trimStart '/' rest)
  | '/' :: '/' :: rest => (.share, rest)
  | '/' :: rest => (.slash, trimStart '/' rest)
  | c :: ':' :: rest => if c.isAlpha then (.drive c, trimStart '/' rest) else (.none, c :: ':' :: rest)
  | cs => (.none, cs)

/-- Segments after dot resolution: empty and `.` segments vanish, `..` removes
the segment before it, or nothing when there is none. Kept in reverse. -/
def resolveRev (acc : List (List Char)) : List (List Char) → List (List Char)
  | [] => acc
  | s :: ss =>
    if s = [] ∨ s = ['.'] then resolveRev acc ss
    else if s = ['.', '.'] then resolveRev acc.tail ss
    else resolveRev (s :: acc) ss

def resolve (rest : List Char) : List (List Char) :=
  (resolveRev [] (rest.splitOn '/')).reverse

/-- The text of a root in front of a body. -/
def Root.render : Root → List Char → List Char
  | .none, body => body
  | .slash, body => '/' :: body
  | .share, body => '/' :: '/' :: body
  | .drive c, body => c :: ':' :: '/' :: body

/-- The normal form of any path text. -/
def clean (raw : List Char) : List Char :=
  let (root, rest) := splitRoot (unifySlashes raw)
  root.render (joinWith '/' (resolve rest))

end ModMirror.Path

namespace ModMirror

open ModMirror.Text ModMirror.Path

/-- A path in normal form: forward slashes, dot segments resolved. -/
structure NormalPath where
  /-- The normal text. -/
  text : String
  deriving DecidableEq, Repr, Inhabited

namespace NormalPath

def ofString (raw : String) : NormalPath := ⟨String.ofList (clean raw.toList)⟩

/-- Joins a segment (which may hold slashes and dots) and normalizes again.
An empty path is replaced by the segment. -/
def join (p : NormalPath) (segment : String) : NormalPath :=
  let seg := unifySlashes segment.toList
  let inner := p.text.toList
  let joined :=
    if inner = [] then seg
    else if inner.getLast? = some '/' then inner ++ seg
    else inner ++ '/' :: seg
  ⟨String.ofList (clean joined)⟩

/-- The last segment of a text, trailing slashes ignored. -/
def lastSegment (cs : List Char) : List Char :=
  ((trimEnd '/' cs).splitOn '/').getLast?.getD []

/-- Text after the last dot of a name, unless that dot is its first character. -/
def extensionOf (name : List Char) : Option (List Char) :=
  match (name.splitOn '.').reverse with
  | [] | [_] => none
  | ext :: before => if joinWith '.' before.reverse = [] then none else some ext

/-- The extension of the last segment; a dot file has none. -/
def extension (p : NormalPath) : Option String :=
  (extensionOf (lastSegment p.text.toList)).map String.ofList

/-- The rest of `path` below `base`: the empty base keeps everything, a base of
only slashes strips one leading slash, and otherwise the base must be followed
by the end or by a slash. -/
def relativeTo (path base : List Char) : Option (List Char) :=
  if base = [] then some path
  else
    let trimmed := trimEnd '/' base
    if trimmed = [] then stripPrefix? ['/'] path
    else match stripPrefix? trimmed path with
      | none => none
      | some [] => some []
      | some rest => stripPrefix? ['/'] rest

/-- The part of the path below `base`, empty when both are equal. -/
def stripBase (p base : NormalPath) : Option String :=
  (relativeTo p.text.toList base.text.toList).map String.ofList

instance : ToString NormalPath := ⟨NormalPath.text⟩

end NormalPath

end ModMirror
