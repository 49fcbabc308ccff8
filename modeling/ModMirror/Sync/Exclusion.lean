import ModMirror.Glob.Match
import ModMirror.Path.Normal
import ModMirror.Sync.Error

/-!
# Exclusion patterns

An exclusion set is an ordered list of relative glob patterns, compiled
together. Matching ignores ASCII case and always runs against a
forward-slash relative path, with leading `./` and outer slashes removed.

A pattern `dir/**` also names `dir` itself. A pattern that names a directory
excludes its subtree: `matchesPrefix` tests a path and each of its
ancestors, which is what a walk that prunes at the first excluded directory
decides for a flat list of paths.

    matchesPrefix s p = true ↔ some `/`-prefix of p matches
-/

namespace ModMirror

open Text

/-- An ordered, compiled list of exclusion patterns. -/
structure ExclusionSet where
  /-- The patterns as written. -/
  patterns : List String := []
  /-- The compiled globs, two for a pattern ending in `/**`. -/
  globs : List (List Glob.Token) := []
  deriving Inhabited

namespace ExclusionSet

def empty : ExclusionSet := {}

/-- The glob of a pattern, with slashes unified and trailing slashes removed,
or why the pattern can never name a relative path. -/
def checkPattern (pattern : String) : Except SyncError (List Char) :=
  let invalid (reason : String) : Except SyncError (List Char) := .error (.invalidPattern pattern reason)
  let glob := trimEnd '/' (unifySlashes pattern.toList)
  let drive := match glob with
    | c :: ':' :: _ => c.isAlpha
    | _ => false
  if isBlank glob then invalid "pattern is empty"
  else if glob.head? = some '/' || drive then invalid "pattern must be relative"
  else if (glob.splitOn '/').any (· == ['.', '.']) then invalid "pattern must not contain '..'"
  else if containsInfix ['*', '*', '*'] glob then invalid "'***' is not a valid wildcard"
  else .ok glob

/-- The globs a checked pattern compiles to: itself, and for `dir/**` also `dir`. -/
def variants (glob : List Char) : List (List Char) :=
  match stripPrefix? ['*', '*', '/'] glob.reverse with
  | some dirRev => [glob, dirRev.reverse]
  | none => [glob]

/-- Compiles one pattern. -/
def compileOne (pattern : String) : Except SyncError (List (List Glob.Token)) := do
  let glob ← checkPattern pattern
  (variants glob).mapM fun v =>
    match Glob.parse (String.ofList v) with
    | .ok tokens => .ok tokens
    | .error e => .error (.invalidPattern pattern e.message)

/-- Compiles every pattern, failing on the first malformed one. -/
def compile (patterns : List String) : Except SyncError ExclusionSet := do
  let globs ← patterns.mapM compileOne
  pure { patterns, globs := globs.flatten }

def len (s : ExclusionSet) : Nat := s.patterns.length

def isEmpty (s : ExclusionSet) : Bool := s.patterns.isEmpty

/-- A relative path as it is matched: slashes unified, leading `./` and outer slashes removed. -/
def normalize (relative : String) : List Char :=
  trimBoth '/' (trimStartPiece ['.', '/'] (unifySlashes relative.toList))

/-- Whether some glob matches the normalized text. -/
def matchesText (s : ExclusionSet) (text : List Char) : Bool :=
  s.globs.any fun g => Glob.accepts g (String.ofList text)

/-- Whether `relative` itself matches a pattern. -/
def matches? (s : ExclusionSet) (relative : String) : Bool :=
  s.matchesText (normalize relative)

/-- The path and each of its ancestors: every prefix ending before a `/` or at the end. -/
def prefixes (text : List Char) : List (List Char) :=
  let segments := text.splitOn '/'
  (List.range segments.length).map fun k => joinWith '/' (segments.take (k + 1))

/-- Whether `relative` or one of its ancestors matches a pattern. -/
def matchesPrefix (s : ExclusionSet) (relative : String) : Bool :=
  !s.globs.isEmpty && (prefixes (normalize relative)).any s.matchesText

end ExclusionSet

/-- Exclusion sets bound to the directory their patterns are relative to. -/
structure ExclusionMatcher where
  base : NormalPath
  sets : List ExclusionSet

namespace ExclusionMatcher

/-- Also excludes what `set` matches, relative to the same base. -/
def withSet (m : ExclusionMatcher) (set : ExclusionSet) : ExclusionMatcher :=
  { m with sets := m.sets ++ [set] }

/-- Whether a path relative to the base matches. -/
def matches? (m : ExclusionMatcher) (relative : String) : Bool :=
  m.sets.any (·.matches? relative)

/-- The part of a path strictly below the base. -/
def below (m : ExclusionMatcher) (path : NormalPath) : Option String :=
  match path.stripBase m.base with
  | some rel => if rel.isEmpty then none else some rel
  | none => none

/-- Whether a path or one of its ancestors below the base is excluded. -/
def excludesTree (m : ExclusionMatcher) (path : NormalPath) : Bool :=
  match m.below path with
  | some rel => m.sets.any (·.matchesPrefix rel)
  | none => false

/-- Whether an absolute path is excluded; paths outside the base never are. -/
def matchesPath (m : ExclusionMatcher) (path : NormalPath) : Bool :=
  match m.below path with
  | some rel => m.matches? rel
  | none => false

end ExclusionMatcher

end ModMirror
