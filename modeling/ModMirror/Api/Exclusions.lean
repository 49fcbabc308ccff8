import ModMirror.Api.Basic
import ModMirror.Sync.Exclusion

/-!
# Requests about exclusions

`exclusion` compiles patterns and tests relative paths against them;
`matcher` binds sets of patterns to a base and tests absolute and relative
paths.
-/

namespace ModMirror.Api

/-- A compiled set and how each path fares against it. -/
def exclusionAnswer (req : Json) : Json :=
  match ExclusionSet.compile (strListField req "patterns") with
  | .error e => syncFailure e
  | .ok set =>
    let results := (strListField req "paths").map fun p =>
      Json.obj [("path", .str p), ("matches", .bool (set.matches? p)),
        ("matches_prefix", .bool (set.matchesPrefix p))]
    .obj [("patterns", Json.ofStrings set.patterns), ("len", Json.ofNat set.len),
      ("is_empty", .bool set.isEmpty), ("results", .arr results)]

/-- A matcher built from sets of patterns, tested on absolute and relative paths. -/
def matcherAnswer (req : Json) : Json :=
  let base := NormalPath.ofString (strField req "base")
  let groups := (((req.field? "sets").bind Json.arr?).getD []).map fun g =>
    ((Json.arr? g).getD []).filterMap Json.str?
  match groups.mapM ExclusionSet.compile with
  | .error e => syncFailure e
  | .ok sets =>
    let m : ExclusionMatcher := { base, sets }
    let paths := (strListField req "paths").map fun p =>
      let np := NormalPath.ofString p
      Json.obj [("path", .str p), ("matches_path", .bool (m.matchesPath np)),
        ("excludes_tree", .bool (m.excludesTree np))]
    let relative := (strListField req "relative").map fun p =>
      Json.obj [("path", .str p), ("matches", .bool (m.matches? p))]
    .obj [("base", .str base.text), ("paths", .arr paths), ("relative", .arr relative)]

end ModMirror.Api
