import ModMirror.Api.Basic
import ModMirror.Path.Relative
import ModMirror.Path.Key
import ModMirror.Config.Format

/-!
# Requests about paths

`path` shows a normal path with its extension, a join and a base stripped;
`sanitize`, `fold_key`, `validate_identifier` and `format` apply one rule each.
-/

namespace ModMirror.Api

/-- A normal path, its extension, and optionally a joined segment and a stripped base. -/
def pathAnswer (req : Json) : Json :=
  let p := NormalPath.ofString (strField req "path")
  let base : List (String × Json) :=
    [("path", .str p.text), ("extension", Json.ofOptString p.extension)]
  let joined := match optStrField req "join" with
    | some seg => [("joined", .str (p.join seg).text)]
    | none => []
  let stripped := match optStrField req "base" with
    | some b => [("strip_base", Json.ofOptString (p.stripBase (NormalPath.ofString b)))]
    | none => []
  .obj (base ++ joined ++ stripped)

/-- The sanitized form of a root-relative path. -/
def sanitizeAnswer (req : Json) : Json :=
  answerOf fsFailure (fun s => .obj [("path", .str s)]) (Path.sanitize (strField req "path"))

def foldKeyAnswer (req : Json) : Json := .obj [("key", .str (Path.foldKey (strField req "path")))]

/-- Whether a name can be one directory entry. -/
def identifierAnswer (req : Json) : Json :=
  answerOf fsFailure (fun _ => .obj [("ok", .bool true)]) (Path.validateIdentifier (strField req "name"))

def formatAnswer (req : Json) : Json :=
  answerOf fsFailure (fun f => .obj [("format", .str f.name)])
    (ConfigFormat.ofPath (NormalPath.ofString (strField req "path")))

end ModMirror.Api
