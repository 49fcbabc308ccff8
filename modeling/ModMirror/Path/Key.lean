import ModMirror.Text.Chars
import ModMirror.Text.Lower

/-!
# Path keys

Two paths name the same entry when their keys agree: the key of a path is its
text with backslashes read as slashes and every letter in lowercase. Catalogs,
sync-path lists and toggles compare paths by key.

    foldKey p = lowerString (p with `\` as `/`)
-/

namespace ModMirror.Path

/-- The case- and separator-insensitive key of a path. -/
def foldKey (path : String) : String :=
  String.ofList (Text.lowerList (Text.unifySlashes path.toList))

end ModMirror.Path
