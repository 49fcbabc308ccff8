import ModMirror.Path.Normal
import ModMirror.Fs.Error

/-!
# Configuration formats

A settings or state file is JSON or TOML, chosen by the extension of its path
compared without regard to ASCII case; any other extension, or none, is
refused and named as written.
-/

namespace ModMirror.ConfigFormat

/-- The format named by a path's extension. -/
def ofPath (p : NormalPath) : Except FsError ConfigFormat :=
  let ext := p.extension.getD ""
  let lower := String.ofList (ext.toList.map Char.toLower)
  if lower = "json" then .ok .json
  else if lower = "toml" then .ok .toml
  else .error (.unsupportedFormat ext)

end ModMirror.ConfigFormat
