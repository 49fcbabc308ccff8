import ModMirror.Path.Normal

/-!
# Media types of served files

A served file's media type is read off its extension, compared without
regard to ASCII case; a file with no known extension is sent as bytes.
-/

namespace ModMirror.Net

/-- Media types by extension (lower case). -/
def mediaTypes : List (String × String) := [
  ("7z", "application/x-7z-compressed"),
  ("bmp", "image/bmp"),
  ("cfg", "text/plain"),
  ("conf", "text/plain"),
  ("css", "text/css"),
  ("csv", "text/csv"),
  ("dll", "application/x-msdownload"),
  ("exe", "application/octet-stream"),
  ("gif", "image/gif"),
  ("htm", "text/html"),
  ("html", "text/html"),
  ("ico", "image/x-icon"),
  ("jpeg", "image/jpeg"),
  ("jpg", "image/jpeg"),
  ("js", "text/javascript"),
  ("json", "application/json"),
  ("log", "text/plain"),
  ("mp3", "audio/mpeg"),
  ("pdf", "application/pdf"),
  ("png", "image/png"),
  ("svg", "image/svg+xml"),
  ("tar", "application/x-tar"),
  ("txt", "text/plain"),
  ("wav", "audio/wav"),
  ("xml", "text/xml"),
  ("zip", "application/zip")
]

/-- The type of bytes with no known type. -/
def octetStream : String := "application/octet-stream"

/-- The media type of a file path. -/
def mediaTypeOf (path : String) : String :=
  match (NormalPath.ofString path).extension with
  | some ext => (mediaTypes.lookup (String.ofList (ext.toList.map Char.toLower))).getD octetStream
  | none => octetStream

end ModMirror.Net
