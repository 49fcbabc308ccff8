import ModMirror.Fs.Tree
import ModMirror.Config.Format
import ModMirror.Json.Print
import ModMirror.Toml.Decode
import ModMirror.Toml.Print

/-!
# Settings and state files

A file of settings or state is read and written in the format its extension
names. Reading strips a leading byte-order mark and decodes the text by the
value's shape; a file that does not decode is a parse failure naming the
file and the format. Writing is atomic: the parent directory is made, a
`.lock` sidecar is created next to the file, and the new content replaces
the file in one step.

A codec says how values of one type look: their shape for reading, and how
they are written.
-/

namespace ModMirror

/-- How values of a type are read and written. -/
structure Codec (α : Type) where
  shape : Json.Shape
  ofJson : Json → α
  toJson : α → Json
  /-- Whether a `null` in an object is an absent optional field (skipped in
  TOML) rather than a value of its own (refused in TOML). -/
  nullIsAbsent : Bool := true

/-- The text of a file. -/
def readText (t : FileTree) (p : String) : Except FsError String :=
  match t.readFile p with
  | .ok d =>
    match String.fromUTF8? d with
    | some s => .ok s
    | none => .error (.io p (.custom .invalidData "stream did not contain valid UTF-8"))
  | .error e => .error (.io p e)

/-- The sidecar lock path of a file. -/
def lockPathOf (p : String) : String := p ++ ".lock"

/-- Makes the parent directories of a path text. -/
def ensureParent (t : FileTree) (p : String) : Except FsError FileTree :=
  match FileTree.parentText p with
  | some parent => (t.createDirAll parent).mapError (FsError.io parent)
  | none => .ok t

/-- Creates a file if it is missing, leaving an existing one as it is. -/
def touch (t : FileTree) (p : String) : Except IoError FileTree :=
  match t.metadata p with
  | .ok (.file _) => .ok t
  | .ok .dir => .error (.os EISDIR)
  | _ => t.writeFile p ByteArray.empty

/-- Replaces a file's content in one step; a link at the path is replaced, not followed. -/
def replaceContent (t : FileTree) (p : String) (content : ByteArray) : Except FsError FileTree := do
  let r ← (t.resolve p false).mapError (FsError.io p)
  match t.find? r with
  | some .dir => throw (.io p (.os EISDIR))
  | _ => pure (t.put r (.file content))

/-- Writes a file atomically, next to its `.lock` sidecar. -/
def writeAtomic (t : FileTree) (p : String) (content : ByteArray) : Except FsError FileTree := do
  let t ← ensureParent t p
  let t ← (touch t (lockPathOf p)).mapError (FsError.io (lockPathOf p))
  replaceContent t p content

namespace Codec

variable {α : Type}

/-- Decodes the text of a file. -/
def parse (c : Codec α) (fmt : ConfigFormat) (p : String) (text : String) : Except FsError α :=
  let body := match text.toList with
    | '\uFEFF' :: rest => String.ofList rest
    | _ => text
  match fmt with
  | .json =>
    match Json.readText c.shape body with
    | .ok j => .ok (c.ofJson j)
    | .error e => .error (.configParse p .json e.text)
  | .toml =>
    match Toml.readText c.shape body with
    | .ok j => .ok (c.ofJson j)
    | .error m => .error (.configParse p .toml m)

/-- The text of a value in a format. -/
def render (c : Codec α) (fmt : ConfigFormat) (p : String) (v : α) : Except FsError String :=
  match fmt with
  | .json => .ok (Json.renderPretty (c.toJson v))
  | .toml => (Toml.renderPretty c.nullIsAbsent (c.toJson v)).mapError (FsError.configSerialize p .toml)

/-- Loads a file that must exist. -/
def load (c : Codec α) (t : FileTree) (p : NormalPath) : Except FsError α := do
  let fmt ← ConfigFormat.ofPath p
  let text ← readText t p.text
  c.parse fmt p.text text

/-- Loads a file, or nothing when it is absent. -/
def loadIfExists (c : Codec α) (t : FileTree) (p : NormalPath) : Except FsError (Option α) :=
  if t.pathExists p.text then (c.load t p).map some else .ok none

/-- Saves a value in the format its path names. -/
def save (c : Codec α) (t : FileTree) (p : NormalPath) (v : α) : Except FsError FileTree := do
  let fmt ← ConfigFormat.ofPath p
  let text ← c.render fmt p.text v
  writeAtomic t p.text text.toUTF8

/-- Loads a file, first writing `init` to it when it is absent. -/
def loadOrInit (c : Codec α) (t : FileTree) (p : NormalPath) (init : α) : Except FsError (α × FileTree) := do
  match ← c.loadIfExists t p with
  | some v => pure (v, t)
  | none => pure (init, ← c.save t p init)

end Codec

end ModMirror
