import ModMirror.Api.Content
import ModMirror.Fs.Tree

/-!
# Trees in requests and answers

A request describes a tree as directories, files with their content and
links with their targets, all relative to a base directory; they are made in
that order, parents first. An answer lists every entry below a directory
with `/` as its only separator: directories sorted by byte order, and each file as its text, its bytes in
hexadecimal, or its length and fingerprint when it is large; a link is listed
with its target and not followed.
-/

namespace ModMirror.Api

/-- Makes the parent directories of a path. -/
def makeParents (t : FileTree) (p : String) : Except IoError FileTree :=
  match FileTree.parentText p with
  | some parent => t.createDirAll parent
  | none => .ok t

/-- Adds a described tree below `base`. -/
def buildTree (t : FileTree) (base : String) (spec : Json) : Except IoError FileTree := do
  let under (rel : String) := base ++ "/" ++ rel
  let t ← (strListField spec "dirs").foldlM (fun t d => t.createDirAll (under d)) t
  let files := ((spec.field? "files").bind Json.obj?).getD []
  let t ← files.foldlM (fun t (rel, c) => do
    let t ← makeParents t (under rel)
    t.writeFile (under rel) ((contentOf c).getD ByteArray.empty)) t
  let links := ((spec.field? "links").bind Json.obj?).getD []
  links.foldlM (fun t (rel, target) => do
    let t ← makeParents t (under rel)
    t.symlink ((target.str?).getD "") (under rel)) t

def hexText (b : ByteArray) : String := Digest.hexOf b

/-- How a file's content is shown. -/
def contentRepr (data : ByteArray) : Json :=
  if data.size ≤ 4096 then
    match String.fromUTF8? data with
    | some s => .str s
    | none => .obj [("hex", .str (hexText data))]
  else .obj [("len", Json.ofNat data.size), ("fingerprint", .str (fingerprint {} data))]

/-- Every entry below a directory (given by its resolved names), with `/`
between names and in place of a backslash within one. -/
def listTree (t : FileTree) (dir : List String) : Json :=
  let below := t.entries.filterMap fun (q, n) =>
    match afterPrefix dir q with
    | some [] => none
    | some rest => some ("/".intercalate (rest.map (·.map Text.slashOf)), n)
    | none => none
  let dirs := (below.filterMap fun (rel, n) => match n with
    | .dir => some rel
    | _ => none).mergeSort fun a b => decide (a ≤ b)
  let files := below.filterMap fun (rel, n) => match n with
    | .file d => some (rel, contentRepr d)
    | .link target => some (rel, .obj [("link", .str target)])
    | .dir => none
  .obj [("files", .obj (Json.sortFields files)), ("dirs", Json.ofStrings dirs)]

/-- Every entry below a directory given by its path text; nothing when it is missing. -/
def listing (t : FileTree) (p : String) : Json :=
  match t.resolve p true with
  | .ok r => if t.isDir p then listTree t r else .obj [("files", .obj []), ("dirs", .arr [])]
  | .error _ => .obj [("files", .obj []), ("dirs", .arr [])]

/-- Writes a file below a base, making its parents. -/
def writeBelow (t : FileTree) (base rel : String) (content : ByteArray) : Except FsError FileTree := do
  let p := base ++ "/" ++ rel
  let t ← (makeParents t p).mapError (FsError.io p)
  (t.writeFile p content).mapError (FsError.io p)

/-- Makes a directory below a base, with its parents. -/
def mkdirBelow (t : FileTree) (base rel : String) : Except FsError FileTree :=
  let p := base ++ "/" ++ rel
  (t.createDirAll p).mapError (FsError.io p)

/-- Deletes a file, link or directory tree below a base; whether there was one. -/
def deleteBelow (t : FileTree) (base rel : String) : Except FsError (Bool × FileTree) :=
  let p := base ++ "/" ++ rel
  match t.symlinkMetadata p with
  | .error _ => .ok (false, t)
  | .ok .dir => (t.removeDirAll p).map (true, ·) |>.mapError (FsError.io p)
  | .ok _ => (t.removeFile p).map (true, ·) |>.mapError (FsError.io p)

/-- Applies a tree-editing step (`write`, `mkdir`, `delete`) below a base. -/
def editStep (t : FileTree) (base : String) (step : Json) : Option (FileTree × Json) :=
  let rel := strField step "path"
  match strField step "op" with
  | "write" =>
    some (match writeBelow t base rel ((((step.field? "content").bind contentOf)).getD ByteArray.empty) with
      | .ok t' => (t', .null)
      | .error e => (t, fsFailure e))
  | "mkdir" =>
    some (match mkdirBelow t base rel with
      | .ok t' => (t', .null)
      | .error e => (t, fsFailure e))
  | "delete" =>
    some (match deleteBelow t base rel with
      | .ok (b, t') => (t', .bool b)
      | .error e => (t, fsFailure e))
  | _ => none

end ModMirror.Api
