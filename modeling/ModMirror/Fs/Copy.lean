import ModMirror.Fs.Tree

/-!
# Copying directory trees

A directory is copied entry by entry, each directory before what it holds.
Directories are made at the destination; a file is copied after its parent
directories are made. A link is not walked into: what it points to is
copied as a plain file, so a link to a directory, or one that points
nowhere, fails the copy.

    (copyDirAll t src dst).map Prod.fst = number of files and links below src
-/

namespace ModMirror

namespace FileTree

/-- The paths below a directory in copy order, each with whether it is a real
directory (links are not followed). -/
def entriesBelow (t : FileTree) (names : List String) : Nat → List (List String × Bool)
  | 0 => []
  | fuel + 1 =>
    (t.childNames names).flatMap fun name =>
      let here := names ++ [name]
      match t.find? here with
      | some .dir => (here, true) :: t.entriesBelow here fuel
      | _ => [(here, false)]

/-- Copies the file a path names (links followed) to `dst`. -/
def copyFile (t : FileTree) (src dst : String) : Except FsError FileTree :=
  match t.metadata src with
  | .ok (.file _) => do
    let data ← (t.readFile src).mapError (FsError.io dst)
    (t.writeFile dst data).mapError (FsError.io dst)
  | .ok _ =>
    .error (.io dst (.custom .invalidInput "the source path is neither a regular file nor a symlink to a regular file"))
  | .error e => .error (.io dst e)

/-- Makes the parent directories of a path. -/
def makeParent (t : FileTree) (p : String) : Except FsError FileTree :=
  match parentText p with
  | some parent => (t.createDirAll parent).mapError (FsError.io parent)
  | none => .ok t

/-- Copies a directory tree into `dst`, made if missing; how many files were copied. -/
def copyDirAll (t : FileTree) (src dst : String) : Except FsError (Nat × FileTree) := do
  let t ← (t.createDirAll dst).mapError (FsError.io dst)
  let root ← (t.resolve src true).mapError (FsError.io src)
  let items := t.entriesBelow root (t.entries.length + 1)
  items.foldlM (fun (n, t) (names, isDir) => do
    let rel := "/".intercalate (names.drop root.length)
    let source := nativeOf names
    let target := dst ++ "/" ++ rel
    if isDir then
      let t ← (t.createDirAll target).mapError (FsError.io target)
      pure (n, t)
    else
      let t ← t.makeParent target
      let t ← t.copyFile source target
      pure (n + 1, t)) (0, t)

end FileTree

end ModMirror
