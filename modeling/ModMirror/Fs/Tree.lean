import ModMirror.Fs.Error
import ModMirror.Text.Chars

/-!
# An in-memory file tree

The files the library touches live in one directory tree below a root
written `$ROOT`. An entry is a file with its bytes, a directory, or a
symbolic link with its target text. Paths are texts: `$ROOT` itself, or
`$ROOT/` followed by names; other absolute paths lie outside the tree and
hold nothing.

Paths resolve as an operating system resolves them: `.` is skipped, `..`
goes to the parent of what has been resolved so far, and a link met on the
way is replaced by its target (read relative to the link's directory), at
most forty times. A missing intermediate directory is `ENOENT`, a file used
as a directory `ENOTDIR`, and too many links `ELOOP`. Each operation fails
with the error number the system call it stands for would give.

    (t.writeFile p d).bind (·.readFile p) = .ok d   when the parent of p is a directory
-/

namespace ModMirror

/-- An entry of the tree. -/
inductive Node where
  | file (data : ByteArray)
  | dir
  | link (target : String)
  deriving Inhabited

/-- What a path holds, links followed or not. -/
inductive EntryKind where
  | file (size : Nat)
  | dir
  | link (target : String)
  deriving DecidableEq, Repr

/-- The text naming the root of the tree. -/
def treeRoot : String := "$ROOT"

/-- The text of a path given by its names below the root. -/
def nativeOf (names : List String) : String := names.foldl (fun acc n => acc ++ "/" ++ n) treeRoot

/-- The names of a path text below the root, if it lies inside the tree;
empty names are dropped. -/
def namesOf (p : String) : Option (List String) :=
  let cs := p.toList
  match Text.stripPrefix? treeRoot.toList cs with
  | some [] => some []
  | some ('/' :: rest) => some (((rest.splitOn '/').map String.ofList).filter (· ≠ ""))
  | _ => none

/-- Error numbers of the failures the tree reports. -/
def ENOENT : Nat := 2
def EEXIST : Nat := 17
def ENOTDIR : Nat := 20
def EISDIR : Nat := 21
def EINVAL : Nat := 22
def ENOTEMPTY : Nat := 39
def ELOOP : Nat := 40

/-- A directory tree: each entry under its names below the root. The root is
always a directory and has no entry. -/
structure FileTree where
  entries : List (List String × Node) := []
  deriving Inhabited

/-- The rest of a list after a prefix, if it starts with it. -/
def afterPrefix {α : Type} [DecidableEq α] : List α → List α → Option (List α)
  | [], xs => some xs
  | _ :: _, [] => none
  | p :: ps, x :: xs => if p = x then afterPrefix ps xs else none

namespace FileTree

def find? (t : FileTree) (path : List String) : Option Node :=
  if path = [] then some .dir else t.entries.lookup path

def put (t : FileTree) (path : List String) (n : Node) : FileTree :=
  { entries := (t.entries.filter (·.1 ≠ path)) ++ [(path, n)] }

/-- Removes the entry at a path and everything below it. -/
def drop (t : FileTree) (path : List String) : FileTree :=
  { entries := t.entries.filter fun (q, _) => !(path.isPrefixOf q) }

/-- The names directly below a directory, as a directory lists them: the
newest entry first. -/
def childNames (t : FileTree) (path : List String) : List String :=
  (t.entries.filterMap fun (q, _) =>
    if q.length = path.length + 1 && path.isPrefixOf q then q.getLast? else none).reverse

/-- The names of a link target, and whether they start from the root;
none when the target lies outside the tree. -/
def targetNames (target : String) : Option (Bool × List String) :=
  if target.startsWith "/" || target.startsWith treeRoot then (namesOf target).map fun ns => (true, ns)
  else some (false, (target.splitOn "/").filter (· ≠ ""))

/-- Resolves names from the resolved directory `done`; the final name is
followed when it is a link only if `follow`. The result is the resolved
path, or none when it leaves the tree. -/
def walk (t : FileTree) (follow : Bool) : List String → List String → Nat → Except IoError (Option (List String))
  | done, [], _ => .ok (some done)
  | done, "." :: rest, fuel => walk t follow done rest fuel
  | done, ".." :: rest, fuel => if done = [] then .ok none else walk t follow done.dropLast rest fuel
  | done, name :: rest, fuel =>
    let here := done ++ [name]
    match t.find? here with
    | none => if rest.isEmpty then .ok (some here) else .error (.os ENOENT)
    | some .dir => walk t follow here rest fuel
    | some (.file _) => if rest.isEmpty then .ok (some here) else .error (.os ENOTDIR)
    | some (.link target) =>
      if rest.isEmpty && !follow then .ok (some here)
      else match fuel with
        | 0 => .error (.os ELOOP)
        | f + 1 =>
          match targetNames target with
          | none => .ok none
          | some (true, ns) => walk t follow [] (ns ++ rest) f
          | some (false, ns) => walk t follow done (ns ++ rest) f
termination_by _ rest fuel => (fuel, rest.length)

/-- The resolved path of a path text, which must lie inside the tree. -/
def resolve (t : FileTree) (p : String) (follow : Bool) : Except IoError (List String) :=
  match namesOf p with
  | none => .error (.os ENOENT)
  | some ns =>
    match walk t follow [] ns 40 with
    | .ok (some r) => .ok r
    | .ok none => .error (.os ENOENT)
    | .error e => .error e

/-- What a path holds, links followed. -/
def metadata (t : FileTree) (p : String) : Except IoError EntryKind := do
  let r ← t.resolve p true
  match t.find? r with
  | some (.file d) => pure (.file d.size)
  | some .dir => pure .dir
  | some (.link target) => pure (.link target)
  | none => throw (.os ENOENT)

/-- What a path holds, a final link not followed. -/
def symlinkMetadata (t : FileTree) (p : String) : Except IoError EntryKind := do
  let r ← t.resolve p false
  match t.find? r with
  | some (.file d) => pure (.file d.size)
  | some .dir => pure .dir
  | some (.link target) => pure (.link target)
  | none => throw (.os ENOENT)

/-- Whether a path names something, links followed. -/
def pathExists (t : FileTree) (p : String) : Bool := (t.metadata p).toBool

/-- Whether a path names a directory, links followed. -/
def isDir (t : FileTree) (p : String) : Bool :=
  match t.metadata p with
  | .ok .dir => true
  | _ => false

/-- Whether a path names a file, links followed. -/
def isFile (t : FileTree) (p : String) : Bool :=
  match t.metadata p with
  | .ok (.file _) => true
  | _ => false

/-- The bytes of a file. -/
def readFile (t : FileTree) (p : String) : Except IoError ByteArray := do
  let r ← t.resolve p true
  match t.find? r with
  | some (.file d) => pure d
  | some .dir => throw (.os EISDIR)
  | _ => throw (.os ENOENT)

/-- Whether the parent of a resolved path is a directory. -/
def parentIsDir (t : FileTree) (r : List String) : Except IoError Unit :=
  match t.find? r.dropLast with
  | some .dir => .ok ()
  | some _ => .error (.os ENOTDIR)
  | none => .error (.os ENOENT)

/-- Creates or truncates a file with the given bytes. -/
def writeFile (t : FileTree) (p : String) (data : ByteArray) : Except IoError FileTree := do
  let r ← t.resolve p true
  match t.find? r with
  | some .dir => throw (.os EISDIR)
  | _ =>
    t.parentIsDir r
    pure (t.put r (.file data))

/-- Creates one directory. -/
def createDir (t : FileTree) (p : String) : Except IoError FileTree := do
  let r ← t.resolve p false
  match t.find? r with
  | some _ => throw (.os EEXIST)
  | none =>
    t.parentIsDir r
    pure (t.put r .dir)

/-- The text of a path's parent, none for the root or a bare name. -/
def parentText (p : String) : Option String :=
  match (p.toList.splitOn '/').dropLast with
  | [] => none
  | parts => some (String.ofList (Text.joinWith '/' parts))

/-- Creates a directory and every missing parent. -/
def createDirAll (t : FileTree) (p : String) : Except IoError FileTree :=
  go p (p.length + 1)
where
  go (p : String) : Nat → Except IoError FileTree
    | 0 => .error (.os ENOENT)
    | fuel + 1 =>
      match t.createDir p with
      | .ok t' => .ok t'
      | .error e =>
        if e = .os ENOENT then
          match parentText p with
          | none => .error e
          | some parent =>
            match go parent fuel with
            | .error e' => .error e'
            | .ok t' =>
              match t'.createDir p with
              | .ok t'' => .ok t''
              | .error e'' => if t'.isDir p then .ok t' else .error e''
        else if t.isDir p then .ok t
        else .error e

/-- Creates symbolic link `p` with a target text. -/
def symlink (t : FileTree) (target p : String) : Except IoError FileTree := do
  let r ← t.resolve p false
  match t.find? r with
  | some _ => throw (.os EEXIST)
  | none =>
    t.parentIsDir r
    pure (t.put r (.link target))

/-- Removes a file or link. -/
def removeFile (t : FileTree) (p : String) : Except IoError FileTree := do
  let r ← t.resolve p false
  match t.find? r with
  | some .dir => throw (.os EISDIR)
  | some _ => pure (t.drop r)
  | none => throw (.os ENOENT)

/-- Removes a directory and everything below it; a link is removed itself. -/
def removeDirAll (t : FileTree) (p : String) : Except IoError FileTree := do
  let r ← t.resolve p false
  match t.find? r with
  | some .dir => if r = [] then throw (.os EINVAL) else pure (t.drop r)
  | some (.link _) => pure (t.drop r)
  | some (.file _) => throw (.os ENOTDIR)
  | none => throw (.os ENOENT)

/-- The entries directly below a directory, sorted by name, with their resolved paths. -/
def readDir (t : FileTree) (p : String) : Except IoError (List (String × List String)) := do
  let r ← t.resolve p true
  match t.find? r with
  | some .dir => pure ((t.childNames r).map fun n => (n, r ++ [n]))
  | some _ => throw (.os ENOTDIR)
  | none => throw (.os ENOENT)

/-- Moves an entry (with everything below it) to another path, replacing a
file there or an empty directory when a directory moves. -/
def rename (t : FileTree) (src dst : String) : Except IoError FileTree := do
  let rs ← t.resolve src false
  let rd ← t.resolve dst false
  let moving ← match t.find? rs with
    | some n => pure n
    | none => throw (.os ENOENT)
  t.parentIsDir rd
  if rs = rd then return t
  if rs.isPrefixOf rd then throw (.os EINVAL)
  match moving, t.find? rd with
  | .dir, some .dir => if !(t.childNames rd).isEmpty then throw (.os ENOTEMPTY)
  | .dir, some _ => throw (.os ENOTDIR)
  | _, some .dir => throw (.os EISDIR)
  | _, _ => pure ()
  let moved := t.entries.filterMap fun (q, n) =>
    match afterPrefix rs q with
    | some rest => some (rd ++ rest, n)
    | none => none
  pure { entries := ((t.drop rd).drop rs).entries ++ moved }

end FileTree

end ModMirror
