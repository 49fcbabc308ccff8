import ModMirror.Catalog.Basic
import ModMirror.Fs.Hash
import ModMirror.Path.Relative
import ModMirror.Sync.Exclusion

/-!
# Building catalogs from the file tree

A sync path is scanned below a base directory: an excluded or missing sync
path gives nothing, a file (or a link, even to a directory) gives itself,
and a directory is walked without following links. Excluded entries are pruned before they are entered, a
linked directory is skipped, and a directory none of whose entries survived
is reported as an empty-directory marker (the sync path itself included).

Walking hashes every file found; building walks several targets in order,
skipping a path already catalogued by an earlier target, and hashes every
file only once all targets are scanned.
-/

namespace ModMirror

/-- A directory entry that survived exclusion. -/
structure ScannedEntry where
  /-- The path relative to the base, with forward slashes. -/
  relative : String
  /-- The path text in the tree. -/
  native : String
  isDirectory : Bool
  deriving DecidableEq, Repr

/-- One sync path to catalogue, with its exclusions and an optional base of its own. -/
structure CatalogTarget where
  syncPath : String
  matcher : ExclusionMatcher
  base : Option NormalPath

/-- An entry met by a walk. -/
structure WalkItem where
  path : String
  parent : String
  /-- A real directory (links are not followed). -/
  isDir : Bool
  isLink : Bool

/-- The entries below a directory in walk order (each directory before its
contents), skipping those `keep` refuses together with what lies below them. -/
def walkBelow (t : FileTree) (keep : String → Bool) (dirPath : String) (dirNames : List String) : Nat → List WalkItem
  | 0 => []
  | fuel + 1 =>
    (t.childNames dirNames).flatMap fun name =>
      let path := dirPath ++ "/" ++ name
      let names := dirNames ++ [name]
      if !keep path then []
      else match t.find? names with
        | some .dir => ⟨path, dirPath, true, false⟩ :: walkBelow t keep path names fuel
        | some (.link _) => [⟨path, dirPath, false, true⟩]
        | _ => [⟨path, dirPath, false, false⟩]

/-- The key of a walked path: the sync path, then the path below the root. -/
def relativeKey (logical root path : String) : String :=
  match Text.stripPrefix? root.toList path.toList with
  | some [] => logical
  | some ('/' :: inner) => logical ++ "/" ++ String.ofList (Text.unifySlashes inner)
  | _ => logical

/-- Walks sync paths below a base directory and fingerprints what it finds. -/
structure CatalogBuilder where
  base : NormalPath
  hasher : ContentHasher := {}

namespace CatalogBuilder

/-- The files and empty directories of a sync path (see the module comment). -/
def scan (b : CatalogBuilder) (t : FileTree) (syncPath : String) (m : ExclusionMatcher) :
    Except SyncError (List ScannedEntry) := do
  let logical ← (Path.sanitize syncPath).mapError SyncError.fs
  let root := b.base.join logical
  let native := root.text
  if m.excludesTree root then return []
  match t.metadata native with
  | .error e => if e = .os ENOENT then pure [] else throw (.fs (.io native e))
  | .ok .dir =>
    -- a linked sync path is not entered: the walk meets the link itself
    if let .ok (.link _) := t.symlinkMetadata native then
      return [{ relative := logical, native, isDirectory := false }]
    let rootNames ← (t.resolve native true).mapError fun e => SyncError.fs (.io native e)
    let keep (p : String) := !m.matchesPath (NormalPath.ofString p)
    let items := walkBelow t keep native rootNames (t.entries.length + 1)
    -- a link to a directory is skipped and does not count for its parent
    let kept := items.filter fun i => !(i.isLink && t.isDir i.path)
    let files := (kept.filter fun i => !i.isDir).map fun i =>
      ({ relative := relativeKey logical native i.path, native := i.path, isDirectory := false } : ScannedEntry)
    let dirs := (native, logical) :: (kept.filter (·.isDir)).map fun i => (i.path, relativeKey logical native i.path)
    let markers := (dirs.filter fun (p, _) => !(kept.any (·.parent == p))).map fun (p, rel) =>
      ({ relative := rel, native := p, isDirectory := true } : ScannedEntry)
    pure (files ++ markers)
  | .ok _ => pure [{ relative := logical, native, isDirectory := false }]

def recordOf (b : CatalogBuilder) (t : FileTree) (e : ScannedEntry) : Except SyncError FileRecord :=
  if e.isDirectory then .ok .directory
  else (b.hasher.hashFile t e.native).map FileRecord.file |>.mapError SyncError.fs

def walk (b : CatalogBuilder) (t : FileTree) (syncPath : String) (m : ExclusionMatcher) : Except SyncError PathCatalog := do
  let entries ← b.scan t syncPath m
  entries.foldlM (fun c e => do pure (c.add e.relative (← b.recordOf t e))) PathCatalog.empty

/-- The builder for a target: its own base if it has one. -/
def forTarget (b : CatalogBuilder) (target : CatalogTarget) : CatalogBuilder :=
  match target.base with
  | some base => { b with base }
  | none => b

/-- Catalogues every target (see the module comment). -/
def build (b : CatalogBuilder) (t : FileTree) (targets : List CatalogTarget) : Except SyncError CatalogSet := do
  -- scan every target first, keeping the first entry of each folded path
  let (_, plans) ← targets.foldlM (fun (seen, acc) target => do
    let entries ← (b.forTarget target).scan t target.syncPath target.matcher
    let (seen, fresh) := entries.foldl (fun (seen, fresh) e =>
      let k := Path.foldKey e.relative
      if seen.contains k then (seen, fresh) else (k :: seen, fresh ++ [e])) (seen, [])
    pure (seen, acc ++ [(target, fresh)])) (([] : List String), ([] : List (CatalogTarget × List ScannedEntry)))
  -- directories go in at once, files once hashed, in the order found
  let withDirs := plans.map fun (target, entries) =>
    (target, entries, entries.foldl (fun (c : PathCatalog) (e : ScannedEntry) =>
      if e.isDirectory then c.add e.relative .directory else c) PathCatalog.empty)
  let catalogs ← withDirs.mapM fun (target, entries, c) =>
    entries.foldlM (fun (c : PathCatalog) (e : ScannedEntry) =>
      if e.isDirectory then pure c
      else do pure (c.add e.relative (FileRecord.file (← (b.hasher.hashFile t e.native).mapError SyncError.fs)))) c
      |>.map fun c => (target, c)
  pure (catalogs.foldl (fun s (target, c) => s.add target.syncPath c) CatalogSet.empty)

end CatalogBuilder

end ModMirror
