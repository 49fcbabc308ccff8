import ModMirror.Fs.Store
import ModMirror.Catalog.Basic
import ModMirror.Sync.Error

/-!
# Persisted sync state

Client state that outlives a sync attempt lives in one data directory: the
catalogs applied by the last successful sync, the removal manifest for the
external updater, the last local catalog, the operator's exclusions, the
settings, the staging directory and the sync lock.

A state file that exists but does not parse is fatal: planning without it
could remove files or keep stale ones.

    commit merges the remote catalogs into the snapshot and appends removals
    not yet listed (compared by folded key); the two files are written one
    after the other, each in one step
-/

namespace ModMirror

/-- The name of the data directory below the install root. -/
def dataDirName : String := "ModSync_Data"

/-- Client-only mods a headless client never needs. -/
def headlessDefaultExclusions : List String := [
  "BepInEx/plugins/AmandsGraphics.dll",
  "BepInEx/plugins/AmandsSense.dll",
  "BepInEx/plugins/Sense",
  "BepInEx/plugins/MoreCheckmarks",
  "BepInEx/plugins/kmyuhkyuk-EFTApi",
  "BepInEx/plugins/DynamicMaps",
  "BepInEx/plugins/LootValue",
  "BepInEx/plugins/CactusPie.RamCleanerInterval.dll",
  "BepInEx/plugins/TYR_DeClutterer.dll"]

/-- Locations of the client's state files. -/
structure DataDir where
  dir : NormalPath

namespace DataDir

/-- The default data directory below a root. -/
def forRoot (root : NormalPath) : DataDir := ⟨root.join dataDirName⟩

def previousSync (d : DataDir) : NormalPath := d.dir.join "PreviousSync.json"
def removedFiles (d : DataDir) : NormalPath := d.dir.join "RemovedFiles.json"
def localHashes (d : DataDir) : NormalPath := d.dir.join "LocalHashes.json"
def exclusions (d : DataDir) : NormalPath := d.dir.join "Exclusions.json"
def settings (d : DataDir) : NormalPath := d.dir.join "Settings.json"
def staging (d : DataDir) : NormalPath := d.dir.join "PendingUpdates"
def lockFile (d : DataDir) : NormalPath := d.dir.join "sync.lock"

end DataDir

def catalogSetCodec : Codec CatalogSet := ⟨CatalogSet.shape, CatalogSet.ofJson, CatalogSet.toJson, true⟩

def stringListCodec : Codec (List String) :=
  ⟨.list (.text "a string"), fun j => ((j.arr?).getD []).filterMap Json.str?, Json.ofStrings, true⟩

/-- A parse failure of a state file becomes a malformed-state failure. -/
def malformed : FsError → SyncError
  | .configParse p _ m => .malformedState p m
  | e => .fs e

/-- Runs a read of the files as a step that changes nothing. -/
def FileTree.reading {ε α : Type} (r : FileTree → Except ε α) : EStateM ε FileTree α := fun t =>
  match r t with
  | .ok a => .ok a t
  | .error e => .error e t

/-- Runs a change of the files as a step: it happens whole, or fails and
leaves the files as they were. -/
def FileTree.changing {ε : Type} (f : FileTree → Except ε FileTree) : EStateM ε FileTree Unit := fun t =>
  match f t with
  | .ok t' => .ok () t'
  | .error e => .error e t

namespace DataDir

/-- Reads a state file, nothing when it is absent. -/
def readState {α : Type} (c : Codec α) (t : FileTree) (p : NormalPath) : Except SyncError (Option α) :=
  (c.loadIfExists t p).mapError malformed

/-- The catalogs applied by the last successful sync; empty when there was none. -/
def loadPrevious (d : DataDir) (t : FileTree) : Except SyncError CatalogSet :=
  (readState catalogSetCodec t d.previousSync).map (·.getD {})

/-- The files queued for deletion by the updater. -/
def removalManifest (d : DataDir) (t : FileTree) : Except SyncError (List String) :=
  (readState stringListCodec t d.removedFiles).map (·.getD [])

/-- The operator's exclusions for optional paths; a headless client without
a file gets one seeded with the headless defaults. -/
def loadLocalExclusions (d : DataDir) (t : FileTree) (headless : Bool) : Except SyncError (List String × FileTree) :=
  if headless then (stringListCodec.loadOrInit t d.exclusions headlessDefaultExclusions).mapError malformed
  else (readState stringListCodec t d.exclusions).map fun v => (v.getD [], t)

/-- Writes the local catalog for troubleshooting. -/
def saveLocalHashes (d : DataDir) (t : FileTree) (s : CatalogSet) : Except SyncError FileTree :=
  (catalogSetCodec.save t d.localHashes s).mapError SyncError.fs

/-- The removal manifest with the paths of `removed` appended, each unless a
path of its folded key is listed already. -/
def appendRemoved (manifest removed : List String) : List String :=
  removed.foldl (fun m p => if m.any (fun q => Path.foldKey q == Path.foldKey p) then m else m ++ [p]) manifest

/-- Records a fully applied attempt (see the module comment). The snapshot is
saved before the manifest is read, so a failure in the second half leaves the
new snapshot in place. -/
def commit (d : DataDir) (remote : CatalogSet) (removed : List String) : EStateM SyncError FileTree Unit := do
  let snapshot ← FileTree.reading d.loadPrevious
  FileTree.changing fun t => (catalogSetCodec.save t d.previousSync (snapshot.merge remote)).mapError SyncError.fs
  unless removed.isEmpty do
    let manifest ← FileTree.reading d.removalManifest
    FileTree.changing fun t => (stringListCodec.save t d.removedFiles (appendRemoved manifest removed)).mapError
      SyncError.fs

def stagingExists (d : DataDir) (t : FileTree) : Bool := t.pathExists d.staging.text

/-- Whether a previous attempt left work for the updater. -/
def hasPendingUpdate (d : DataDir) (t : FileTree) : Bool := d.stagingExists t || t.pathExists d.removedFiles.text

/-- Removes a directory tree if it exists; whether anything was removed. -/
def removeDirIfExists (t : FileTree) (p : String) : Except FsError (Bool × FileTree) :=
  match t.removeDirAll p with
  | .ok t' => .ok (true, t')
  | .error e => if e = .os ENOENT then .ok (false, t) else .error (.io p e)

/-- Deletes the staging directory; whether it existed. -/
def clearStaging (d : DataDir) (t : FileTree) : Except SyncError (Bool × FileTree) :=
  (removeDirIfExists t d.staging.text).mapError SyncError.fs

/-- Discards staged files and the removal manifest; whether there was any. -/
def rollback (d : DataDir) (t : FileTree) : Except SyncError (Bool × FileTree) := do
  let (staging, t) ← d.clearStaging t
  let p := d.removedFiles.text
  match t.removeFile p with
  | .ok t' => pure (true, t')
  | .error e => if e = .os ENOENT then pure (staging, t) else throw (.fs (.io p e))

/-- Takes the sync lock: its directory is made and the lock file created. -/
def acquireLock (d : DataDir) (t : FileTree) : Except SyncError FileTree := do
  let p := d.lockFile.text
  let t ← (ensureParent t p).mapError SyncError.fs
  (touch t p).mapError fun e => .fs (.io p e)

end DataDir

end ModMirror
