import ModMirror.Server.Fallback
import ModMirror.Sync.Spec
import ModMirror.Net.SocketAddr

/-!
# Server configuration

What the catalog server serves: an install root, an address to bind, the
version it reports, the oldest client version that reads the current wire
format, the sync paths and exclusions, extra fallback payloads, and where
per-identity overlays live.

A sync path is written bare (then it is enabled and enforced) or as a full
table (then it takes the usual defaults and its path names it). The list
served to clients is the built-in updater and plugin paths, then the
configured paths, longest first, so nested paths are catalogued before their
parents.
-/

namespace ModMirror

/-- A sync path as an operator writes it. -/
inductive SyncPathEntry where
  | bare (path : String)
  | table (spec : SyncPathSpec)
  deriving DecidableEq, Repr

namespace SyncPathEntry

/-- The spec an entry stands for. -/
def toSpec : SyncPathEntry → SyncPathSpec
  | bare p => { SyncPathSpec.ofPath p with enforced := true }
  | table s =>
    let path := String.ofList (Text.unifySlashes s.path.toList)
    { s with path, name := if s.name.isEmpty then path else s.name }

/-- The JSON form of an entry: a string or a spec table. -/
def toJson : SyncPathEntry → Json
  | bare p => .str p
  | table s => s.toJson

def shape : Json.Shape := .untagged "SyncPathEntry" [.text "a string", SyncPathSpec.shape]

def ofJson : Json → SyncPathEntry
  | .str p => bare p
  | j => table (SyncPathSpec.ofJson j)

end SyncPathEntry

/-- Where per-identity overlays live, relative to the server root. -/
structure OverlayConfig where
  root : String := "RemotePlugins"
  /-- The directory under `root` new identities are seeded from. -/
  seed : String := "DefaultPlugins"
  deriving DecidableEq, Repr

def updaterPath : String := "ModSync.Updater.exe"

def pluginPath : String := "BepInEx/plugins/Corter-ModSync.dll"

def defaultBind : String := "127.0.0.1:6969"

def serverVersion : String := "0.9.0"

/-- Exclusions every new configuration starts with. -/
def defaultExclusions : List String := [
  "BepInEx/plugins/spt",
  "BepInEx/patchers/spt-prepatch.dll",
  "BepInEx/plugins/DanW-SPTQuestingBots/log",
  "user/mods/SPT-Realism/ProfileBackups",
  "user/mods/fika-server/types",
  "user/mods/fika-server/cache",
  "BepInEx/plugins/Fika.Dedicated.dll",
  "user/mods/zzDrakiaXYZ-LiveFleaPrices/config",
  "BepInEx/plugins/kmyuhkyuk-EFTApi/cache",
  "user/mods/ExpandedTaskText/src/**/cache.json",
  "user/mods/leaves-loot_fuckery/output",
  "user/mods/zz_guiltyman-addmissingquestweaponrequirements/log.log",
  "user/mods/zz_guiltyman-addmissingquestweaponrequirements/user/logs",
  "user/mods/acidphantasm-progressivebotsystem/logs",
  "BepInEx/patchers/Corter-ModSync-Patcher.dll",
  "**/*.nosync",
  "**/*.nosync.txt",
  "user/mods/**/.git",
  "user/mods/**/node_modules",
  "user/mods/**/*.js",
  "user/mods/**/*.js.map",
  "**/*:Zone.Identifier"]

/-- The sync paths of a new configuration. -/
def defaultSyncPaths : List SyncPathEntry :=
  [.bare "BepInEx/plugins", .bare "BepInEx/patchers", .bare "BepInEx/config",
    .table { SyncPathSpec.ofPath "user/mods" with
      name := "(Optional) Server mods", enabled := false, restartRequired := false }]

/-- The server's configuration. -/
structure ServerConfig where
  /-- The install root sync paths are relative to. -/
  root : String := "."
  bind : String := defaultBind
  version : String := serverVersion
  /-- The oldest client version that reads the current wire format. -/
  baselineVersion : Version := { major := 0, minor := 9, patch := 0 }
  hashConcurrency : Nat := 1024
  syncPaths : List SyncPathEntry := defaultSyncPaths
  exclusions : List String := defaultExclusions
  fallbacks : List FallbackPayload := []
  overlay : OverlayConfig := {}

/-- Sync paths every server serves ahead of the configured ones. -/
def builtinSyncPaths : List SyncPathSpec :=
  [{ SyncPathSpec.ofPath updaterPath with
      name := "(Builtin) ModSync Updater", enforced := true, silent := true, restartRequired := false },
    { SyncPathSpec.ofPath pluginPath with
      name := "(Builtin) ModSync Plugin", enforced := true, silent := true, restartRequired := true }]

namespace ServerConfig

/-- The sync paths served to clients: built-ins, then the configured ones, longest path first. -/
def resolvedSyncPaths (c : ServerConfig) : List SyncPathSpec :=
  let user := (c.syncPaths.map SyncPathEntry.toSpec).mergeSort fun a b => b.path.utf8ByteSize ≤ a.path.utf8ByteSize
  builtinSyncPaths ++ user

/-- Checks everything that would make the server misbehave. -/
def validate (c : ServerConfig) : Except ServerError Unit := do
  match validateSyncPaths c.resolvedSyncPaths c.exclusions with
  | .error e => throw (.core e)
  | .ok _ => pure ()
  match Path.validateIdentifier c.overlay.seed with
  | .error e => throw (.config ("overlay seed '" ++ c.overlay.seed ++ "': " ++ e.message))
  | .ok _ => pure ()
  match Path.sanitize c.overlay.root with
  | .error e => throw (.config ("overlay root '" ++ c.overlay.root ++ "': " ++ e.message))
  | .ok _ => pure ()
  if !Net.isSocketAddr c.bind then throw (.config ("bind address '" ++ c.bind ++ "' is not host:port"))

/-- The JSON form of a configuration. -/
def toJson (c : ServerConfig) : Json :=
  .obj [("root", .str c.root), ("bind", .str c.bind), ("version", .str c.version),
    ("baseline_version", .str c.baselineVersion.render), ("hash_concurrency", Json.ofNat c.hashConcurrency),
    ("sync_paths", .arr (c.syncPaths.map SyncPathEntry.toJson)), ("exclusions", Json.ofStrings c.exclusions),
    ("fallbacks", .arr (c.fallbacks.map FallbackPayload.toJson)),
    ("overlay", .obj [("root", .str c.overlay.root), ("seed", .str c.overlay.seed)])]

/-- What a configuration must look like. -/
def shape : Json.Shape :=
  let d : ServerConfig := {}
  .record "ServerConfig" [.opt "root" (.text "path string") (.str d.root), .opt "bind" (.text "a string") (.str d.bind),
    .opt "version" (.text "a string") (.str d.version),
    .opt "baseline_version" .version (.str d.baselineVersion.render),
    .opt "hash_concurrency" (.unsigned 64 "usize") (Json.ofNat d.hashConcurrency),
    .opt "sync_paths" (.list SyncPathEntry.shape) (.arr (d.syncPaths.map SyncPathEntry.toJson)),
    .opt "exclusions" (.list (.text "a string")) (Json.ofStrings d.exclusions),
    .opt "fallbacks" (.list FallbackPayload.shape) (.arr []),
    .opt "overlay" (.record "OverlayConfig" [.opt "root" (.text "a string") (.str d.overlay.root),
      .opt "seed" (.text "a string") (.str d.overlay.seed)]) (.obj [("root", .str d.overlay.root), ("seed", .str d.overlay.seed)])]

/-- A configuration from its decoded form. -/
def ofJson (j : Json) : ServerConfig :=
  let d : ServerConfig := {}
  let s (o : Json) (k : String) (v : String) := ((o.field? k).bind Json.str?).getD v
  let ov := (j.field? "overlay").getD .null
  { root := s j "root" d.root, bind := s j "bind" d.bind, version := s j "version" d.version,
    baselineVersion := (((j.field? "baseline_version").bind Json.str?).bind fun t => (Version.parse t).toOption).getD
      d.baselineVersion,
    hashConcurrency := ((j.field? "hash_concurrency").bind Json.nat?).getD d.hashConcurrency,
    syncPaths := match (j.field? "sync_paths").bind Json.arr? with
      | some xs => xs.map SyncPathEntry.ofJson
      | none => d.syncPaths,
    exclusions := match (j.field? "exclusions").bind Json.arr? with
      | some xs => xs.filterMap Json.str?
      | none => d.exclusions,
    fallbacks := (((j.field? "fallbacks").bind Json.arr?).getD []).map FallbackPayload.ofJson,
    overlay := { root := s ov "root" d.overlay.root, seed := s ov "seed" d.overlay.seed } }

end ServerConfig

end ModMirror
