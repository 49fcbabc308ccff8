import ModMirror.Server.Error
import ModMirror.Json.Shape
import ModMirror.Text.Chars

/-!
# Fallback payloads for old clients

Clients older than a baseline version cannot read today's sync path or
catalog shapes; they are served canned payloads keyed by client version. A
client that sends no version predates version reporting and gets the legacy
payload. A client at or above the baseline gets live data; an older one gets
the payload of the greatest registered version not above its own, or the
legacy payload.

    resolve r none = .ok r.legacy
-/

namespace ModMirror

/-- Bodies served instead of live sync paths and catalogs. -/
structure FallbackPayload where
  /-- The client version it is for; none for clients that send no version. -/
  version : Option Version
  syncPaths : Json
  hashes : Json

namespace FallbackPayload

def toJson (p : FallbackPayload) : Json :=
  .obj [("version", Json.ofOptString (p.version.map Version.render)), ("sync_paths", p.syncPaths),
    ("hashes", p.hashes)]

def shape : Json.Shape :=
  .record "FallbackPayload" [.opt "version" (.option .version) .null, .req "sync_paths" .value, .req "hashes" .value]

def ofJson (j : Json) : FallbackPayload :=
  { version := ((j.field? "version").bind Json.str?).bind fun s => (Version.parse s).toOption,
    syncPaths := (j.field? "sync_paths").getD .null, hashes := (j.field? "hashes").getD .null }

end FallbackPayload

/-- Payloads by client version, with a baseline above which none apply. -/
structure FallbackRegistry where
  baseline : Version
  legacy : Option FallbackPayload := none
  /-- Payloads in increasing version order, one per version. -/
  versions : List (Version × FallbackPayload) := []

namespace FallbackRegistry

/-- Inserts a payload in version order, replacing one of an equal version. -/
def insertVersion (v : Version) (p : FallbackPayload) : List (Version × FallbackPayload) → List (Version × FallbackPayload)
  | [] => [(v, p)]
  | (w, q) :: rest =>
    match Version.cmp v w with
    | .lt => (v, p) :: (w, q) :: rest
    | .eq => (v, p) :: rest
    | .gt => (w, q) :: insertVersion v p rest

/-- Adds or replaces a payload. -/
def register (r : FallbackRegistry) (p : FallbackPayload) : FallbackRegistry :=
  match p.version with
  | some v => { r with versions := insertVersion v p r.versions }
  | none => { r with legacy := some p }

/-- The catalog entry old clients were sent, with a hash no file has. -/
def staleRecord (tagged : Bool) : Json :=
  .obj ([("crc", Json.ofNat 999999999)] ++ if tagged then [("nosync", .bool false)] else [])

/-- Payloads for the releases before the current wire format. -/
def builtinPayloads : List FallbackPayload :=
  let plugin := "BepInEx\\plugins\\Corter-ModSync.dll"
  let updater := "ModSync.Updater.exe"
  let legacy : FallbackPayload :=
    { version := none, syncPaths := Json.ofStrings [plugin, updater],
      hashes := .obj [(plugin, staleRecord false), (updater, staleRecord false)] }
  let spec (path : String) (restart : Bool) : Json :=
    .obj [("enabled", .bool true), ("enforced", .bool true), ("path", .str path),
      ("restartRequired", .bool restart), ("silent", .bool false)]
  let taggedPaths := Json.arr [spec plugin true, spec updater false]
  let taggedHashes := Json.obj [(plugin, .obj [(plugin, staleRecord true)]), (updater, .obj [(updater, staleRecord true)])]
  legacy :: [0, 1, 2].map fun p =>
    { version := some { major := 0, minor := 8, patch := p }, syncPaths := taggedPaths, hashes := taggedHashes }

def withBuiltins (baseline : Version) : FallbackRegistry :=
  builtinPayloads.foldl register { baseline }

/-- The text a version header names its version by: white space trimmed from
both ends, then one leading `v` dropped. -/
def versionText (raw : String) : String :=
  let trimmed := (raw.toList.dropWhile Text.isWhitespace).reverse.dropWhile Text.isWhitespace |>.reverse
  let text := match trimmed with
    | 'v' :: rest => rest
    | cs => cs
  String.ofList text

/-- The payload to serve instead of live data for a version header, if any.
A header that is not a version (after trimming and one leading `v`) is refused. -/
def resolve (r : FallbackRegistry) (header : Option String) : Except ServerError (Option FallbackPayload) :=
  match header with
  | none => .ok r.legacy
  | some raw =>
    match Version.parse (versionText raw) with
    | .error e => .error (.invalidVersion raw e.message)
    | .ok v =>
      if Version.cmp v r.baseline != .lt then .ok none
      else
        match (r.versions.filter fun (w, _) => Version.cmp w v != .gt).getLast? with
        | some (_, p) => .ok (some p)
        | none => .ok r.legacy

end FallbackRegistry

end ModMirror
