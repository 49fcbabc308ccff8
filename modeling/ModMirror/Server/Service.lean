import ModMirror.Server.Config
import ModMirror.Server.Overlay
import ModMirror.Server.Fallback
import ModMirror.Catalog.Builder

/-!
# The catalog service

The server side of a sync: the configured sync paths (the built-in ones
first), the exclusions, the per-identity overlays and the fallback payloads
for old clients, all over one live tree.

* A catalog covers every sync path, or only the enforced ones and those
  asked for. For an identity, a sync path that exists in its overlay is
  catalogued there, with the exclusions taken relative to the overlay.
* A file is served only if its path stays inside the root, lies in a sync
  path and is not excluded; an identity's own copy wins over the live one.

    resolveFile s p id t = (.ok native, t') → native names a file of t'
-/

namespace ModMirror

/-- What the server serves. -/
structure CatalogService where
  root : NormalPath
  version : String
  specs : List SyncPathSpec
  exclusionPatterns : List String
  exclusions : ExclusionSet
  overlays : OverlayStore
  fallbacks : FallbackRegistry

namespace CatalogService

/-- The service of a configuration, which must be valid. -/
def ofConfig (c : ServerConfig) : Except ServerError CatalogService := do
  c.validate
  let root := NormalPath.ofString c.root
  let overlayRel ← (Path.sanitize c.overlay.root).mapError ServerError.fs
  let fallbacks := c.fallbacks.foldl FallbackRegistry.register (FallbackRegistry.withBuiltins c.baselineVersion)
  let exclusions ← (ExclusionSet.compile c.exclusions).mapError ServerError.core
  pure { root, version := c.version, specs := c.resolvedSyncPaths, exclusionPatterns := c.exclusions,
         exclusions, overlays := ⟨root.join overlayRel, c.overlay.seed⟩, fallbacks }

/-- Makes the overlay seed from the live sync paths, unless there is one. -/
def ensureDefaultSeed (s : CatalogService) (t : FileTree) : Except ServerError (Bool × FileTree) :=
  s.overlays.ensureDefaultSeed s.root s.specs t

/-- Where a sync path is catalogued: in the overlay when it exists there. -/
def targetFor (s : CatalogService) (t : FileTree) (overlay : Option NormalPath) (spec : SyncPathSpec) :
    CatalogTarget :=
  match overlay with
  | some o =>
    if t.pathExists (o.join spec.path).text then
      { syncPath := spec.path, matcher := { base := o, sets := [s.exclusions] }, base := some o }
    else { syncPath := spec.path, matcher := { base := s.root, sets := [s.exclusions] }, base := none }
  | none => { syncPath := spec.path, matcher := { base := s.root, sets := [s.exclusions] }, base := none }

/-- The overlay an identity sees, made on first use; none without an identity. -/
def overlayOf (s : CatalogService) (identity : Option String) (t : FileTree) :
    Except ServerError (Option NormalPath × FileTree) :=
  match identity with
  | some id => (s.overlays.provision id t).map fun r => (some r.1, r.2)
  | none => .ok (none, t)

/-- The sync paths a catalog covers: all when none are named, else the
enforced ones and those asked for (compared by key, trailing slashes ignored). -/
def chosen (s : CatalogService) (requested : Option (List String)) : List SyncPathSpec :=
  let wanted := requested.map (·.map fun p => Path.foldKey (String.ofList (Text.trimEnd '/' p.toList)))
  s.specs.filter fun spec =>
    match wanted with
    | some w => spec.enforced || w.contains spec.key
    | none => true

/-- The catalogs of the sync paths asked for, seen by an identity if one is
given. The files stay as provisioning the overlay left them, also when the
build then fails. -/
def catalog (s : CatalogService) (requested : Option (List String)) (identity : Option String) (t : FileTree) :
    Except ServerError CatalogSet × FileTree :=
  match s.overlayOf identity t with
  | .error e => (.error e, t)
  | .ok (overlay, t) =>
    let builder : CatalogBuilder := { base := s.root }
    ((builder.build t ((s.chosen requested).map (s.targetFor t overlay))).mapError ServerError.core, t)

/-- Whether a clean relative path lies in a sync path. -/
def inSyncPath (s : CatalogService) (relative : String) : Bool :=
  let key := Path.foldKey relative
  s.specs.any fun spec => key == spec.key || key.startsWith (spec.key ++ "/")

/-- The clean relative path of a request that may be served: it stays inside
the root, lies in a sync path and is not excluded. Nothing is read to decide. -/
def servable (s : CatalogService) (requested : String) : Except ServerError String := do
  let relative ← match Path.sanitize requested with
    | .ok r => pure r
    | .error (.pathTraversal _) => throw (.traversal requested)
    | .error _ => throw (.notFound requested)
  unless s.inSyncPath relative do throw (.notInSyncPath relative)
  if s.exclusions.matchesPrefix relative then throw (.excluded relative)
  pure relative

/-- The identity's own copy of a file, if it has one. -/
def overlayFile (s : CatalogService) (relative : String) (identity : Option String) (t : FileTree) :
    Except ServerError (Option String × FileTree) :=
  match identity with
  | none => .ok (none, t)
  | some id => do
    let (dir, t) ← s.overlays.provision id t
    let candidate := (dir.join relative).text
    pure (if t.isFile candidate then some candidate else none, t)

/-- The file to serve for a requested path (see the module comment). The
files stay as provisioning the overlay left them, also when no file is found. -/
def resolveFile (s : CatalogService) (requested : String) (identity : Option String) (t : FileTree) :
    Except ServerError String × FileTree :=
  match s.servable requested with
  | .error e => (.error e, t)
  | .ok relative =>
    match s.overlayFile relative identity t with
    | .error e => (.error e, t)
    | .ok (some path, t) => (.ok path, t)
    | .ok (none, t) =>
      let live := (s.root.join relative).text
      if t.isFile live then (.ok live, t) else (.error (.notFound relative), t)

end CatalogService

end ModMirror
