import ModMirror.Api.Plans
import ModMirror.Sync.Settings
import ModMirror.Server.Config

/-!
# Requests about settings and server configuration

`settings` shows client settings and the toggle each spec gets; `fallback`
resolves version headers against a fallback registry; `server_config` shows
a configuration's resolved sync paths and whether it is valid.
-/

namespace ModMirror.Api

/-- Client settings of a request field: the defaults when absent or `null`. -/
def settingsField (req : Json) (k : String) : Except Json ClientSettings :=
  match req.present? k with
  | some j => decodeBy ClientSettings.shape ClientSettings.ofJson j
  | none => .ok {}

/-- Settings and the toggle and enablement of each spec under them. -/
def settingsAnswer (req : Json) : Json :=
  match settingsField req "settings", specsOf req with
  | .error e, _ => e
  | _, .error e => e
  | .ok s, .ok specs =>
    .obj [("settings", s.toJson), ("specs", .arr (specs.map fun spec =>
      .obj [("path", .str spec.path), ("toggle", match s.toggleFor spec with
          | some b => .bool b
          | none => .null), ("enabled", .bool (s.isEnabled spec))]))]

/-- Version headers resolved against a registry. -/
def fallbackAnswer (req : Json) : Json :=
  match Version.parse ((optStrField req "baseline").getD "0.9.0") with
  | .error e => requestFailure e.message
  | .ok baseline =>
    let payloads := (((req.field? "register").bind Json.arr?).getD []).mapM
      (decodeBy FallbackPayload.shape FallbackPayload.ofJson)
    match payloads with
    | .error e => e
    | .ok ps =>
      let start := if boolField req "builtins" true then FallbackRegistry.withBuiltins baseline else { baseline }
      let registry := ps.foldl FallbackRegistry.register start
      let headers := ((req.field? "headers").bind Json.arr?).getD []
      .obj [("baseline", .str baseline.render), ("results", .arr (headers.map fun h =>
        answerOf serverFailure (fun p => .obj [("payload", match p with
            | some p => p.toJson
            | none => .null)]) (registry.resolve h.str?)))]

/-- A server configuration of a request field: the defaults when absent or `null`. -/
def serverConfigField (req : Json) (k : String) : Except Json ServerConfig :=
  match req.present? k with
  | some j => decodeBy ServerConfig.shape ServerConfig.ofJson j
  | none => .ok {}

def validationJson (c : ServerConfig) : Json :=
  answerOf serverFailure (fun _ => .obj [("ok", .bool true)]) c.validate

/-- A configuration's resolved sync paths and validity. -/
def serverConfigAnswer (req : Json) : Json :=
  match serverConfigField req "config" with
  | .error e => e
  | .ok c => .obj [("resolved", .arr (c.resolvedSyncPaths.map SyncPathSpec.toJson)), ("validate", validationJson c)]

end ModMirror.Api
