import ModMirror.Api.Catalogs
import ModMirror.Sync.Spec
import ModMirror.Sync.Phase

/-!
# Requests about sync paths and phases

`spec` and `spec_new` show a spec with its key and display name;
`validate_sync_paths` checks a list; `phase` tells which steps between
phases are legal.
-/

namespace ModMirror.Api

/-- A spec with its key, display name, enablement under each toggle and location check. -/
def specAnswer (req : Json) : Json :=
  match decodeBy SyncPathSpec.shape SyncPathSpec.ofJson ((req.field? "spec").getD .null) with
  | .error e => e
  | .ok s =>
    .obj [("spec", s.toJson), ("key", .str s.key), ("display_name", .str s.displayName),
      ("enabled_none", .bool (s.isEnabledWith none)), ("enabled_true", .bool (s.isEnabledWith (some true))),
      ("enabled_false", .bool (s.isEnabledWith (some false))),
      ("validate_location", answerOf syncFailure Json.str s.validateLocation)]

/-- A spec built from a path and optional settings. -/
def specNewAnswer (req : Json) : Json :=
  let base := SyncPathSpec.ofPath (strField req "path")
  let s : SyncPathSpec :=
    { base with
      name := (optStrField req "name").getD base.name
      enabled := boolField req "enabled" base.enabled
      enforced := boolField req "enforced" base.enforced
      silent := boolField req "silent" base.silent
      restartRequired := boolField req "restart_required" base.restartRequired }
  .obj [("spec", s.toJson), ("key", .str s.key), ("display_name", .str s.displayName)]

/-- Whether a list of specs is valid against exclusions. -/
def validateSyncPathsAnswer (req : Json) : Json :=
  match decodeBy (.list SyncPathSpec.shape) (fun j => ((j.arr?).getD []).map SyncPathSpec.ofJson)
      ((req.present? "specs").getD (.arr [])) with
  | .error e => e
  | .ok specs =>
    answerOf syncFailure (fun _ => .obj [("ok", .bool true)]) (validateSyncPaths specs (strListField req "exclusions"))

/-- Which of the given phases can follow a phase. -/
def phaseAnswer (req : Json) : Json :=
  match SyncPhase.ofName? (strField req "from") with
  | none => requestFailure "unknown phase"
  | some a =>
    .obj [("results", .arr ((strListField req "to").map fun t =>
      .arr [.str t, .bool ((SyncPhase.ofName? t).map (a.canTransition ·) |>.getD false)]))]

end ModMirror.Api
