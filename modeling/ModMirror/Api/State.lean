import ModMirror.Api.Files
import ModMirror.Api.Catalogs
import ModMirror.Sync.State

/-!
# Requests about persisted state

`state` runs steps on a data directory and answers each step's result and
the final tree.
-/

namespace ModMirror.Api

/-- The paths of a data directory. -/
def layoutJson (d : DataDir) : Json :=
  .obj [("path", .str d.dir.text), ("previous_sync", .str d.previousSync.text),
    ("removed_files", .str d.removedFiles.text), ("local_hashes", .str d.localHashes.text),
    ("exclusions", .str d.exclusions.text), ("settings", .str d.settings.text),
    ("staging", .str d.staging.text), ("lock_file", .str d.lockFile.text)]

/-- The result of a step that changes the tree. -/
def changed (t : FileTree) (onOk : FileTree → Json × FileTree) : Except SyncError FileTree → Json × FileTree
  | .ok t' => onOk t'
  | .error e => (syncFailure e, t)

/-- Takes the sync lock twice and once more after releasing it. -/
def lockStep (d : DataDir) (t : FileTree) : Json × FileTree :=
  match d.acquireLock t with
  | .ok t' =>
    let again := answerOf syncFailure (fun _ => .str "acquired") (d.acquireLock t')
    (.obj [("first", .str "acquired"), ("second", syncFailure (.syncInProgress d.lockFile.text)),
      ("after_release", again)], t')
  | .error e => (.obj [("first", syncFailure e), ("second", syncFailure e), ("after_release", syncFailure e)], t)

/-- One step on the data directory. -/
def stateStep (d : DataDir) (t : FileTree) (step : Json) : Json × FileTree :=
  match editStep t treeRoot step with
  | some (t', r) => (r, t')
  | none =>
    match strField step "op" with
    | "commit" =>
      match catalogSetField step "remote" with
      | .error e => (e, t)
      | .ok remote =>
        match d.commit remote (strListField step "removed") t with
        | .ok _ t' => (.null, t')
        | .error e t' => (syncFailure e, t')
    | "load_previous" => (answerOf syncFailure CatalogSet.iterJson (d.loadPrevious t), t)
    | "removal_manifest" => (answerOf syncFailure Json.ofStrings (d.removalManifest t), t)
    | "staging_exists" => (.bool (d.stagingExists t), t)
    | "has_pending_update" => (.bool (d.hasPendingUpdate t), t)
    | "clear_staging" =>
      match d.clearStaging t with
      | .ok (b, t') => (.bool b, t')
      | .error e => (syncFailure e, t)
    | "rollback" =>
      match d.rollback t with
      | .ok (b, t') => (.bool b, t')
      | .error e => (syncFailure e, t)
    | "load_local_exclusions" =>
      match d.loadLocalExclusions t (boolField step "headless" false) with
      | .ok (xs, t') => (Json.ofStrings xs, t')
      | .error e => (syncFailure e, t)
    | "save_local_hashes" =>
      match catalogSetField step "set" with
      | .error e => (e, t)
      | .ok s => changed t (fun t' => (.null, t')) (d.saveLocalHashes t s)
    | "lock" => lockStep d t
    | "layout" => (layoutJson d, t)
    | "tree" => (listing t treeRoot, t)
    | op => (requestFailure ("unknown state step " ++ op), t)

/-- Steps on a data directory. -/
def stateAnswer (req : Json) : Json :=
  match treeField req "tree" treeRoot {} with
  | .error e => e
  | .ok t =>
    let root := NormalPath.ofString treeRoot
    let d : DataDir := match optStrField req "data_dir" with
      | some rel => ⟨root.join rel⟩
      | none => DataDir.forRoot root
    let (t, steps) := (((req.field? "ops").bind Json.arr?).getD []).foldl (fun (t, acc) step =>
      let (r, t') := stateStep d t step
      (t', acc ++ [r])) (t, [])
    .obj [("steps", .arr steps), ("tree", listing t treeRoot)]

end ModMirror.Api
