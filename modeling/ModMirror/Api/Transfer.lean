import ModMirror.Api.Plans
import ModMirror.Api.Remote
import ModMirror.Api.Files
import ModMirror.Api.Retry

/-!
# Requests about transfers

`transfer` plans a request's catalogs as `plan` does, lays out the live tree
under `live`, and downloads the plan from scripted files into `live` and
`staging`. The answer shows the outcome, the counters and every file of the
request's directory afterwards.
-/

namespace ModMirror.Api

/-- The JSON form of a transfer report. -/
def reportJson (r : TransferReport) : Json :=
  .obj [("downloaded", Json.ofNat r.downloaded), ("staged", Json.ofNat r.staged),
    ("in_place", Json.ofNat r.inPlace), ("directories_created", Json.ofNat r.directoriesCreated)]

/-- The failures of a cancelled transfer, sorted by path. -/
def failuresJson (fs : List TransferFailure) : Json :=
  .arr ((fs.mergeSort fun a b => decide (a.path ≤ b.path)).map fun f =>
    .obj [("path", .str f.path), ("error", .str f.error)])

/-- The JSON form of a transfer outcome. -/
def outcomeJson : TransferOutcome → Json
  | .completed r => .obj [("outcome", .str "completed"), ("report", reportJson r)]
  | .cancelled c i fs =>
    .obj [("outcome", .str "cancelled"), ("completed", Json.ofNat c), ("in_place", Json.ofNat i),
      ("failures", failuresJson fs)]

def progressJson (p : TransferProgress) : Json :=
  .obj [("total", Json.ofNat p.total), ("completed", Json.ofNat p.completed), ("failed", Json.ofNat p.failed)]

/-- Downloads a request's plan from its scripted files. -/
def transferAnswer (req : Json) : Json :=
  match go with
  | .ok j => j
  | .error e => e
where
  go : Except Json Json := do
    let input ← planInputOf req
    let retry ← policyField req "retry" RetryPolicy.never
    let live := treeRoot ++ "/live"
    let t ← (({} : FileTree).createDirAll live).mapError fun e => fsFailure (.io live e)
    let t ← treeField req "tree" live t
    let m : TransferManager :=
      { live := NormalPath.ofString live, staging := NormalPath.ofString (treeRoot ++ "/staging"),
        concurrency := ((req.field? "concurrency").bind Json.nat?).getD 1, retry }
    let source := ScriptedFiles.ofJson ((req.field? "files").getD (.obj []))
    let run ← (m.execute input.plan ScriptedFiles.fetch source (boolField req "cancel" false) [] t).mapError
      syncFailure
    pure (.obj [("outcome", outcomeJson run.outcome), ("is_completed", .bool run.outcome.isCompleted),
      ("progress", progressJson run.progress), ("tree", listing run.tree treeRoot)])

end ModMirror.Api
