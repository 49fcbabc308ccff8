import ModMirror.Api.Catalogs
import ModMirror.Sync.Plan

/-!
# Requests about plans

`plan` decodes the specs and catalogs of a request, plans them, and answers
the plan-set view: the plans, the remote catalogs, the counts and queries,
the display summary, and the same view of what is kept when optional
updates are declined.
-/

namespace ModMirror.Api

def planJson (p : SyncPlan) : Json :=
  .obj [("spec", p.spec.toJson), ("added", Json.ofStrings p.added), ("updated", Json.ofStrings p.updated),
    ("removed", Json.ofStrings p.removed), ("createdDirectories", Json.ofStrings p.createdDirectories)]

/-- The view of a plan set, without its declined form. -/
def planSetFields (s : PlanSet) : List (String × Json) :=
  let d := s.describe
  [("plans", .arr (s.plans.map planJson)), ("remote", s.remote.iterJson),
    ("update_count", Json.ofNat s.updateCount), ("added_count", Json.ofNat s.addedCount),
    ("updated_count", Json.ofNat s.updatedCount), ("removed_count", Json.ofNat s.removedCount),
    ("download_count", Json.ofNat s.downloadCount), ("is_empty", .bool s.isEmpty),
    ("is_silent", .bool (s.isSilent false)), ("is_silent_headless", .bool (s.isSilent true)),
    ("requires_restart", .bool s.requiresRestart), ("has_enforced_changes", .bool s.hasEnforcedChanges),
    ("has_optional_changes", .bool s.hasOptionalChanges), ("removed_files", Json.ofStrings s.removedFiles),
    ("describe", .obj [("optional", Json.ofStrings d.optional), ("enforced", Json.ofStrings d.enforced),
      ("text", .str d.text)])]

def planSetJson (s : PlanSet) : Json :=
  .obj (planSetFields s ++ [("enforced_only", .obj (planSetFields s.enforcedOnly))])

def specsOf (req : Json) : Except Json (List SyncPathSpec) :=
  decodeBy (.list SyncPathSpec.shape) (fun j => ((j.arr?).getD []).map SyncPathSpec.ofJson)
    ((req.present? "specs").getD (.arr []))

/-- Everything a plan is computed from. -/
structure PlanInput where
  specs : List SyncPathSpec
  loc : CatalogSet
  remote : CatalogSet
  previous : CatalogSet
  options : PlanOptions

/-- The plan inputs of a request. -/
def planInputOf (req : Json) : Except Json PlanInput := do
  let specs ← specsOf req
  let loc ← catalogSetField req "local"
  let remote ← catalogSetField req "remote"
  let previous ← catalogSetField req "previous"
  let exclusions ← (ExclusionSet.compile (strListField req "local_exclusions")).mapError syncFailure
  let options : PlanOptions :=
    { deleteRemovedFiles := boolField req "delete_removed_files" true, localExclusions := exclusions }
  pure ⟨specs, loc, remote, previous, options⟩

def PlanInput.plan (i : PlanInput) : PlanSet := planSync i.loc i.remote i.previous i.specs i.options

/-- Plans a request's catalogs. -/
def planAnswer (req : Json) : Json :=
  match planInputOf req with
  | .ok i => planSetJson i.plan
  | .error e => e

end ModMirror.Api
