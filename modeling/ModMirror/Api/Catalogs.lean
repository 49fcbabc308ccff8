import ModMirror.Api.Basic
import ModMirror.Catalog.Basic
import ModMirror.Sync.Exclusion

/-!
# Requests about catalogs

`catalog` and `catalog_set` run a list of steps on one catalog or one set
and answer each step's result with the size after it, then the final stored
and iteration forms.
-/

namespace ModMirror.Api

/-- A value decoded by a shape, or the decoding failure as an answer. -/
def decodeBy {α : Type} (shape : Json.Shape) (build : Json → α) (j : Json) : Except Json α :=
  match Json.ofValue shape j with
  | .ok v => .ok (build v)
  | .error m => .error (typeFailure m)

/-- A catalog set field of a request, empty when absent. -/
def catalogSetField (req : Json) (k : String) : Except Json CatalogSet :=
  match req.present? k with
  | some j => decodeBy CatalogSet.shape CatalogSet.ofJson j
  | none => .ok {}

/-- A record or `null`. -/
def optRecordJson : Option FileRecord → Json
  | some r => r.toJson
  | none => .null

/-- One step on a catalog: the catalog after it and the step's result. -/
def catalogStep (c : PathCatalog) (step : Json) : PathCatalog × Json :=
  let path := strField step "path"
  match strField step "op" with
  | "insert" =>
    match decodeBy FileRecord.shape FileRecord.ofJson ((step.field? "record").getD .null) with
    | .ok r =>
      let (c', old) := c.insert path r
      (c', .obj [("replaced", optRecordJson old)])
    | .error e => (c, e)
  | "get" => (c, optRecordJson (c.get path))
  | "entry" => (c, match c.entry path with
      | some e => .arr [.str e.path, e.record.toJson]
      | none => .null)
  | "contains" => (c, .bool (c.contains path))
  | "remove" => let (c', old) := c.remove path; (c', optRecordJson old)
  | "has_descendant" => (c, .bool (c.hasDescendant path))
  | "retain_not_excluded" =>
    match ExclusionSet.compile (strListField step "patterns") with
    | .ok set => (c.retain fun p _ => !set.matchesPrefix p, .null)
    | .error e => (c, syncFailure e)
  | "retain_files" => (c.retain fun _ r => !r.isDirectory, .null)
  | "len" => (c, Json.ofNat c.len)
  | "is_empty" => (c, .bool c.isEmpty)
  | "file_count" => (c, Json.ofNat c.fileCount)
  | "iter" => (c, c.iterJson)
  | op => (c, requestFailure ("unknown catalog step " ++ op))

/-- Runs steps in order, collecting each result with the size after it. -/
def runSteps {σ : Type} (step : σ → Json → σ × Json) (size : σ → Nat) (s : σ) (steps : List Json) :
    σ × List Json :=
  steps.foldl (fun (s, acc) j =>
    let (s', r) := step s j
    (s', acc ++ [Json.obj [("result", r), ("len", Json.ofNat (size s'))]])) (s, [])

/-- Steps on one catalog. -/
def catalogAnswer (req : Json) : Json :=
  match decodeBy PathCatalog.shape PathCatalog.ofJson ((req.present? "initial").getD (.obj [])) with
  | .error e => e
  | .ok c =>
    let (c', steps) := runSteps catalogStep PathCatalog.len c (((req.field? "ops").bind Json.arr?).getD [])
    .obj [("steps", .arr steps), ("catalog", c'.toJson), ("iter", c'.iterJson)]

/-- A catalog's iteration form or `null`. -/
def optCatalogJson : Option PathCatalog → Json
  | some c => c.iterJson
  | none => .null

/-- One step on a catalog set. -/
def catalogSetStep (s : CatalogSet) (step : Json) : CatalogSet × Json :=
  let path := strField step "path"
  match strField step "op" with
  | "insert" =>
    match decodeBy PathCatalog.shape PathCatalog.ofJson ((step.field? "catalog").getD .null) with
    | .ok c =>
      let (s', old) := s.insert path c
      (s', .obj [("replaced", optCatalogJson old)])
    | .error e => (s, e)
  | "get" => (s, optCatalogJson (s.get path))
  | "remove" => let (s', old) := s.remove path; (s', optCatalogJson old)
  | "merge" =>
    match decodeBy CatalogSet.shape CatalogSet.ofJson ((step.field? "other").getD .null) with
    | .ok other => (s.merge other, .null)
    | .error e => (s, e)
  | "len" => (s, Json.ofNat s.len)
  | "is_empty" => (s, .bool s.isEmpty)
  | "entry_count" => (s, Json.ofNat s.entryCount)
  | "iter" => (s, s.iterJson)
  | op => (s, requestFailure ("unknown catalog set step " ++ op))

/-- Steps on one catalog set. -/
def catalogSetAnswer (req : Json) : Json :=
  match decodeBy CatalogSet.shape CatalogSet.ofJson ((req.present? "initial").getD (.obj [])) with
  | .error e => e
  | .ok s =>
    let (s', steps) := runSteps catalogSetStep CatalogSet.len s (((req.field? "ops").bind Json.arr?).getD [])
    .obj [("steps", .arr steps), ("set", s'.toJson), ("iter", s'.iterJson)]

end ModMirror.Api
