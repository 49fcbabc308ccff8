import ModMirror.Api.Server
import ModMirror.Api.Files
import ModMirror.Server.Http

/-!
# Requests about the catalog service

`service` builds the catalog service of a configuration over a tree in
`server` and runs steps on it: its settings, seeding, catalogs, file
resolution, overlay directories, edits of the tree and HTTP requests. The
answer holds each step's result and the server tree afterwards.
-/

namespace ModMirror.Api

def serverRoot : String := treeRoot ++ "/server"

/-- The service of a request: its configuration, rooted at the server tree. -/
def serviceOf (req : Json) : Except Json CatalogService := do
  let c ← serverConfigField req "config"
  (CatalogService.ofConfig { c with root := serverRoot }).mapError serverFailure

def serverTree (spec : Json) : Except Json FileTree := do
  let t ← (({} : FileTree).createDirAll serverRoot).mapError fun e => fsFailure (.io serverRoot e)
  treeField spec "tree" serverRoot t

/-- A request of an `http` step: method, target and headers (names in lower case). -/
def httpRequestOf (step : Json) : HttpRequest :=
  { method := ((step.field? "method").bind Json.str?).getD "GET",
    target := strField step "uri",
    headers := (((step.field? "headers").bind Json.obj?).getD []).map fun (k, v) =>
      (String.ofList (k.toList.map Char.toLower), ((v.str?).getD "").toUTF8) }

/-- The JSON form of a response: a JSON body is shown as JSON, any other as content. -/
def httpResponseJson (r : HttpResponse) : Json :=
  let body := if r.contentType = some "application/json" then
      match String.fromUTF8? r.body with
      | some text => match Json.parse text with
        | .ok j => j
        | .error _ => contentRepr r.body
      | none => contentRepr r.body
    else contentRepr r.body
  .obj [("status", Json.ofNat r.status), ("content_type", (r.contentType.map Json.str).getD .null),
    ("content_range", (r.contentRange.map Json.str).getD .null), ("body", body)]

/-- One step on the service. -/
def serviceStep (s : CatalogService) (t : FileTree) (step : Json) : Json × FileTree :=
  match editStep t serverRoot step with
  | some (t', j) => (j, t')
  | none =>
    let identity := optStrField step "identity"
    match strField step "op" with
    | "info" =>
      (.obj [("version", .str s.version), ("sync_paths", .arr (s.specs.map SyncPathSpec.toJson)),
        ("exclusions", Json.ofStrings s.exclusionPatterns), ("baseline", .str s.fallbacks.baseline.render)], t)
    | "seed" =>
      match s.ensureDefaultSeed t with
      | .ok (b, t') => (.bool b, t')
      | .error e => (serverFailure e, t)
    | "catalog" =>
      let requested := (step.present? "requested").map fun _ => strListField step "requested"
      match s.catalog requested identity t with
      | (.ok set, t') => (.obj [("set", set.toJson), ("iter", set.iterJson)], t')
      | (.error e, t') => (serverFailure e, t')
    | "resolve" =>
      match s.resolveFile (strField step "path") identity t with
      | (.ok p, t') => (.str p, t')
      | (.error e, t') => (serverFailure e, t')
    | "dir_for" => (answerOf serverFailure (fun d => .str d.text) (s.overlays.dirFor (strField step "identity")), t)
    | "provision" =>
      match s.overlays.provision (strField step "identity") t with
      | .ok (d, t') => (.str d.text, t')
      | .error e => (serverFailure e, t)
    | "tree" => (listing t serverRoot, t)
    | "http" =>
      let (r, t') := Http.serve s (httpRequestOf step) t
      (httpResponseJson r, t')
    | op => (requestFailure ("unknown service step " ++ op), t)

/-- Runs steps on a catalog service. -/
def serviceAnswer (req : Json) : Json :=
  match go with
  | .ok j => j
  | .error e => e
where
  go : Except Json Json := do
    let s ← serviceOf req
    let t ← serverTree req
    let (t, steps) := (((req.field? "ops").bind Json.arr?).getD []).foldl (fun (t, acc) step =>
      let (r, t') := serviceStep s t step
      (t', acc ++ [r])) (t, [])
    pure (.obj [("steps", .arr steps), ("server", listing t serverRoot)])

end ModMirror.Api
