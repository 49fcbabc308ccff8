import ModMirror.Api.Remote
import ModMirror.Api.Transfer
import ModMirror.Api.Plans
import ModMirror.Api.Server
import ModMirror.Api.Service

/-!
# Requests about sync sessions

`session` runs steps on one session whose install lives in `client`: checks,
applies and declines against a remote, cancellation, rollback, views of the
persisted state and the counters, and edits of the install's files. Apply
and decline work on the plan of the last successful check. Each step answers
its result and the phase the session is in afterwards.
-/

namespace ModMirror.Api

def clientRoot : String := treeRoot ++ "/client"

def checkJson (c : SyncCheck) : Json :=
  .obj [("server_version", .str c.serverVersion), ("plans", planSetJson c.plans)]

/-- The JSON form of a sync outcome. -/
def syncOutcomeJson : SyncOutcome → Json
  | .applied r restart =>
    .obj [("outcome", .str "applied"), ("report", reportJson r), ("restart_required", .bool restart)]
  | .declined => .obj [("outcome", .str "declined")]
  | .cancelled c i fs => outcomeJson (.cancelled c i fs)

/-- The persisted state of an install. -/
def persistedJson (d : DataDir) (t : FileTree) : Except SyncError Json := do
  let previous ← d.loadPrevious t
  let manifest ← d.removalManifest t
  pure (.obj [("previous", previous.iterJson), ("removal_manifest", Json.ofStrings manifest),
    ("staging_exists", .bool (d.stagingExists t)), ("has_pending_update", .bool (d.hasPendingUpdate t))])

/-- A session with the plan of its last successful check. -/
structure SessionRun (σ : Type) where
  session : SyncSession σ
  plans : PlanSet := {}

variable {σ α : Type}

/-- Runs a session step; its result, or its failure, and the session after it. -/
def SessionRun.run (r : SessionRun σ) (m : SessionM σ α) : Except SyncError α × SessionRun σ :=
  match m.run r.session with
  | .ok a s => (.ok a, { r with session := s })
  | .error e s => (.error e, { r with session := s })

/-- One step of a session. Steps the session does not know are passed to
`other`, which may act on the remote. -/
def sessionStep (remote : Remote σ) (other : Json → σ → Option (Json × σ)) (r : SessionRun σ) (step : Json) :
    Json × SessionRun σ :=
  let s := r.session
  match editStep s.tree clientRoot step with
  | some (t, j) => (j, { r with session := { s with tree := t } })
  | none =>
    match strField step "op" with
    | "check" =>
      match r.run (SyncSession.check remote) with
      | (.ok c, r') => (checkJson c, { r' with plans := c.plans })
      | (.error e, r') => (syncFailure e, r')
    | "apply" =>
      let (res, r') := r.run (SyncSession.apply remote r.plans)
      (answerOf syncFailure syncOutcomeJson res, r')
    | "decline" =>
      let (res, r') := r.run (SyncSession.decline remote r.plans)
      (answerOf syncFailure syncOutcomeJson res, r')
    | "cancel" => (.null, { r with session := { s with cancelled := true } })
    | "rollback" =>
      match s.data.rollback s.tree with
      | .ok (b, t) => (.bool b, { r with session := { s with tree := t } })
      | .error e => (syncFailure e, r)
    | "state" => (answerOf syncFailure id (persistedJson s.data s.tree), r)
    | "progress" => (progressJson s.progress, r)
    | "tree" => (listing s.tree clientRoot, r)
    | op =>
      match other step s.remote with
      | some (j, remote') => (j, { r with session := { s with remote := remote' } })
      | none => (requestFailure ("unknown session step " ++ op), r)

/-- Runs the steps of a request; their answers and the session afterwards. -/
def runSession (remote : Remote σ) (other : Json → σ → Option (Json × σ)) (s : SyncSession σ)
    (steps : List Json) : List Json × SyncSession σ :=
  let (acc, r) := steps.foldl (fun (acc, r) step =>
    let (j, r') := sessionStep remote other r step
    (acc ++ [.obj [("result", j), ("phase", .str r'.session.phase.name)]], r')) ([], ({ session := s } : SessionRun σ))
  (acc, r.session)

/-- The settings of a session request: the defaults without retries when none are given. -/
def sessionSettings (req : Json) : Except Json ClientSettings :=
  match req.present? "settings" with
  | some j => decodeBy ClientSettings.shape ClientSettings.ofJson j
  | none => .ok { retry := RetryPolicy.never }

/-- The install of a session request: its directory and the files described. -/
def clientTree (req : Json) : Except Json FileTree := do
  let t ← (({} : FileTree).createDirAll clientRoot).mapError fun e => fsFailure (.io clientRoot e)
  treeField req "tree" clientRoot t

/-- Steps on a scripted remote: `remote` replaces some of its fields. -/
def scriptedStep (step : Json) (r : ScriptedRemote) : Option (Json × ScriptedRemote) :=
  match strField step "op" with
  | "remote" =>
    some (.null, r.update step)
  | _ => none

/-- Runs a session against a scripted remote. -/
def scriptedSessionAnswer (req : Json) : Except Json Json := do
  let settings ← sessionSettings req
  let t ← clientTree req
  let remote := ScriptedRemote.update {} ((req.field? "remote").getD (.obj []))
  let s : SyncSession ScriptedRemote := { root := NormalPath.ofString clientRoot, settings, tree := t, remote }
  let (steps, s) := runSession ScriptedRemote.remote scriptedStep s (((req.field? "steps").bind Json.arr?).getD [])
  pure (.obj [("steps", .arr steps), ("client", listing s.tree clientRoot)])

/-- A catalog service over its tree, called as one identity. -/
structure ServedRemote where
  service : CatalogService
  tree : FileTree
  identity : Option String

namespace ServedRemote

/-- A failure of the service reaches the client as a lasting remote error. -/
def remoteError (e : ServerError) : SyncError := .remote e.message false

/-- The calls of a served remote. -/
def remote : Remote ServedRemote where
  version r := (.ok r.service.version, r)
  syncPaths r := (.ok r.service.specs, r)
  exclusions r := (.ok r.service.exclusionPatterns, r)
  hashes r requested :=
    let (set, t) := r.service.catalog (some requested) r.identity r.tree
    (set.mapError remoteError, { r with tree := t })
  fetch r p :=
    match r.service.resolveFile p r.identity r.tree with
    | (.ok file, t) => ((t.readFile file).mapError (fun e => remoteError (.io e)), { r with tree := t })
    | (.error e, t) => (.error (remoteError e), { r with tree := t })

/-- Steps on the server tree: `server_write`, `server_mkdir` and `server_delete`. -/
def step (step : Json) (r : ServedRemote) : Option (Json × ServedRemote) :=
  let op := strField step "op"
  if op.startsWith "server_" then
    let inner := match step with
      | .obj fields => Json.obj (fields.map fun (k, v) => if k == "op" then (k, .str (op.drop 7).toString) else (k, v))
      | j => j
    (editStep r.tree serverRoot inner).map fun (t, j) => (j, { r with tree := t })
  else none

end ServedRemote

/-- Runs a session against a catalog service. -/
def servedSessionAnswer (req : Json) (server : Json) : Except Json Json := do
  let settings ← sessionSettings req
  let t ← clientTree req
  let service ← serviceOf server
  let serverT ← serverTree server
  let serverT ← if boolField server "seed" false then
      (service.ensureDefaultSeed serverT).map Prod.snd |>.mapError serverFailure
    else pure serverT
  let remote : ServedRemote := { service, tree := serverT, identity := optStrField server "identity" }
  let s : SyncSession ServedRemote := { root := NormalPath.ofString clientRoot, settings, tree := t, remote }
  let (steps, s) := runSession ServedRemote.remote ServedRemote.step s (((req.field? "steps").bind Json.arr?).getD [])
  pure (.obj [("steps", .arr steps), ("client", listing s.tree clientRoot),
    ("server", listing s.remote.tree serverRoot)])

/-- Runs a session request, against a catalog service when one is given. -/
def sessionAnswer (req : Json) : Json :=
  let run := match req.present? "server" with
    | some server => servedSessionAnswer req server
    | none => scriptedSessionAnswer req
  match run with
  | .ok j => j
  | .error e => e

end ModMirror.Api
