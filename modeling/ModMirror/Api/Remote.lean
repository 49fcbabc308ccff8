import ModMirror.Api.Content
import ModMirror.Api.Catalogs
import ModMirror.Sync.Session

/-!
# Scripted file sources

A request can stand in for a server with a table of files. Each file may be
set to fail its first few fetches, with a passing or a lasting error; a path
that is not in the table is not found. Fetches are counted per path, so the
failures follow one another as a real server's would.

    fetch of a listed path succeeds from call failTimes + 1 on

A scripted remote adds the server's version, sync paths, exclusions and
catalogs, and may be set to fail any of its calls every time. Its catalogs
are answered whatever paths are asked for.
-/

namespace ModMirror.Api

/-- A scripted file: its content, how many first fetches fail, and whether
those failures are passing ones. -/
structure ScriptedFile where
  content : ByteArray
  failTimes : Nat := 0
  transient : Bool := true

/-- Files served by path, with the number of fetches of each path so far. -/
structure ScriptedFiles where
  files : List (String × ScriptedFile) := []
  calls : List (String × Nat) := []

namespace ScriptedFiles

def callsOf (s : ScriptedFiles) (p : String) : Nat := (s.calls.lookup p).getD 0

/-- Fetches a path: counted first, then failing as scripted. -/
def fetch : Fetch ScriptedFiles := fun s p =>
  let n := s.callsOf p + 1
  let s' := { s with calls := (p, n) :: s.calls.filter (·.1 != p) }
  match s.files.lookup p with
  | none => (.error (.remote ("404 Not Found: " ++ p) false), s')
  | some f =>
    if n ≤ f.failTimes then
      (.error (.remote ("fetch of " ++ p ++ " failed (attempt " ++ toString n ++ ")") f.transient), s')
    else (.ok f.content, s')

/-- A scripted file of a request: plain content, or an object with the
content, `fail_times` and `transient`. -/
def fileOf (j : Json) : ScriptedFile :=
  match j.field? "content" with
  | some c =>
    { content := (contentOf c).getD ByteArray.empty,
      failTimes := ((j.field? "fail_times").bind Json.nat?).getD 0,
      transient := ((j.present? "transient").bind Json.bool?).getD true }
  | none => { content := (contentOf j).getD ByteArray.empty }

/-- The scripted files of a request object, with no fetch counted yet. -/
def ofJson (j : Json) : ScriptedFiles :=
  { files := ((j.obj?).getD []).map fun (p, v) => (p, fileOf v) }

end ScriptedFiles

/-- A server stood in for by a request. -/
structure ScriptedRemote where
  version : String := "0.9.0"
  /-- The sync paths, decoded when they are asked for. -/
  syncPaths : Json := .arr []
  exclusions : List String := []
  /-- The catalogs, decoded when they are asked for. -/
  hashes : Json := .obj []
  files : ScriptedFiles := {}
  /-- The calls that fail, by name, and how. -/
  failing : List (String × SyncError) := []

namespace ScriptedRemote

/-- Answers a call by name, unless it is set to fail. -/
def answer {α : Type} (r : ScriptedRemote) (name : String) (v : α) : Except SyncError α × ScriptedRemote :=
  match r.failing.lookup name with
  | some e => (.error e, r)
  | none => (.ok v, r)

/-- Decodes a value held by the remote; a value of the wrong type fails the call. -/
def decoded {α : Type} (shape : Json.Shape) (build : Json → α) (j : Json) : Except SyncError α :=
  (Json.ofValue shape j).map build |>.mapError SyncError.json

/-- Answers a call by name with a value decoded on the way, unless the call
is set to fail. -/
def answerDecoded {α : Type} (r : ScriptedRemote) (name : String) (v : Except SyncError α) :
    Except SyncError α × ScriptedRemote :=
  match r.failing.lookup name with
  | some e => (.error e, r)
  | none => (v, r)

/-- The calls of a scripted remote. -/
def remote : Remote ScriptedRemote where
  version r := r.answer "version" r.version
  syncPaths r := r.answerDecoded "sync_paths"
    (decoded (.list SyncPathSpec.shape) (fun j => ((j.arr?).getD []).map SyncPathSpec.ofJson) r.syncPaths)
  exclusions r := r.answer "exclusions" r.exclusions
  hashes r _ := r.answerDecoded "hashes" (decoded CatalogSet.shape CatalogSet.ofJson r.hashes)
  fetch r p :=
    match r.failing.lookup "fetch" with
    | some e => (.error e, r)
    | none =>
      let (res, files) := ScriptedFiles.fetch r.files p
      (res, { r with files })

/-- The failure a call is set to: a remote error with its message. -/
def failureOf (j : Json) : SyncError :=
  .remote (((j.field? "message").bind Json.str?).getD "") (((j.present? "transient").bind Json.bool?).getD false)

/-- Replaces the fields a request object gives; new files are counted afresh. -/
def update (r : ScriptedRemote) (j : Json) : ScriptedRemote :=
  let r := match (j.field? "version").bind Json.str? with
    | some v => { r with version := v }
    | none => r
  let r := match j.present? "sync_paths" with
    | some v => { r with syncPaths := v }
    | none => r
  let r := match j.present? "exclusions" with
    | some _ => { r with exclusions := strListField j "exclusions" }
    | none => r
  let r := match j.present? "hashes" with
    | some v => { r with hashes := v }
    | none => r
  let r := match j.present? "files" with
    | some v => { r with files := ScriptedFiles.ofJson v }
    | none => r
  match (j.present? "fail").bind Json.obj? with
  | some calls => { r with failing := calls.map fun (name, v) => (name, failureOf v) }
  | none => r

end ScriptedRemote

end ModMirror.Api
