import ModMirror.Api.Paths
import ModMirror.Api.Content
import ModMirror.Api.Exclusions
import ModMirror.Api.Catalogs
import ModMirror.Api.Plans
import ModMirror.Api.Specs
import ModMirror.Api.Retry
import ModMirror.Api.Server
import ModMirror.Api.Decode
import ModMirror.Api.Files
import ModMirror.Api.Build
import ModMirror.Api.State
import ModMirror.Api.Config
import ModMirror.Api.Transfer
import ModMirror.Api.Session
import ModMirror.Api.Service
import ModMirror.Json.Read
import ModMirror.Json.Print

/-!
# Serving requests

One request line in, one answer line out: the line is read as a JSON object,
its `op` chooses the operation, and the answer is written compactly.
-/

namespace ModMirror.Api

/-- The answer to a request object. -/
def dispatch (req : Json) : Json :=
  match strField req "op" with
  | "path" => pathAnswer req
  | "sanitize" => sanitizeAnswer req
  | "fold_key" => foldKeyAnswer req
  | "validate_identifier" => identifierAnswer req
  | "format" => formatAnswer req
  | "hash_bytes" => hashBytesAnswer req
  | "exclusion" => exclusionAnswer req
  | "matcher" => matcherAnswer req
  | "catalog" => catalogAnswer req
  | "catalog_set" => catalogSetAnswer req
  | "plan" => planAnswer req
  | "spec" => specAnswer req
  | "spec_new" => specNewAnswer req
  | "validate_sync_paths" => validateSyncPathsAnswer req
  | "phase" => phaseAnswer req
  | "retry" => retryAnswer req
  | "retry_blocking" => retryBlockingAnswer req
  | "transient" => transientAnswer req
  | "settings" => settingsAnswer req
  | "fallback" => fallbackAnswer req
  | "server_config" => serverConfigAnswer req
  | "decode" => decodeAnswer req
  | "hash_file" => hashFileAnswer req
  | "catalog_build" => catalogBuildAnswer req
  | "transfer" => transferAnswer req
  | "session" => sessionAnswer req
  | "service" => serviceAnswer req
  | "state" => stateAnswer req
  | "config_store" => configStoreAnswer req
  | "server_config_load" => serverConfigLoadAnswer req
  | op => requestFailure ("unknown op " ++ op)

/-- The answer line to a request line. -/
def respond (line : String) : String :=
  match Json.parse line with
  | .ok req => Json.render (dispatch req)
  | .error e => Json.render (requestFailure e.text)

end ModMirror.Api
