import ModMirror.Sync.Error

/-!
# Server errors

Failures of the catalog server: a request that climbs out of the root, names
no sync path, an excluded or missing file, a bad identity or client version,
a bad configuration, or a failure of the layers below. Each maps to an HTTP
status: client mistakes to 400, absent files to 404, the rest to 500.
-/

namespace ModMirror

/-- Failures of the server. -/
inductive ServerError where
  | traversal (path : String)
  | notInSyncPath (path : String)
  | excluded (path : String)
  | notFound (path : String)
  | invalidIdentity (identity reason : String)
  | invalidVersion (version reason : String)
  | config (message : String)
  | core (cause : SyncError)
  | fs (cause : FsError)
  | io (cause : IoError)
  deriving DecidableEq, Repr

namespace ServerError

/-- The text of a failure. -/
def message : ServerError → String
  | traversal p => "Requested path '" ++ p ++ "' escapes the server root"
  | notInSyncPath p => "Requested file '" ++ p ++ "' is not in a sync path"
  | excluded p => "Requested file '" ++ p ++ "' is excluded"
  | notFound p => "Requested file '" ++ p ++ "' does not exist"
  | invalidIdentity i r => "Invalid identity '" ++ i ++ "': " ++ r
  | invalidVersion v r => "Invalid client version '" ++ v ++ "': " ++ r
  | config m => "Invalid server configuration: " ++ m
  | core e => e.message
  | fs e => e.message
  | io e => e.message

/-- The kind of a failure; wrapped failures keep their own kind. -/
def kind : ServerError → String
  | traversal .. => "server::Traversal"
  | notInSyncPath .. => "server::NotInSyncPath"
  | excluded .. => "server::Excluded"
  | notFound .. => "server::NotFound"
  | invalidIdentity .. => "server::InvalidIdentity"
  | invalidVersion .. => "server::InvalidVersion"
  | config .. => "server::Config"
  | core e => e.kind
  | fs e => "fs::" ++ e.kindName
  | io .. => "server::Io"

/-- The HTTP status of a failure. -/
def status : ServerError → Nat
  | traversal .. | invalidIdentity .. | invalidVersion .. => 400
  | notInSyncPath .. | excluded .. | notFound .. => 404
  | fs (.pathTraversal _) => 400
  | _ => 500

end ServerError

end ModMirror
