import ModMirror.Fs.Error
import ModMirror.Sync.Phase

/-!
# Sync errors

What can go wrong in a sync: a bad exclusion pattern or sync path, a damaged
state file, an illegal phase step, leftover staging, a lock held by another
sync, a failed remote call, cancellation, or a failure of the file layer,
of plain I/O or of JSON decoding, which keep their own texts.

    SyncError.transient e ↔ retrying e could plausibly succeed
-/

namespace ModMirror

/-- Failures of a sync. Paths are kept as they are displayed. -/
inductive SyncError where
  | invalidPattern (pattern reason : String)
  | invalidSyncPath (path reason : String)
  | malformedState (path message : String)
  | invalidTransition (source target : SyncPhase)
  | stagingInFlight (path : String)
  | syncInProgress (path : String)
  | remote (message : String) (transient : Bool)
  | cancelled
  | taskFailed (message : String)
  | fs (cause : FsError)
  | io (cause : IoError)
  | json (message : String)
  deriving DecidableEq, Repr

namespace SyncError

/-- The text of a failure. -/
def message : SyncError → String
  | invalidPattern p r => "Invalid exclusion pattern '" ++ p ++ "': " ++ r
  | invalidSyncPath p r => "Invalid sync path '" ++ p ++ "': " ++ r
  | malformedState p m => "Malformed sync state at " ++ p ++ ": " ++ m ++ ". Fix or delete the file and try again"
  | invalidTransition a b => "Invalid sync phase transition from " ++ a.name ++ " to " ++ b.name
  | stagingInFlight p =>
    "Staged updates from a previous sync are still pending at " ++ p ++ "; run the updater or roll back first"
  | syncInProgress p => "Another sync is already in progress (lock held on " ++ p ++ ")"
  | remote m _ => "Remote error: " ++ m
  | cancelled => "Sync cancelled"
  | taskFailed m => "Background task failed: " ++ m
  | fs e => e.message
  | io e => e.message
  | json m => m

/-- The kind of a failure: the file layer's own kinds pass through. -/
def kind : SyncError → String
  | invalidPattern .. => "core::InvalidPattern"
  | invalidSyncPath .. => "core::InvalidSyncPath"
  | malformedState .. => "core::MalformedState"
  | invalidTransition .. => "core::InvalidTransition"
  | stagingInFlight .. => "core::StagingInFlight"
  | syncInProgress .. => "core::SyncInProgress"
  | remote .. => "core::Remote"
  | cancelled => "core::Cancelled"
  | taskFailed .. => "core::TaskFailed"
  | fs e => "fs::" ++ e.kindName
  | io .. => "core::Io"
  | json .. => "core::Json"

/-- Whether retrying could plausibly succeed. -/
def transient : SyncError → Bool
  | fs e => e.transient
  | io e => e.transient
  | remote _ t => t
  | _ => false

end SyncError

end ModMirror
