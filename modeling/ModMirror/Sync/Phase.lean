/-!
# Phases of a sync attempt

A sync attempt moves through fixed phases: it fetches the remote state,
diffs it against the local catalogs, then either finds nothing to do or
makes a plan, which is confirmed (or applied silently), transferred and
committed. A cancelled transfer rolls its staging back. Any phase that has
started work may fail fatally, which is reported before returning to idle.

    canTransition a .fatalError = true  ↔  a ∉ [idle, fatalError, reportAndAbort]
-/

namespace ModMirror

/-- A phase of a sync attempt. -/
inductive SyncPhase where
  | idle
  | fetchingRemoteState
  | diffing
  | noChanges
  | planReady
  | awaitingConfirmation
  | silentApply
  | transferring
  | success
  | commitAndMaybeRestart
  | cancelled
  | rollbackStaging
  | fatalError
  | reportAndAbort
  deriving DecidableEq, Repr, Inhabited

namespace SyncPhase

def all : List SyncPhase :=
  [idle, fetchingRemoteState, diffing, noChanges, planReady, awaitingConfirmation, silentApply,
    transferring, success, commitAndMaybeRestart, cancelled, rollbackStaging, fatalError, reportAndAbort]

/-- The name of a phase. -/
def name : SyncPhase → String
  | idle => "Idle"
  | fetchingRemoteState => "FetchingRemoteState"
  | diffing => "Diffing"
  | noChanges => "NoChanges"
  | planReady => "PlanReady"
  | awaitingConfirmation => "AwaitingConfirmation"
  | silentApply => "SilentApply"
  | transferring => "Transferring"
  | success => "Success"
  | commitAndMaybeRestart => "CommitAndMaybeRestart"
  | cancelled => "Cancelled"
  | rollbackStaging => "RollbackStaging"
  | fatalError => "FatalError"
  | reportAndAbort => "ReportAndAbort"

def ofName? (s : String) : Option SyncPhase := all.find? (·.name == s)

/-- Whether moving from `a` to `b` is one legal step. -/
def canTransition (a b : SyncPhase) : Bool :=
  match a, b with
  | idle, fatalError | fatalError, fatalError | reportAndAbort, fatalError => false
  | _, fatalError => true
  | idle, fetchingRemoteState | fetchingRemoteState, diffing | diffing, noChanges
  | diffing, planReady | noChanges, idle | planReady, awaitingConfirmation
  | planReady, silentApply | awaitingConfirmation, transferring | awaitingConfirmation, idle
  | silentApply, transferring | transferring, success | transferring, cancelled
  | success, commitAndMaybeRestart | commitAndMaybeRestart, idle | cancelled, rollbackStaging
  | rollbackStaging, idle | fatalError, reportAndAbort | reportAndAbort, idle => true
  | _, _ => false

theorem canTransition_fatal (a : SyncPhase) :
    canTransition a fatalError = true ↔ a ≠ idle ∧ a ≠ fatalError ∧ a ≠ reportAndAbort := by
  cases a <;> simp [canTransition]

end SyncPhase

end ModMirror
