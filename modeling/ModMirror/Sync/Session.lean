import ModMirror.Sync.Transfer
import ModMirror.Sync.State
import ModMirror.Sync.Settings
import ModMirror.Catalog.Builder
import ModMirror.Fs.Hash

/-!
# Sync sessions

A session walks one install through a sync, one phase at a time:

* `check` fetches the server's version, sync paths, exclusions and catalogs
  of the enabled paths, catalogues the local files, saves that catalog, and
  plans. With nothing to do the remote catalogs are committed at once and
  the session is idle again; otherwise the plan waits for confirmation, or
  is applied silently when no changed path asks for it.
* `apply` takes the sync lock, refuses to run over staged files left by an
  earlier sync, and downloads the plan. A finished transfer commits the
  remote catalogs and the removals; unless a restart is needed the staging
  directory is cleared. A cancelled transfer clears the staging directory.
* `decline` keeps only the enforced changes and applies them, if any.

Every step must be a legal phase transition. A failure after the session
left idle aborts it: the session walks through the fatal error (when that is
a legal step) and the report back to idle, and the failure is returned. The
sync lock is held from before the transfer phase is entered until `apply`
ends. Every change of phase is recorded, with whether the lock was held and
the files as they were, so that runs can be reasoned about.

    after any step that returns, the session is idle or waits on a plan
-/

namespace ModMirror

/-- What a sync asks of its server. Every call may change the remote's
state `σ` (it may count calls, say). -/
structure Remote (σ : Type) where
  version : σ → Except SyncError String × σ
  syncPaths : σ → Except SyncError (List SyncPathSpec) × σ
  exclusions : σ → Except SyncError (List String) × σ
  hashes : σ → List String → Except SyncError CatalogSet × σ
  fetch : Fetch σ

/-- A change of phase: the phase entered, whether the sync lock was held, and
the files at that moment. -/
structure PhaseChange where
  phase : SyncPhase
  locked : Bool
  tree : FileTree

/-- A sync between one install and its server. -/
structure SyncSession (σ : Type) where
  root : NormalPath
  settings : ClientSettings
  tree : FileTree
  remote : σ
  phase : SyncPhase := .idle
  cancelled : Bool := false
  progress : TransferProgress := {}
  /-- Whether the session holds the sync lock. -/
  locked : Bool := false
  /-- Every change of phase so far, oldest first. -/
  history : List PhaseChange := []
  /-- How the runtime interleaves the units of a transfer; with no events
  they run one after another. -/
  schedule : List TransferEvent := []

/-- What a check found: the server's version and the plan. -/
structure SyncCheck where
  serverVersion : String
  plans : PlanSet

/-- How an apply or decline ended. -/
inductive SyncOutcome where
  | applied (report : TransferReport) (restartRequired : Bool)
  | declined
  | cancelled (completed inPlace : Nat) (failures : List TransferFailure)
  deriving DecidableEq, Repr

/-- What a check fetched from the server. -/
structure RemoteState where
  version : String
  enabled : List SyncPathSpec
  exclusions : ExclusionSet
  catalogs : CatalogSet

/-- Steps of a session: a failure leaves the session as the step left it. -/
abbrev SessionM (σ : Type) := EStateM SyncError (SyncSession σ)

namespace SyncSession

variable {σ α : Type}

def data (s : SyncSession σ) : DataDir := DataDir.forRoot s.root

def hasher (s : SyncSession σ) : ContentHasher := { retry := s.settings.retry }

/-- The session in phase `p`, with the change recorded. -/
def entering (s : SyncSession σ) (p : SyncPhase) : SyncSession σ :=
  { s with phase := p, history := s.history ++ [⟨p, s.locked, s.tree⟩] }

def enter (p : SyncPhase) : SessionM σ Unit := modify (·.entering p)

/-- Moves to the next phase, if that is one legal step. -/
def transition (next : SyncPhase) : SessionM σ Unit := do
  let s ← get
  if s.phase.canTransition next then enter next
  else throw (.invalidTransition s.phase next)

/-- Walks the failure path back to idle and fails with `e`: into the fatal
error when that is a legal step, then to the report, then to idle. -/
def abort (e : SyncError) : SessionM σ α := do
  if (← get).phase.canTransition .fatalError then enter .fatalError
  enter .reportAndAbort
  enter .idle
  throw e

/-- Runs a step; if it fails, the session is aborted. -/
def orAbort (m : SessionM σ α) : SessionM σ α := tryCatch m abort

def releaseLock : SessionM σ Unit := modify fun s => { s with locked := false }

/-- Fails with the failure of a result. -/
def lift (r : Except SyncError α) : SessionM σ α :=
  match r with
  | .ok a => pure a
  | .error e => throw e

/-- Runs a change of the files of the install. -/
def onTree (f : FileTree → Except SyncError FileTree) : SessionM σ Unit := do
  let t ← lift (f (← get).tree)
  modify fun s => { s with tree := t }

/-- Runs a step on the files of the install; what it changed stays changed
when it fails. -/
def onFiles (m : EStateM SyncError FileTree α) : SessionM σ α := fun s =>
  match m s.tree with
  | .ok a t => .ok a { s with tree := t }
  | .error e t => .error e { s with tree := t }

/-- Calls the remote, keeping what the call changed there. -/
def call (f : σ → Except SyncError α × σ) : SessionM σ α := do
  let (r, remote) := f (← get).remote
  modify fun s => { s with remote }
  lift r

/-- Fetches the server's state for the enabled sync paths. -/
def fetchRemoteState (r : Remote σ) : SessionM σ RemoteState := do
  let version ← call r.version
  let specs ← call r.syncPaths
  specs.forM fun spec => do let _ ← lift spec.validateLocation
  let exclusions ← lift (ExclusionSet.compile (← call r.exclusions))
  let s ← get
  let enabled := specs.filter s.settings.isEnabled
  let catalogs ← call (r.hashes · (enabled.map (·.path)))
  pure ⟨version, enabled, exclusions, catalogs⟩

/-- Catalogues the local files, saves that catalog, and plans. -/
def diff (fetched : RemoteState) : SessionM σ PlanSet := do
  let s ← get
  let previous ← lift (s.data.loadPrevious s.tree)
  let (patterns, t) ← lift (s.data.loadLocalExclusions s.tree s.settings.headless)
  modify fun s => { s with tree := t }
  let localExclusions ← lift (ExclusionSet.compile patterns)
  let targets := fetched.enabled.map fun spec =>
    let global : ExclusionMatcher := { base := s.root, sets := [fetched.exclusions] }
    ({ syncPath := spec.path, base := none,
       matcher := if spec.enforced then global else global.withSet localExclusions } : CatalogTarget)
  let builder : CatalogBuilder := { base := s.root, hasher := s.hasher }
  let loc ← lift (builder.build t targets)
  onTree fun t => s.data.saveLocalHashes t loc
  pure (planSync loc fetched.catalogs previous fetched.enabled
    { deleteRemovedFiles := s.settings.deleteRemovedFiles, localExclusions })

/-- Checks the server and plans a sync (see the module comment). -/
def check (r : Remote σ) : SessionM σ SyncCheck := do
  transition .fetchingRemoteState
  modify fun s => { s with cancelled := false }
  let fetched ← orAbort (fetchRemoteState r)
  transition .diffing
  let plans ← orAbort (diff fetched)
  if plans.isEmpty then
    transition .noChanges
    let d := (← get).data
    orAbort (onFiles (d.commit plans.remote []))
    transition .idle
  else
    transition .planReady
    let headless := (← get).settings.headless
    transition (if plans.isSilent headless then .silentApply else .awaitingConfirmation)
  pure ⟨fetched.version, plans⟩

/-- Takes the sync lock and enters the transfer, unless staged files of an
earlier sync are still pending, in which case the lock is let go again. Only
an illegal step leaves the phase as it was. -/
def enterTransfer : SessionM σ Unit := do
  let s ← get
  unless s.phase.canTransition .transferring do throw (.invalidTransition s.phase .transferring)
  orAbort do
    onTree s.data.acquireLock
    modify fun s => { s with locked := true }
    if s.data.stagingExists (← get).tree then
      releaseLock
      throw (.stagingInFlight s.data.staging.text)
    transition .transferring

/-- Ends a finished transfer: commits the remote catalogs and the removals,
and clears the staging directory unless a restart is needed. -/
def finish (plans : PlanSet) (report : TransferReport) : SessionM σ SyncOutcome := do
  transition .success
  transition .commitAndMaybeRestart
  let d := (← get).data
  let removed := plans.removedFiles
  orAbort (onFiles (d.commit plans.remote removed))
  let restartRequired := plans.requiresRestart || !removed.isEmpty
  unless restartRequired do
    orAbort (onTree fun t => (d.clearStaging t).map Prod.snd)
  transition .idle
  pure (.applied report restartRequired)

/-- Ends a cancelled transfer: the staging directory is cleared. -/
def rollBack (completed inPlace : Nat) (failures : List TransferFailure) : SessionM σ SyncOutcome := do
  transition .cancelled
  transition .rollbackStaging
  let d := (← get).data
  orAbort (onTree fun t => (d.clearStaging t).map Prod.snd)
  transition .idle
  pure (.cancelled completed inPlace failures)

/-- Downloads a plan in the transfer phase, then commits it or rolls the
staging directory back. -/
def transfer (r : Remote σ) (plans : PlanSet) : SessionM σ SyncOutcome := do
  let s ← get
  let m : TransferManager :=
    { live := s.root, staging := s.data.staging, concurrency := s.settings.downloadConcurrency,
      retry := s.settings.retry }
  set { s with progress := {} }
  match m.execute plans r.fetch s.remote s.cancelled s.schedule s.tree with
  | .error e => abort e
  | .ok run =>
    modify fun s =>
      { s with tree := run.tree, remote := run.source, cancelled := run.cancelled, progress := run.progress }
    match run.outcome with
    | .completed report => finish plans report
    | .cancelled c i fs => rollBack c i fs

/-- Downloads a plan (see the module comment); the sync lock is let go when
the transfer has ended, however it ended. -/
def apply (r : Remote σ) (plans : PlanSet) : SessionM σ SyncOutcome := do
  enterTransfer
  let outcome ← tryCatch (transfer r plans) fun e => do
    releaseLock
    throw e
  releaseLock
  pure outcome

/-- Declines the optional changes of a plan: the enforced ones are applied,
if there are any. -/
def decline (r : Remote σ) (plans : PlanSet) : SessionM σ SyncOutcome := do
  let enforced := plans.enforcedOnly
  if enforced.isEmpty then
    transition .idle
    pure .declined
  else apply r enforced

/-- Raises the cancel signal: a transfer started now stops before its first file. -/
def cancel : SessionM σ Unit := modify fun s => { s with cancelled := true }

end SyncSession

end ModMirror
