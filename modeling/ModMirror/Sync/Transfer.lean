import ModMirror.Sync.Plan
import ModMirror.Sync.Error
import ModMirror.Fs.Store
import ModMirror.Fs.Retry
import ModMirror.Path.Relative

/-!
# Downloading a plan

A transfer fetches every file that a plan set adds or updates and writes it
below one of two roots: the staging root when its sync path needs a restart,
the live root otherwise. Every destination is checked first, so a path that
escapes its root stops the transfer before anything is written. The empty
directories that the plans create are made next; a failure there is only
not counted.

Each file is then a unit of work that runs as a task of its own. The batch
loop starts the units in plan order, at most `concurrency` at a time, and
stops starting them once the cancel token is raised. A task, at the head of
its loop, gives up if the token is raised; otherwise it fetches its file and
writes it. A try that fails with a passing error is made again while the
retry policy allows; any other failure, or the last one, raises the token,
so that the rest of the batch stops too. The token may also be raised from
outside, at any moment.

How the tasks interleave is up to the runtime. A run takes a schedule, the
events in the order they happen; after them the batch is finished one unit
at a time. The outcome is the full report when the token is down at the end;
otherwise it is what the tasks did: how many files they wrote (how many of
them in place) and the failures that stopped them.

    schedule = []  →  the units run one after another, in plan order
-/

namespace ModMirror

/-- How far a batch of downloads has come. -/
structure TransferProgress where
  total : Nat := 0
  completed : Nat := 0
  failed : Nat := 0
  deriving DecidableEq, Repr

/-- Counts a unit that ended with an error; one stopped by the token is not counted. -/
def TransferProgress.recordFailed (p : TransferProgress) : SyncError → TransferProgress
  | .cancelled => p
  | _ => { p with failed := p.failed + 1 }

/-- What a finished transfer did. -/
structure TransferReport where
  downloaded : Nat
  staged : Nat
  inPlace : Nat
  directoriesCreated : Nat
  deriving DecidableEq, Repr

/-- A file that could not be downloaded, with the text of its failure. -/
structure TransferFailure where
  path : String
  error : String
  deriving DecidableEq, Repr

/-- How a transfer ended. -/
inductive TransferOutcome where
  | completed (report : TransferReport)
  /-- The batch was cancelled: how many files were written (how many of them
  in place) and the failures that stopped it. -/
  | cancelled (completed inPlace : Nat) (failures : List TransferFailure)
  deriving DecidableEq, Repr

/-- Whether the transfer ran to its end. -/
def TransferOutcome.isCompleted : TransferOutcome → Bool
  | .completed _ => true
  | .cancelled .. => false

/-- A way to fetch a file by its remote path. Fetching may change the
source's state `σ` (it may count calls, say). -/
abbrev Fetch (σ : Type) := σ → String → Except SyncError ByteArray × σ

/-- One file to download: its remote path, where it goes, and whether that is
the staging root. -/
structure TransferUnit where
  relative : String
  destination : String
  staged : Bool
  deriving DecidableEq, Repr

/-- Replaces a file's content, making its parent directories first. -/
def replaceFile (t : FileTree) (p : String) (content : ByteArray) : Except FsError FileTree := do
  let t ← ensureParent t p
  replaceContent t p content

/-- Where downloads go, how many run at once, and how often a failed try is
made again. -/
structure TransferManager where
  live : NormalPath
  staging : NormalPath
  /-- How many units may run at once; zero counts as one. -/
  concurrency : Nat := 8
  retry : RetryPolicy := .never
  deriving Repr

namespace TransferManager

/-- How many units may hold a permit at once. -/
def capacity (m : TransferManager) : Nat := max m.concurrency 1

/-- The root that a sync path's files go to. -/
def rootFor (m : TransferManager) (restartRequired : Bool) : NormalPath :=
  if restartRequired then m.staging else m.live

/-- The unit of the download path `rel` of plan `p`; a path escaping its root
is refused. -/
def unitOf (m : TransferManager) (p : SyncPlan) (rel : String) : Except SyncError TransferUnit := do
  let clean ← (Path.sanitize rel).mapError SyncError.fs
  pure { relative := rel, destination := (m.rootFor p.spec.restartRequired |>.join clean).text,
         staged := p.spec.restartRequired }

/-- The units of a plan set, in plan order. -/
def units (m : TransferManager) (plans : PlanSet) : Except SyncError (List TransferUnit) :=
  plans.plans.flatMapM fun p => p.downloads.mapM (m.unitOf p)

/-- Makes one directory a plan creates, if its path is acceptable. -/
def createDirectory (root : NormalPath) (t : FileTree) (dir : String) : Option FileTree :=
  match Path.sanitize dir with
  | .ok clean => (t.createDirAll (root.join clean).text).toOption
  | .error _ => none

/-- Makes the directories the plans create; how many were made. -/
def createDirectories (m : TransferManager) (plans : PlanSet) (t : FileTree) : Nat × FileTree :=
  plans.plans.foldl (fun acc p =>
    p.createdDirectories.foldl (fun (n, t) dir =>
      match createDirectory (m.rootFor p.spec.restartRequired) t dir with
      | some t' => (n + 1, t')
      | none => (n, t)) acc) (0, t)

end TransferManager

/-- What can happen next while a batch runs. -/
inductive TransferEvent where
  /-- The batch loop moves on: it starts its next unit, or stops starting
  units if the token is raised. -/
  | start
  /-- The `i`-th started unit takes its next step. -/
  | advance (i : Nat)
  /-- The token is raised from outside. -/
  | cancel
  deriving DecidableEq, Repr

/-- Where a started unit stands. -/
inductive UnitStage where
  /-- At the head of its loop: it looks at the token, then fetches. -/
  | ready
  /-- Its current try fetched these bytes, which it writes next. -/
  | fetched (bytes : ByteArray)
  /-- It found the token raised and gave up. -/
  | stopped
  /-- It wrote these bytes to its destination. -/
  | written (bytes : ByteArray)
  /-- Its last try failed with this error, which it did not try again. -/
  | failed (error : SyncError)

/-- A started unit: the errors of the tries it made again (their number is
its retry count), and where it stands. -/
structure UnitTask where
  unit : TransferUnit
  retried : List SyncError := []
  stage : UnitStage := .ready

namespace UnitTask

/-- Whether a task has ended, so that its permit is free again. -/
def ended (k : UnitTask) : Bool :=
  match k.stage with
  | .ready | .fetched _ => false
  | _ => true

/-- Whether a task wrote its file. -/
def wrote (k : UnitTask) : Bool :=
  match k.stage with
  | .written _ => true
  | _ => false

/-- The failure a task reports: its error, unless it is the token's. -/
def failure (k : UnitTask) : Option TransferFailure :=
  match k.stage with
  | .failed .cancelled => none
  | .failed e => some ⟨k.unit.relative, e.message⟩
  | _ => none

end UnitTask

/-- Everything a batch changes as it runs. -/
structure TransferBatch (σ : Type) where
  tree : FileTree
  source : σ
  cancelled : Bool
  progress : TransferProgress
  /-- The units the batch loop has yet to start, in order; emptied when it stops. -/
  waiting : List TransferUnit
  /-- The started units, in the order they started. -/
  tasks : List UnitTask := []

namespace TransferBatch

variable {σ : Type}

/-- Ends a try of the `i`-th task `k` that failed with `e`. After a passing
failure the task tries again while retries remain; otherwise it fails and
raises the token. -/
def endTry (retry : RetryPolicy) (b : TransferBatch σ) (i : Nat) (k : UnitTask) (e : SyncError) :
    TransferBatch σ :=
  if e.transient && decide (k.retried.length < retry.maxRetries) then
    { b with tasks := b.tasks.set i { k with retried := k.retried ++ [e], stage := .ready } }
  else
    { b with
      tasks := b.tasks.set i { k with stage := .failed e }, cancelled := true,
      progress := b.progress.recordFailed e }

/-- The next step of the `i`-th started task: at the head of its loop it
gives up if the token is raised and fetches otherwise; with its bytes
fetched it writes them. -/
def advance (fetch : Fetch σ) (retry : RetryPolicy) (b : TransferBatch σ) (i : Nat) : TransferBatch σ :=
  match b.tasks[i]? with
  | none => b
  | some k =>
    match k.stage with
    | .ready =>
      if b.cancelled then { b with tasks := b.tasks.set i { k with stage := .stopped } }
      else
        match fetch b.source k.unit.relative with
        | (.ok bytes, s) => { b with source := s, tasks := b.tasks.set i { k with stage := .fetched bytes } }
        | (.error e, s) => endTry retry { b with source := s } i k e
    | .fetched bytes =>
      match replaceFile b.tree k.unit.destination bytes with
      | .ok t =>
        { b with
          tree := t, tasks := b.tasks.set i { k with stage := .written bytes },
          progress := { b.progress with completed := b.progress.completed + 1 } }
      | .error e => endTry retry b i k (.fs e)
    | _ => b

/-- The batch loop's next move. With the token raised it stops starting
units; otherwise it starts the next one once fewer than `capacity` run. -/
def start (capacity : Nat) (b : TransferBatch σ) : TransferBatch σ :=
  match b.waiting with
  | [] => b
  | u :: rest =>
    if b.cancelled then { b with waiting := [] }
    else if (b.tasks.filter fun k => !k.ended).length < capacity then
      { b with waiting := rest, tasks := b.tasks ++ [{ unit := u }] }
    else b

/-- What one event does to a batch. -/
def step (m : TransferManager) (fetch : Fetch σ) (b : TransferBatch σ) : TransferEvent → TransferBatch σ
  | .start => b.start m.capacity
  | .advance i => b.advance fetch m.retry i
  | .cancel => { b with cancelled := true }

/-- A batch after a list of events. -/
def run (m : TransferManager) (fetch : Fetch σ) (b : TransferBatch σ) (events : List TransferEvent) :
    TransferBatch σ :=
  events.foldl (step m fetch) b

/-- The events that run the first `n` tasks `steps` steps each, one task
after another. -/
def advanceEach (steps : Nat) : Nat → List TransferEvent
  | 0 => []
  | n + 1 => advanceEach steps n ++ List.replicate steps (.advance n)

/-- The events that start the waiting units, the first of them as the `n`-th
task, each followed by `steps` steps of its own. -/
def startEach (steps : Nat) : Nat → List TransferUnit → List TransferEvent
  | _, [] => []
  | n, _ :: rest => .start :: List.replicate steps (.advance n) ++ startEach steps (n + 1) rest

/-- The events that finish a batch one unit at a time: every started unit
runs to its end, then each waiting unit is started and runs to its end. A
try takes at most two steps, and a unit makes at most `maxRetries + 1` tries. -/
def finishing (retry : RetryPolicy) (b : TransferBatch σ) : List TransferEvent :=
  let steps := 2 * (retry.maxRetries + 1)
  advanceEach steps b.tasks.length ++ startEach steps b.tasks.length b.waiting

def completed (b : TransferBatch σ) : Nat := (b.tasks.filter UnitTask.wrote).length

/-- How many tasks wrote their file into the live tree. -/
def inPlace (b : TransferBatch σ) : Nat := (b.tasks.filter fun k => k.wrote && !k.unit.staged).length

/-- The failures of the tasks, in the order they started. -/
def failures (b : TransferBatch σ) : List TransferFailure := b.tasks.filterMap UnitTask.failure

end TransferBatch

/-- What a run leaves behind: its outcome, its counters, the files and the
source as they are afterwards, whether the token is raised, and the started
units as they ended. -/
structure TransferRun (σ : Type) where
  outcome : TransferOutcome
  progress : TransferProgress
  tree : FileTree
  source : σ
  cancelled : Bool
  tasks : List UnitTask

namespace TransferManager

variable {σ : Type}

/-- Runs a batch over the units `us`: the events of the schedule, then the
rest one unit at a time. -/
def runBatch (m : TransferManager) (fetch : Fetch σ) (us : List TransferUnit) (source : σ) (cancelled : Bool)
    (schedule : List TransferEvent) (t : FileTree) : TransferBatch σ :=
  let b := TransferBatch.run m fetch
    { tree := t, source, cancelled, progress := { total := us.length }, waiting := us } schedule
  b.run m fetch (b.finishing m.retry)

/-- Downloads the files of a plan set from a source, with the token raised
or not at the start, the units interleaved as `schedule` says. -/
def execute (m : TransferManager) (plans : PlanSet) (fetch : Fetch σ) (source : σ) (cancelled : Bool)
    (schedule : List TransferEvent) (t : FileTree) : Except SyncError (TransferRun σ) := do
  let us ← m.units plans
  let made := m.createDirectories plans t
  let b := m.runBatch fetch us source cancelled schedule made.2
  let staged := (us.filter (·.staged)).length
  let outcome :=
    if b.cancelled then .cancelled b.completed b.inPlace b.failures
    else .completed ⟨b.completed, staged, us.length - staged, made.1⟩
  pure ⟨outcome, b.progress, b.tree, b.source, b.cancelled, b.tasks⟩

end TransferManager

end ModMirror
