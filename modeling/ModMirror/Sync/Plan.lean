import ModMirror.Catalog.Basic
import ModMirror.Sync.Spec

/-!
# Three-way sync plans

Each sync path is planned from three catalogs: what is on disk, what the
server serves now, and what it served at the last successful sync. The third
makes removal safe: a local file is removed only if the server once gave it.

Walking the remote catalog, a path present locally is updated when the remote
entry is a file and the local one is a directory or has another fingerprint;
an absent remote directory is created unless something local lies below it;
an absent remote file is added. When removals are active, a local path is
removed when the server no longer has it, the previous sync did, and it is
not a local directory the server has since filled.

Planning is pure: catalogs are built before it and files move after it.
-/

namespace ModMirror

/-- Client-side knobs that change the plan. -/
structure PlanOptions where
  /-- Remove files the server dropped, for paths that are not enforced. -/
  deleteRemovedFiles : Bool := true
  /-- Operator exclusions applied to remote catalogs of optional paths. -/
  localExclusions : ExclusionSet := {}

/-- Changes for one sync path; the four lists are disjoint. -/
structure SyncPlan where
  spec : SyncPathSpec
  added : List String := []
  updated : List String := []
  removed : List String := []
  createdDirectories : List String := []
  deriving DecidableEq, Repr

namespace SyncPlan

def changeCount (p : SyncPlan) : Nat :=
  p.added.length + p.updated.length + p.removed.length + p.createdDirectories.length

def isEmpty (p : SyncPlan) : Bool := p.changeCount == 0

/-- Files fetched from the server: the added, then the updated. -/
def downloads (p : SyncPlan) : List String := p.added ++ p.updated

def cleared (p : SyncPlan) : SyncPlan := { spec := p.spec }

def lines (p : SyncPlan) : List String :=
  p.added.map ("ADDED " ++ ·) ++ p.updated.map ("UPDATED " ++ ·) ++ p.removed.map ("REMOVED " ++ ·) ++
    p.createdDirectories.map fun d => "CREATED " ++ d ++ "/"

end SyncPlan

/-- Plans of every sync path of one attempt, with the remote catalogs they
were computed against. -/
structure PlanSet where
  plans : List SyncPlan := []
  remote : CatalogSet := {}
  deriving DecidableEq, Repr

/-- Change lines split by policy. -/
structure PlanSummary where
  optional : List String
  enforced : List String

/-- The display text: optional lines, a blank line, then the enforced lines under a heading. -/
def PlanSummary.text (s : PlanSummary) : String :=
  let opt := "\n".intercalate s.optional
  let enf := if s.enforced.isEmpty then "" else "[Enforced]\n" ++ "\n".intercalate s.enforced
  opt ++ (if !s.optional.isEmpty && !s.enforced.isEmpty then "\n\n" else "") ++ enf

namespace PlanSet

def updateCount (s : PlanSet) : Nat := (s.plans.map SyncPlan.changeCount).foldr (· + ·) 0

def isEmpty (s : PlanSet) : Bool := s.updateCount == 0

def addedCount (s : PlanSet) : Nat := (s.plans.map fun p => p.added.length).foldr (· + ·) 0
def updatedCount (s : PlanSet) : Nat := (s.plans.map fun p => p.updated.length).foldr (· + ·) 0
def removedCount (s : PlanSet) : Nat := (s.plans.map fun p => p.removed.length).foldr (· + ·) 0
def downloadCount (s : PlanSet) : Nat := (s.plans.map fun p => p.downloads.length).foldr (· + ·) 0

/-- No confirmation needed: the client is headless, or every changed path is silent. -/
def isSilent (s : PlanSet) (headless : Bool) : Bool := headless || s.plans.all fun p => p.spec.silent || p.isEmpty

/-- Some change lands in a path that waits for a restart. -/
def requiresRestart (s : PlanSet) : Bool := s.plans.any fun p => p.spec.restartRequired && !p.isEmpty

/-- Some change lands in an enforced path. -/
def hasEnforcedChanges (s : PlanSet) : Bool := s.plans.any fun p => p.spec.enforced && !p.isEmpty

/-- Some change lands in an optional path. -/
def hasOptionalChanges (s : PlanSet) : Bool := s.plans.any fun p => !p.spec.enforced && !p.isEmpty

/-- What is still applied when optional updates are declined: optional paths
are emptied and dropped from the remote catalogs. -/
def enforcedOnly (s : PlanSet) : PlanSet :=
  let remote := s.plans.foldl (fun acc p =>
    if p.spec.enforced then
      match s.remote.get p.spec.path with
      | some c => acc.add p.spec.path c
      | none => acc
    else acc) CatalogSet.empty
  { plans := s.plans.map fun p => if p.spec.enforced then p else p.cleared, remote }

def removedFiles (s : PlanSet) : List String := s.plans.flatMap (·.removed)

def describe (s : PlanSet) : PlanSummary :=
  { optional := (s.plans.filter fun p => !p.spec.enforced).flatMap SyncPlan.lines,
    enforced := (s.plans.filter fun p => p.spec.enforced).flatMap SyncPlan.lines }

end PlanSet

/-- The remote catalog after local exclusions; enforced paths are never filtered. -/
def effectiveRemote (c : PathCatalog) (spec : SyncPathSpec) (opts : PlanOptions) : PathCatalog :=
  if !spec.enforced && !opts.localExclusions.isEmpty then
    c.retain fun p _ => !opts.localExclusions.matchesPrefix p
  else c

/-- The changes of one sync path. -/
def diffCatalogs (spec : SyncPathSpec) (loc remote previous : PathCatalog) (removals : Bool) : SyncPlan :=
  let walked := remote.toList.foldl (fun (plan : SyncPlan) (path, r) =>
    match loc.get path with
    | some l =>
      if !r.isDirectory && (l.isDirectory || l.hash != r.hash) then { plan with updated := plan.updated ++ [path] }
      else plan
    | none =>
      if r.isDirectory then
        if loc.hasDescendant path then plan
        else { plan with createdDirectories := plan.createdDirectories ++ [path] }
      else { plan with added := plan.added ++ [path] }) { spec }
  if removals then
    loc.toList.foldl (fun (plan : SyncPlan) (path, l) =>
      if remote.contains path || !previous.contains path then plan
      else if l.isDirectory && remote.hasDescendant path then plan
      else { plan with removed := plan.removed ++ [path] }) walked
  else walked

/-- Plans every sync path of `specs` against the local, remote and previous catalogs. -/
def planSync (loc remote previous : CatalogSet) (specs : List SyncPathSpec) (opts : PlanOptions) : PlanSet :=
  specs.foldl (fun (set : PlanSet) spec =>
    let r := effectiveRemote (remote.getOrEmpty spec.path) spec opts
    let plan := diffCatalogs spec (loc.getOrEmpty spec.path) r (previous.getOrEmpty spec.path)
      (spec.enforced || opts.deleteRemovedFiles)
    { plans := set.plans ++ [plan], remote := set.remote.add spec.path r }) {}

end ModMirror
