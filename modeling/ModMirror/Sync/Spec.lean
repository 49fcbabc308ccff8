import ModMirror.Path.Relative
import ModMirror.Path.Key
import ModMirror.Json.Shape
import ModMirror.Sync.Exclusion

/-!
# Sync path declarations

A sync path is a named root, relative to the install root, whose contents
are kept in step with the server. It carries its policy: whether it is on by
default, whether clients may opt out (`enforced`), whether changes apply
without asking (`silent`) and whether they wait for a restart.

A list of sync paths is valid when the exclusions compile and every path is
relative and inside the root, has a display name free of reserved
characters, is unique by key, and is not itself listed as an exclusion.
-/

namespace ModMirror

/-- A named, policy-tagged sync root. -/
structure SyncPathSpec where
  /-- Root-relative path. -/
  path : String
  /-- Display name; empty means the path. -/
  name : String := ""
  enabled : Bool := true
  enforced : Bool := false
  silent : Bool := false
  restartRequired : Bool := true
  deriving DecidableEq, Repr, Inhabited

namespace SyncPathSpec

/-- The spec an operator gets for a plain table entry: its name is the path. -/
def ofPath (path : String) : SyncPathSpec :=
  let p := String.ofList (Text.unifySlashes path.toList)
  { path := p, name := p }

def displayName (s : SyncPathSpec) : String := if s.name.isEmpty then s.path else s.name

/-- The case-insensitive identity of the path, trailing separators ignored. -/
def key (s : SyncPathSpec) : String :=
  Path.foldKey (String.ofList ((s.path.toList.reverse.dropWhile fun c => c = '/' ∨ c = '\\').reverse))

/-- Whether the path is synced, given the user's toggle. -/
def isEnabledWith (s : SyncPathSpec) (toggle : Option Bool) : Bool := s.enforced || toggle.getD s.enabled

/-- The cleaned path, if it is relative and stays inside the install root. -/
def validateLocation (s : SyncPathSpec) : Except SyncError String :=
  match Path.sanitize s.path with
  | .ok p => .ok p
  | .error (.pathTraversal _) => .error (.invalidSyncPath s.path "sync paths must be relative to and inside the install root")
  | .error e => .error (.invalidSyncPath s.path e.message)

def toJson (s : SyncPathSpec) : Json :=
  .obj [("path", .str s.path), ("name", .str s.name), ("enabled", .bool s.enabled),
    ("enforced", .bool s.enforced), ("silent", .bool s.silent), ("restartRequired", .bool s.restartRequired)]

/-- What a spec must look like. -/
def shape : Json.Shape :=
  .record "SyncPathSpec" [.req "path" (.text "a string"), .opt "name" (.text "a string") (.str ""),
    .opt "enabled" .bool (.bool true), .opt "enforced" .bool (.bool false),
    .opt "silent" .bool (.bool false), .opt "restartRequired" .bool (.bool true)]

/-- A spec from its decoded form. -/
def ofJson (j : Json) : SyncPathSpec :=
  let b (k : String) (d : Bool) := ((j.field? k).bind Json.bool?).getD d
  { path := ((j.field? "path").bind Json.str?).getD "", name := ((j.field? "name").bind Json.str?).getD "",
    enabled := b "enabled" true, enforced := b "enforced" false, silent := b "silent" false,
    restartRequired := b "restartRequired" true }

end SyncPathSpec

/-- Characters a display name may not hold. -/
def reservedNameChar (c : Char) : Bool :=
  c = '\n' || c = '\t' || c = '\\' || c = '"' || c = '\'' || c = '[' || c = ']'

/-- Checks a sync path list against the exclusions (see the module comment). -/
def validateSyncPaths (specs : List SyncPathSpec) (exclusions : List String) : Except SyncError Unit := do
  let _ ← ExclusionSet.compile exclusions
  let _ ← specs.foldlM (fun (seen : List String) s => do
    let _ ← s.validateLocation
    if s.name.toList.any reservedNameChar then
      throw (.invalidSyncPath s.path ("name '" ++ s.name ++
        "' contains a reserved character (newline, tab, \\ \" ' [ ])"))
    if seen.contains s.key then throw (.invalidSyncPath s.path "sync paths must be unique")
    if exclusions.contains s.path then
      throw (.invalidSyncPath s.path "path is both a sync path and an exclusion; remove it from one of the lists")
    pure (s.key :: seen)) []

end ModMirror
