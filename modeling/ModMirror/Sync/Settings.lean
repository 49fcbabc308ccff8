import ModMirror.Fs.Retry
import ModMirror.Sync.Spec

/-!
# Client settings

Per-install preferences: the server's address, an optional identity that
selects a personal overlay, whether removed files are deleted, whether the
client runs unattended, the user's per-path toggles, concurrency limits and
the retry policy. Every field has a default, so a partial file is completed
from them.

A toggle applies to a spec when its path, with trailing slashes removed,
folds to the spec's key; toggles are tried in key order and the first match
wins.
-/

namespace ModMirror

def defaultServerUrl : String := "http://127.0.0.1:6969"

/-- Per-install client preferences. -/
structure ClientSettings where
  server : String := defaultServerUrl
  identity : Option String := none
  deleteRemovedFiles : Bool := true
  headless : Bool := false
  /-- User choices by sync path, in key order. -/
  toggles : List (String × Bool) := []
  downloadConcurrency : Nat := 8
  hashConcurrency : Nat := 1024
  retry : RetryPolicy := RetryPolicy.standard
  deriving DecidableEq, Repr

namespace ClientSettings

/-- The user's toggle for a spec. -/
def toggleFor (s : ClientSettings) (spec : SyncPathSpec) : Option Bool :=
  (s.toggles.find? fun (p, _) => Path.foldKey (String.ofList (Text.trimEnd '/' p.toList)) == spec.key).map Prod.snd

/-- Whether a spec is synced under these settings. -/
def isEnabled (s : ClientSettings) (spec : SyncPathSpec) : Bool := spec.isEnabledWith (s.toggleFor spec)

/-- The JSON form of the settings. -/
def toJson (s : ClientSettings) : Json :=
  .obj [("server", .str s.server), ("identity", Json.ofOptString s.identity),
    ("deleteRemovedFiles", .bool s.deleteRemovedFiles), ("headless", .bool s.headless),
    ("toggles", .obj (s.toggles.map fun (k, v) => (k, .bool v))),
    ("downloadConcurrency", Json.ofNat s.downloadConcurrency), ("hashConcurrency", Json.ofNat s.hashConcurrency),
    ("retry", s.retry.toJson)]

/-- What stored settings must look like. -/
def shape : Json.Shape :=
  let d : ClientSettings := {}
  .record "ClientSettings" [.opt "server" (.text "a string") (.str d.server),
    .opt "identity" (.option (.text "a string")) .null,
    .opt "deleteRemovedFiles" .bool (.bool true), .opt "headless" .bool (.bool false),
    .opt "toggles" (.dict .bool) (.obj []),
    .opt "downloadConcurrency" (.unsigned 64 "usize") (Json.ofNat 8), .opt "hashConcurrency" (.unsigned 64 "usize") (Json.ofNat 1024),
    .opt "retry" RetryPolicy.shape d.retry.toJson]

/-- Settings from their decoded form. -/
def ofJson (j : Json) : ClientSettings :=
  let d : ClientSettings := {}
  let b (k : String) (v : Bool) := ((j.field? k).bind Json.bool?).getD v
  let n (k : String) (v : Nat) := ((j.field? k).bind Json.nat?).getD v
  { server := ((j.field? "server").bind Json.str?).getD d.server,
    identity := (j.field? "identity").bind Json.str?,
    deleteRemovedFiles := b "deleteRemovedFiles" true, headless := b "headless" false,
    toggles := (((j.field? "toggles").bind Json.obj?).getD []).map fun (k, v) => (k, (v.bool?).getD false),
    downloadConcurrency := n "downloadConcurrency" 8, hashConcurrency := n "hashConcurrency" 1024,
    retry := match j.field? "retry" with
      | some r => RetryPolicy.ofJson r
      | none => d.retry }

end ClientSettings

end ModMirror
