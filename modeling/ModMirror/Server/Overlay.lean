import ModMirror.Fs.Copy
import ModMirror.Path.Relative
import ModMirror.Path.Key
import ModMirror.Server.Error
import ModMirror.Sync.Spec

/-!
# Per-identity overlays

A client that names an identity gets a directory of its own below the
overlay root: a copy of the seed directory, made the first time the identity
is seen, that the operator may change for that client alone. An identity
must be a single plain directory name and may not be the seed's name (in
any case).

The seed itself can be made from the live tree: a copy of every sync path
that exists, made only if there is no seed yet.

    (o.dirFor id).isOk → o.dirFor id = .ok (o.root.join id)
-/

namespace ModMirror

/-- Where the overlays of identities live, and the name of the seed. -/
structure OverlayStore where
  root : NormalPath
  seed : String
  deriving DecidableEq, Repr

namespace OverlayStore

def seedDir (o : OverlayStore) : NormalPath := o.root.join o.seed

/-- The overlay directory of an identity, which must be a plain name other
than the seed's. -/
def dirFor (o : OverlayStore) (identity : String) : Except ServerError NormalPath :=
  match Path.validateIdentifier identity with
  | .error e => .error (.invalidIdentity identity e.message)
  | .ok () =>
    if Path.foldKey identity == Path.foldKey o.seed then
      .error (.invalidIdentity identity "name is reserved for the default overlay")
    else .ok (o.root.join identity)

/-- Copies one sync path of the live tree into the seed. -/
def seedPath (live seed : NormalPath) (t : FileTree) (spec : SyncPathSpec) : Except ServerError FileTree := do
  let rel ← (Path.sanitize spec.path).mapError ServerError.fs
  let source := (live.join rel).text
  let target := (seed.join rel).text
  if t.isDir source then
    let (_, t) ← (t.copyDirAll source target).mapError ServerError.fs
    pure t
  else if t.isFile source then
    let t ← (t.makeParent target).mapError ServerError.fs
    (t.copyFile source target).mapError ServerError.fs
  else pure t

/-- Makes the seed from the sync paths of the live tree, unless there is one;
whether it was made. -/
def ensureDefaultSeed (o : OverlayStore) (live : NormalPath) (specs : List SyncPathSpec) (t : FileTree) :
    Except ServerError (Bool × FileTree) := do
  let seed := o.seedDir
  if t.pathExists seed.text then return (false, t)
  let t ← (t.createDirAll seed.text).mapError fun e => ServerError.fs (.io seed.text e)
  let t ← specs.foldlM (seedPath live seed) t
  pure (true, t)

/-- The overlay directory of an identity, made from the seed (or empty when
there is no seed) the first time. -/
def provision (o : OverlayStore) (identity : String) (t : FileTree) : Except ServerError (NormalPath × FileTree) := do
  let dir ← o.dirFor identity
  if t.pathExists dir.text then return (dir, t)
  let seed := o.seedDir.text
  let t ← if t.isDir seed then
      (t.copyDirAll seed dir.text).map Prod.snd |>.mapError ServerError.fs
    else (t.createDirAll dir.text).mapError fun e => ServerError.fs (.io dir.text e)
  pure (dir, t)

end OverlayStore

end ModMirror
