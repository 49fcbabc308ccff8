import ModMirror.Api.Trees
import ModMirror.Fs.Hash

/-!
# Requests about single files

`hash_file` builds a tree and fingerprints one file in it, never retrying.
-/

namespace ModMirror.Api

/-- The tree of a request field, built below the root. -/
def treeField (req : Json) (k : String) (base : String) (t : FileTree) : Except Json FileTree :=
  match req.present? k with
  | some spec => (buildTree t base spec).mapError fun e => requestFailure ("cannot build tree: " ++ e.message)
  | none => .ok t

/-- The fingerprint of a file of a built tree. -/
def hashFileAnswer (req : Json) : Json :=
  match treeField req "tree" treeRoot {} with
  | .error e => e
  | .ok t =>
    let h : ContentHasher := { sampling := samplingOf req, retry := RetryPolicy.never }
    answerOf fsFailure (fun s => .obj [("hash", .str s)]) (h.hashFile t (treeRoot ++ "/" ++ strField req "path"))

end ModMirror.Api
