import ModMirror.Path.Normal
import ModMirror.Fs.Error

/-!
# Relative paths from untrusted parties

A path received from the other side must stay inside the root it is joined
to. `sanitize` accepts a text only if it has no root, no NUL character and no
`..` that climbs above its start; the result is its normal form, which is
never empty.

    sanitize s = .ok r → r is the join of the dot-resolved segments of s
    sanitize s = .error (.pathTraversal s) when s has a root or a NUL

Names that become a single directory entry (an identity, an overlay seed)
are checked by `validateIdentifier`.
-/

namespace ModMirror.Path

open ModMirror.Text

/-- Dot resolution that refuses to climb above the start (segments kept in reverse). -/
def resolveInside (acc : List (List Char)) : List (List Char) → Option (List (List Char))
  | [] => some acc
  | s :: ss =>
    if s = [] ∨ s = ['.'] then resolveInside acc ss
    else if s = ['.', '.'] then
      match acc with
      | [] => none
      | _ :: acc' => resolveInside acc' ss
    else resolveInside (s :: acc) ss

/-- The normal form of a root-relative path, refusing any escape from the root. -/
def sanitize (input : String) : Except FsError String :=
  let unified := unifySlashes input.toList
  let (root, rest) := splitRoot unified
  if root ≠ .none ∨ '\x00' ∈ unified then .error (.pathTraversal input)
  else match resolveInside [] (rest.splitOn '/') with
    | none => .error (.pathTraversal input)
    | some [] => .error (.invalidPath input "path is empty")
    | some segs => .ok (String.ofList (joinWith '/' segs.reverse))

/-- Characters that may not appear in a single path component. -/
def reservedInName (c : Char) : Bool :=
  c.toNat < 0x20 || (0x7F ≤ c.toNat && c.toNat ≤ 0x9F) ||
    c = '/' || c = '\\' || c = ':' || c = '*' || c = '?' || c = '"' || c = '<' || c = '>' || c = '|'

/-- Why a name cannot be one directory entry, if it cannot. -/
def identifierProblem (name : String) : Option String :=
  let cs := name.toList
  if cs = [] then some "must not be empty"
  else if name.utf8ByteSize > 255 then some "must be at most 255 bytes"
  else if cs.head? = some '.' then some "must not start with '.'"
  else if cs.any reservedInName then some "contains a reserved character"
  else if cs.getLast? = some ' ' then some "must not end with a space"
  else none

/-- Accepts a name that can safely be one directory entry. -/
def validateIdentifier (name : String) : Except FsError Unit :=
  match identifierProblem name with
  | some reason => .error (.invalidIdentifier name reason)
  | none => .ok ()

theorem sanitize_rooted (input : String)
    (h : (splitRoot (unifySlashes input.toList)).1 ≠ .none) :
    sanitize input = .error (.pathTraversal input) := by
  unfold sanitize
  simp [h]

end ModMirror.Path
