import ModMirror.Text.Chars

/-!
# Byte ranges of a file

A range request asks for `bytes=` followed by comma-separated ranges:
`first-last`, `first-` (to the end) or `-n` (the last `n` bytes). Every
range must lie inside the file, and several ranges may not overlap; a request
that breaks a rule cannot be satisfied.

    satisfiable "bytes=0-0" n = some [(0, 0)]   for every n > 0
-/

namespace ModMirror.Net

/-- One range as written. -/
inductive ByteRange where
  | span (first last : Nat)
  | startingAt (first : Nat)
  | lastBytes (count : Nat)
  deriving DecidableEq, Repr

/-- The largest byte offset a range may name. -/
def offsetMax : Nat := Nat.pow 2 64 - 1

/-- A decimal offset: digits after an optional plus sign, within 64 bits. -/
def offset? (s : String) : Option Nat :=
  let cs := match s.toList with
    | '+' :: rest => rest
    | cs => cs
  if cs.isEmpty || !cs.all Char.isDigit then none
  else
    let n := cs.foldl (fun n c => 10 * n + (c.toNat - 48)) 0
    if n ≤ offsetMax then some n else none

/-- Reads one range. -/
def ByteRange.parse? (piece : String) : Option ByteRange :=
  match piece.splitOn "-" with
  | [first, last] =>
    if first.isEmpty then (offset? last).map .lastBytes
    else do
      let a ← offset? first
      if last.isEmpty then pure (.startingAt a)
      else
        let b ← offset? last
        if b < a then none else pure (.span a b)
  | _ => none

/-- Reads the ranges of a request. -/
def parseRanges? (value : String) : Option (List ByteRange) :=
  match Text.stripPrefix? "bytes=".toList value.toList with
  | none | some [] => none
  | some rest =>
    ((String.ofList rest).splitOn ",").mapM fun piece =>
      ByteRange.parse? (String.ofList (Text.trimBoth ' ' piece.toList))

/-- The first and last offset of a range inside a file of `size` bytes. -/
def ByteRange.within? (size : Nat) : ByteRange → Option (Nat × Nat)
  | .span a b => if a < size && b < size then some (a, b) else none
  | .startingAt a => if a < size then some (a, size - 1) else none
  | .lastBytes n => if 0 < n && n ≤ size then some (size - n, size - 1) else none

/-- Whether ranges sorted by their start overlap. -/
def overlapping : List (Nat × Nat) → Bool
  | (_, e) :: (s, e') :: rest => s ≤ e || overlapping ((s, e') :: rest)
  | _ => false

/-- The offsets a request asks for in a file of `size` bytes, if it can be satisfied. -/
def satisfiable (value : String) (size : Nat) : Option (List (Nat × Nat)) := do
  let ranges ← parseRanges? value
  let offsets ← ranges.mapM (ByteRange.within? size)
  if offsets.length > 1 && overlapping (offsets.mergeSort fun a b => a.1 ≤ b.1) then none
  else pure offsets

end ModMirror.Net
