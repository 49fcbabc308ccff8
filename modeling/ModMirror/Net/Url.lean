import ModMirror.Text.Utf8

/-!
# Parts of request targets

A request target is a path, optionally followed by `?` and a query. Percent
escapes stand for single bytes; a `%` that is not followed by two hexadecimal
digits stands for itself. A query is a list of `name=value` pairs separated
by `&`, in which `+` also stands for a space; its texts are decoded leniently.

    percentDecode (s.toUTF8.toList) = s.toUTF8.toList   when s has no `%`
-/

namespace ModMirror.Net

/-- The value of a hexadecimal digit byte. -/
def hexValue? (b : UInt8) : Option Nat :=
  if 48 ≤ b && b ≤ 57 then some (b.toNat - 48)
  else if 65 ≤ b && b ≤ 70 then some (b.toNat - 55)
  else if 97 ≤ b && b ≤ 102 then some (b.toNat - 87)
  else none

/-- Replaces percent escapes by the bytes they stand for. -/
def percentDecode : List UInt8 → List UInt8
  | [] => []
  | 37 :: h :: l :: rest =>
    match hexValue? h, hexValue? l with
    | some a, some b => (16 * a + b).toUInt8 :: percentDecode rest
    | _, _ => 37 :: percentDecode (h :: l :: rest)
  | b :: rest => b :: percentDecode rest

/-- The path and the query of a request target. -/
def splitTarget (target : String) : String × Option String :=
  match target.splitOn "?" with
  | [] => ("", none)
  | [path] => (path, none)
  | path :: rest => (path, some ("?".intercalate rest))

/-- Decodes one text of a query: `+` is a space, escapes are bytes. -/
def formDecode (s : String) : String :=
  Text.decodeLossy (percentDecode (s.toUTF8.toList.map fun b => if b = 43 then 32 else b))

/-- The pairs of a query, in order; empty pieces are skipped. -/
def queryPairs (query : String) : List (String × String) :=
  (query.splitOn "&").filterMap fun piece =>
    if piece.isEmpty then none
    else match piece.splitOn "=" with
      | [] => none
      | [name] => some (formDecode name, "")
      | name :: rest => some (formDecode name, formDecode ("=".intercalate rest))

end ModMirror.Net
