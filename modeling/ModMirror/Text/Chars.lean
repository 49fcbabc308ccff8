/-!
# Character lists

Paths, patterns and keys are handled as `List Char`: the rules on them read
as plain list operations, and each has a short law beside it.

    unifySlashes cs = cs.map slashOf                       (unifySlashes_eq_map)
    stripPrefix? p (p ++ r) = some r                       (stripPrefix?_append)
-/

namespace ModMirror.Text

/-- A backslash is read as a forward slash; every other character stays. -/
def slashOf (c : Char) : Char := if c = '\\' then '/' else c

def unifySlashes (cs : List Char) : List Char := cs.map slashOf

/-- The rest of `cs` after the prefix `p`, if `cs` starts with `p`. -/
def stripPrefix? : List Char → List Char → Option (List Char)
  | [], cs => some cs
  | _ :: _, [] => none
  | p :: ps, c :: cs => if p = c then stripPrefix? ps cs else none

/-- Drops every leading copy of `c`. -/
def trimStart (c : Char) (cs : List Char) : List Char := cs.dropWhile (· = c)

/-- Drops every trailing copy of `c`. -/
def trimEnd (c : Char) (cs : List Char) : List Char := ((cs.reverse).dropWhile (· = c)).reverse

/-- Drops every copy of `c` at either end. -/
def trimBoth (c : Char) (cs : List Char) : List Char := trimEnd c (trimStart c cs)

/-- Pieces joined with `sep` between neighbours. -/
def joinWith (sep : Char) : List (List Char) → List Char
  | [] => []
  | [p] => p
  | p :: ps => p ++ sep :: joinWith sep ps

/-- Whether `p` occurs as a contiguous piece of `cs`. -/
def containsInfix (p : List Char) : List Char → Bool
  | [] => p.isEmpty
  | c :: cs => (p.isPrefixOf (c :: cs)) || containsInfix p cs

/-- The characters of a string, as a list. -/
abbrev chars (s : String) : List Char := s.toList

/-- Number of bytes of the UTF-8 form of a character list. -/
def utf8Length (cs : List Char) : Nat := (cs.map Char.utf8Size).foldr (· + ·) 0

/-- Unicode white space: the characters a whole-text trim removes. -/
def isWhitespace (c : Char) : Bool :=
  let n := c.toNat
  (9 ≤ n && n ≤ 13) || n == 32 || n == 0x85 || n == 0xA0 || n == 0x1680 ||
    (0x2000 ≤ n && n ≤ 0x200A) || n == 0x2028 || n == 0x2029 || n == 0x202F ||
    n == 0x205F || n == 0x3000

/-- Whether a text is empty once white space is trimmed from both ends. -/
def isBlank (cs : List Char) : Bool := cs.all isWhitespace

/-- Drops every leading copy of the piece `p` (which must not be empty). -/
def trimStartPiece (p : List Char) (cs : List Char) : List Char :=
  go cs (cs.length + 1)
where
  go (cs : List Char) : Nat → List Char
    | 0 => cs
    | fuel + 1 =>
      match stripPrefix? p cs with
      | some rest => if p.isEmpty then cs else go rest fuel
      | none => cs

/-! ## Lemmas -/

theorem unifySlashes_eq_map (cs : List Char) : unifySlashes cs = cs.map slashOf := rfl

@[simp] theorem stripPrefix?_append (p r : List Char) : stripPrefix? p (p ++ r) = some r := by
  induction p with
  | nil => rfl
  | cons c p ih => simp [stripPrefix?, ih]

theorem unifySlashes_no_backslash (cs : List Char) : '\\' ∉ unifySlashes cs := by
  simp only [unifySlashes, List.mem_map, not_exists, not_and]
  intro c _ h
  unfold slashOf at h
  split at h <;> simp_all

end ModMirror.Text
