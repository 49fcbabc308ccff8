/-!
# Glob syntax

A glob is read into tokens: literal characters, `?` (one byte other than a
separator), `*` (a run of such bytes), the three recursive forms of `**`
(a leading `**/`, a trailing `/**` and an inner `/**/`), bracket classes and
brace alternatives, which may nest.

`**` is recursive only as a whole path component; elsewhere it reads as two
single stars. A class opens with `[`, is negated by a leading `!` or `^`,
takes a leading `]` or a leading or trailing `-` literally, and must be
closed. A brace group must be opened before it is closed and closed before
the glob ends.

    parse "a/**/b" = .ok [.literal 'a', .recursiveZeroOrMore, .literal 'b']
-/

namespace ModMirror.Glob

/-- One unit of a glob. -/
inductive Token where
  /-- A character matched as its bytes. -/
  | literal (c : Char)
  /-- One byte other than `/`. -/
  | any
  /-- A run of bytes other than `/`. -/
  | zeroOrMore
  /-- A leading `**/`: nothing, a lone `/`, or anything ending in `/`. -/
  | recursivePrefix
  /-- A trailing `/**`: a `/` and anything after it. -/
  | recursiveSuffix
  /-- An inner `/**/`: a `/`, or a `/` and anything ending in `/`. -/
  | recursiveZeroOrMore
  /-- A bracket class of character ranges, possibly negated. -/
  | charClass (negated : Bool) (ranges : List (Char × Char))
  /-- A brace group of alternative branches. -/
  | alternatives (branches : List (List Token))
  deriving Repr, Inhabited

/-- Why a glob cannot be read. -/
inductive GlobError where
  | unclosedClass
  | invalidRange (lo hi : Char)
  | unopenedAlternates
  | unclosedAlternates
  deriving DecidableEq, Repr

/-- The text of a glob fault. -/
def GlobError.message : GlobError → String
  | .unclosedClass => "unclosed character class; missing ']'"
  | .invalidRange lo hi => "invalid range; '" ++ lo.toString ++ "' > '" ++ hi.toString ++ "'"
  | .unopenedAlternates => "unopened alternate group; missing '\x7b' (maybe escape '\x7d' with '[\x7d]'?)"
  | .unclosedAlternates => "unclosed alternate group; missing '\x7d' (maybe escape '\x7b' with '[\x7b]'?)"

/-! ## Reading -/

/-- The reader's state: the open branches, innermost first, each holding its
tokens last first; and for every open brace group, how many branches were
open before it. -/
structure Reader where
  branches : List (List Token) := [[]]
  groups : List Nat := []

namespace Reader

/-- Adds a token to the innermost branch. -/
def push (r : Reader) (t : Token) : Except GlobError Reader :=
  match r.branches with
  | b :: bs => .ok { r with branches := (t :: b) :: bs }
  | [] => .error .unopenedAlternates

/-- Whether the innermost branch has tokens. -/
def hasTokens (r : Reader) : Bool :=
  match r.branches with
  | b :: _ => !b.isEmpty
  | [] => false

/-- Takes the last token of the innermost branch. -/
def pop (r : Reader) : Option Token × Reader :=
  match r.branches with
  | (t :: b) :: bs => (some t, { r with branches := b :: bs })
  | _ => (none, r)

/-- Opens a brace group with its first branch. -/
def openGroup (r : Reader) : Reader :=
  { branches := [] :: r.branches, groups := r.branches.length :: r.groups }

/-- Closes the innermost brace group into one token of its branches. -/
def closeGroup (r : Reader) : Except GlobError Reader :=
  match r.groups with
  | [] => .error .unopenedAlternates
  | start :: groups =>
    let count := r.branches.length - start
    let inner := (r.branches.take count).reverse.map List.reverse
    Reader.push { branches := r.branches.drop count, groups } (.alternatives inner)

/-- A comma starts a new branch inside a brace group and is literal outside. -/
def comma (r : Reader) : Except GlobError Reader :=
  if r.groups.isEmpty then r.push (.literal ',')
  else .ok { r with branches := [] :: r.branches }

def inGroup (r : Reader) : Bool := !r.groups.isEmpty

end Reader

/-- Reads the body of a bracket class after `[`, up to and including its `]`;
the class token and the characters after it. A range ending in a character
below its start is refused; a second `-` extends the last range. -/
def readClass (cs : List Char) : Except GlobError (Token × List Char) :=
  let (negated, body) := match cs with
    | '!' :: rest => (true, rest)
    | '^' :: rest => (true, rest)
    | _ => (false, cs)
  go negated body [] true false
where
  /-- `ranges` is last first; `inRange` marks a pending `-`. -/
  go (negated : Bool) : List Char → List (Char × Char) → Bool → Bool → Except GlobError (Token × List Char)
    | [], _, _, _ => .error .unclosedClass
    | c :: rest, ranges, first, inRange =>
      if c = ']' then
        if first then go negated rest ((']', ']') :: ranges) false inRange
        else
          let ranges := if inRange then ('-', '-') :: ranges else ranges
          .ok (.charClass negated ranges.reverse, rest)
      else if c = '-' then
        if first then go negated rest (('-', '-') :: ranges) false false
        else if inRange then
          match ranges with
          | (lo, _) :: more =>
            if '-' < lo then .error (.invalidRange lo '-')
            else go negated rest ((lo, '-') :: more) false false
          | [] => go negated rest ranges false false
        else go negated rest ranges false true
      else if inRange then
        match ranges with
        | (lo, _) :: more =>
          if c < lo then .error (.invalidRange lo c)
          else go negated rest ((lo, c) :: more) false false
        | [] => go negated rest [(c, c)] false false
      else go negated rest ((c, c) :: ranges) false false

/-- Reads a star after its first `*`, given the character before it. A
second star makes a recursive token only as a whole path component (or a
whole branch end inside a brace group); otherwise both stars are single. -/
def readStar (r : Reader) (before : Option Char) (cs : List Char) :
    Except GlobError (Reader × List Char) := do
  match cs with
  | '*' :: rest =>
    if !r.hasTokens then
      match rest with
      | [] => pure (← r.push .recursivePrefix, [])
      | '/' :: more => pure (← r.push .recursivePrefix, more)
      | _ => pure (← (← r.push .zeroOrMore).push .zeroOrMore, rest)
    else if before ≠ some '/' then
      pure (← (← r.push .zeroOrMore).push .zeroOrMore, rest)
    else
      let suffix : Option (Bool × List Char) := match rest with
        | [] => some (true, [])
        | ',' :: _ => if r.inGroup then some (true, rest) else none
        | '}' :: _ => if r.inGroup then some (true, rest) else none
        | '/' :: more => some (false, more)
        | _ => none
      match suffix with
      | none => pure (← (← r.push .zeroOrMore).push .zeroOrMore, rest)
      | some (isSuffix, after) =>
        let (last, r) := r.pop
        let t := match last with
          | some .recursivePrefix => Token.recursivePrefix
          | some .recursiveSuffix => Token.recursiveSuffix
          | _ => if isSuffix then Token.recursiveSuffix else Token.recursiveZeroOrMore
        pure (← r.push t, after)
  | _ => pure (← r.push .zeroOrMore, cs)

/-- Reads the characters of a glob; `before` is the last character read. -/
def readChars (r : Reader) (before : Option Char) : List Char → Nat → Except GlobError Reader
  | [], _ => .ok r
  | _ :: _, 0 => .ok r
  | c :: rest, fuel + 1 => do
    match c with
    | '?' => readChars (← r.push .any) (some c) rest fuel
    | '*' =>
      let (r', rest') ← readStar r before rest
      let last := (c :: rest).take ((c :: rest).length - rest'.length) |>.getLast?
      readChars r' last rest' fuel
    | '[' =>
      let (t, rest') ← readClass rest
      readChars (← r.push t) (some ']') rest' fuel
    | '{' => readChars r.openGroup (some c) rest fuel
    | '}' => readChars (← r.closeGroup) (some c) rest fuel
    | ',' => readChars (← r.comma) (some c) rest fuel
    | _ => readChars (← r.push (.literal c)) (some c) rest fuel

/-- The tokens of a glob. -/
def parse (glob : String) : Except GlobError (List Token) := do
  let cs := glob.toList
  let r ← readChars {} none cs (cs.length + 1)
  match r.branches with
  | [b] => pure b.reverse
  | _ => throw .unclosedAlternates

end ModMirror.Glob
