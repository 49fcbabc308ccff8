import ModMirror.Glob.Syntax

/-!
# Glob matching

A glob matches a whole path, byte by byte, ignoring the case of ASCII
letters only. Each token is read as the set of positions where it can end
when it starts at a given position; a sequence threads these sets, and the
path matches when its length is among the ends of the whole glob from 0.

Characters are matched through their UTF-8 bytes: a literal is its bytes in
order, and a bracket class is a set of single bytes, so `?` or a class never
takes a whole multi-byte character. An alternative branch that reads as
nothing is dropped; a group with no other branch matches the empty text.
A glob that is a lone `**` matches every path.

    accepts (tokens of "*.dll") "x.DLL" = true
-/

namespace ModMirror.Glob

/-- The byte with ASCII upper case folded to lower case. -/
def foldByte (b : UInt8) : UInt8 := if 65 ≤ b ∧ b ≤ 90 then b + 32 else b

/-- The byte with the case of an ASCII letter swapped. -/
def swapCase (b : UInt8) : UInt8 :=
  if 65 ≤ b ∧ b ≤ 90 then b + 32 else if 97 ≤ b ∧ b ≤ 122 then b - 32 else b

/-- The byte ranges a class range stands for: a range of two characters
becomes the leading bytes of its low end, the range from the low end's last
byte to the high end's first byte, and the trailing bytes of its high end. -/
def byteRanges (r : Char × Char) : List (UInt8 × UInt8) :=
  let lo := String.utf8EncodeChar r.1
  let hi := String.utf8EncodeChar r.2
  if r.1 = r.2 then lo.map fun b => (b, b)
  else
    (lo.dropLast.map fun b => (b, b)) ++ [(lo.getLastD 0, hi.headD 0)] ++ (hi.drop 1).map fun b => (b, b)

/-- Whether a byte is in a class, ASCII case ignored, before negation. -/
def inClass (ranges : List (Char × Char)) (b : UInt8) : Bool :=
  let rs := ranges.flatMap byteRanges
  let inside (x : UInt8) := rs.any fun r => r.1 ≤ x && x ≤ r.2
  inside b || inside (swapCase b)

/-- The positions from `i` on up to the next `/` or the end, both ends included. -/
def segmentEnds (bs : ByteArray) (i : Nat) : List Nat :=
  let n := bs.size
  let stop := ((List.range (n - i)).find? fun k => bs.get! (i + k) == 47).map (· + i) |>.getD n
  (List.range (stop + 1 - i)).map (· + i)

/-- The positions just after each `/` from `i` on. -/
def afterSlashes (bs : ByteArray) (i : Nat) : List Nat :=
  ((List.range (bs.size - i)).filter fun k => bs.get! (i + k) == 47).map (· + i + 1)

/-- Whether the bytes of a literal start at `i`. -/
def literalAt (bs : ByteArray) (i : Nat) (c : Char) : Bool :=
  let enc := String.utf8EncodeChar c
  i + enc.length ≤ bs.size &&
    (enc.zipIdx.all fun (b, k) => foldByte (bs.get! (i + k)) == foldByte b)

/-- Ends of a token that is not a brace group. -/
def simpleEnds (bs : ByteArray) (t : Token) (i : Nat) : List Nat :=
  let here (p : UInt8 → Bool) : List Nat := if i < bs.size && p (bs.get! i) then [i + 1] else []
  match t with
  | .literal c => if literalAt bs i c then [i + (String.utf8EncodeChar c).length] else []
  | .any => here (· != 47)
  | .zeroOrMore => segmentEnds bs i
  | .recursivePrefix => (i :: here (· == 47)) ++ afterSlashes bs i
  | .recursiveSuffix => if i < bs.size && bs.get! i == 47 then (List.range (bs.size - i)).map (· + i + 1) else []
  | .recursiveZeroOrMore => if i < bs.size && bs.get! i == 47 then afterSlashes bs i else []
  | .charClass negated ranges => here fun b => negated != inClass ranges b
  | .alternatives _ => [i]

mutual
/-- Whether a token reads as no text at all (a group of such branches). -/
def Token.silent : Token → Bool
  | .alternatives branches => silentBranches branches
  | _ => false

def silentBranches : List (List Token) → Bool
  | [] => true
  | b :: bs => silentTokens b && silentBranches bs

/-- Whether every token of a branch reads as nothing. -/
def silentTokens : List Token → Bool
  | [] => true
  | t :: ts => t.silent && silentTokens ts
end

mutual
/-- The positions where a token can end when it starts at `i`. -/
def Token.ends (bs : ByteArray) : Token → Nat → List Nat
  | .alternatives branches, i => if silentBranches branches then [i] else branchEnds bs branches i
  | t, i => simpleEnds bs t i

/-- The positions where a sequence can end from any of `starts`. -/
def seqEnds (bs : ByteArray) : List Token → List Nat → List Nat
  | [], starts => starts
  | t :: ts, starts => seqEnds bs ts (starts.flatMap (fun i => Token.ends bs t i)).eraseDups

/-- The ends of the branches that read as something. -/
def branchEnds (bs : ByteArray) : List (List Token) → Nat → List Nat
  | [], _ => []
  | b :: more, i => (if silentTokens b then [] else seqEnds bs b [i]) ++ branchEnds bs more i
end

/-- Whether a glob's tokens match a whole path. -/
def matchesBytes (tokens : List Token) (bs : ByteArray) : Bool :=
  match tokens with
  | [.recursivePrefix] => true
  | _ => (seqEnds bs tokens [0]).contains bs.size

/-- Whether a glob's tokens match a whole path. -/
def accepts (tokens : List Token) (path : String) : Bool := matchesBytes tokens path.toUTF8

end ModMirror.Glob
