/-!
# Socket address syntax

Whether a text is a socket address: an IPv4 address and a port
(`127.0.0.1:6969`), or a bracketed IPv6 address with an optional numeric
scope and a port (`[::1]:80`, `[fe80::1%2]:80`). IPv4 octets are decimal
numbers up to 255 without leading zeros; IPv6 groups are up to four hex
digits, `::` stands for one or more zero groups, and the last two groups may
be written as an embedded IPv4 address. The whole text must be read.

    isSocketAddr "127.0.0.1:6969" = true,  isSocketAddr "127.0.0.1" = false
-/

namespace ModMirror.Net

/-- A reader of a prefix: the value and the rest, or nothing. -/
abbrev Read (α : Type) := List Char → Option (α × List Char)

/-- The value of a digit in a radix of at most 16. -/
def digitValue (radix : Nat) (c : Char) : Option Nat :=
  let v := if c.isDigit then some (c.toNat - 48)
    else if 'a' ≤ c ∧ c ≤ 'f' then some (c.toNat - 87)
    else if 'A' ≤ c ∧ c ≤ 'F' then some (c.toNat - 55)
    else none
  v.bind fun d => if d < radix then some d else none

/-- Reads every digit in front, failing on none, on more than `maxDigits`, on
a value above `limit`, or on a leading zero when those are refused. -/
def readNumber (radix : Nat) (maxDigits : Option Nat) (zeroPrefix : Bool) (limit : Nat) : Read Nat := fun cs =>
  let digits := cs.takeWhile fun c => (digitValue radix c).isSome
  let rest := cs.dropWhile fun c => (digitValue radix c).isSome
  let value := digits.foldl (fun n c => radix * n + ((digitValue radix c).getD 0)) 0
  if digits.isEmpty then none
  else if (maxDigits.map fun m => decide (digits.length > m)).getD false then none
  else if value > limit then none
  else if !zeroPrefix && digits.head? = some '0' && digits.length > 1 then none
  else some (value, rest)

def readChar (c : Char) : Read Unit
  | d :: rest => if c = d then some ((), rest) else none
  | [] => none

/-- Reads the separator before every item but the first, then the item. -/
def readSeparated {α : Type} (sep : Char) (index : Nat) (item : Read α) : Read α := fun cs =>
  if index = 0 then item cs
  else match readChar sep cs with
    | some (_, rest) => item rest
    | none => none

/-- Reads a dotted IPv4 address. -/
def readIpv4 : Read (List Nat) := fun cs => go 0 [] cs 4
where
  go (i : Nat) (acc : List Nat) (cs : List Char) : Nat → Option (List Nat × List Char)
    | 0 => some (acc.reverse, cs)
    | n + 1 => match readSeparated '.' i (readNumber 10 (some 3) false 255) cs with
      | some (v, rest) => go (i + 1) (v :: acc) rest n
      | none => none

/-- Reads up to `limit` colon-separated IPv6 groups, the last two possibly as an
embedded IPv4 address; the number of groups and whether IPv4 ended them. -/
def readGroups (limit : Nat) (cs : List Char) : Nat × Bool × List Char :=
  go 0 cs limit
where
  go (i : Nat) (cs : List Char) : Nat → Nat × Bool × List Char
    | 0 => (i, false, cs)
    | n + 1 =>
      let v4 := if i + 1 < limit then readSeparated ':' i readIpv4 cs else none
      match v4 with
      | some (_, rest) => (i + 2, true, rest)
      | none =>
        match readSeparated ':' i (readNumber 16 (some 4) true 0xFFFF) cs with
        | some (_, rest) => go (i + 1) rest n
        | none => (i, false, cs)

/-- Reads an IPv6 address. -/
def readIpv6 : Read Unit := fun cs =>
  let (headSize, headV4, rest) := readGroups 8 cs
  if headSize = 8 then some ((), rest)
  else if headV4 then none
  else match readChar ':' rest with
    | none => none
    | some (_, rest) => match readChar ':' rest with
      | none => none
      | some (_, rest) =>
        let (_, _, rest) := readGroups (8 - (headSize + 1)) rest
        some ((), rest)

/-- Reads `:` and a port number. -/
def readPort : Read Nat := fun cs =>
  match readChar ':' cs with
  | some (_, rest) => readNumber 10 none true 65535 rest
  | none => none

/-- Reads an IPv4 socket address. -/
def readV4Socket : Read Unit := fun cs =>
  match readIpv4 cs with
  | some (_, rest) => (readPort rest).map fun (_, r) => ((), r)
  | none => none

/-- Reads a bracketed IPv6 socket address. -/
def readV6Socket : Read Unit := fun cs => do
  let (_, rest) ← readChar '[' cs
  let (_, rest) ← readIpv6 rest
  let rest := match readChar '%' rest with
    | some (_, r) => match readNumber 10 none true (Nat.pow 2 32 - 1) r with
      | some (_, r') => r'
      | none => rest
    | none => rest
  let (_, rest) ← readChar ']' rest
  let (_, rest) ← readPort rest
  pure ((), rest)

/-- Whether a whole text is a socket address. -/
def isSocketAddr (s : String) : Bool :=
  let whole (r : Read Unit) : Bool := match r s.toList with
    | some (_, []) => true
    | _ => false
  whole readV4Socket || whole readV6Socket

end ModMirror.Net
