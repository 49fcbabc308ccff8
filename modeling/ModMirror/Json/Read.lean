import ModMirror.Json.Value
import ModMirror.Text.Quote
import ModMirror.Text.Shortest

/-!
# Reading JSON text

The reader walks the bytes of a document once. A failure is reported with
the line (from 1) and the column, counted in bytes consumed on that line, at
the moment it is noticed. Some failures are noticed at the next byte (an
unexpected character), others after consuming it (a bad escape); each
scanner below says which.

Numbers are read as in the number model of `JsonNumber`: digits that fit 64
bits stay integers, a negative zero and anything with a fraction or an
exponent become doubles. The double is the integer significand scaled by a
power of ten in double arithmetic, and a scale that overflows is refused as
out of range.

The reader keeps its place when a step fails (`Reader`), so that a container
can still read its closing bracket before the failure is given a place.
-/

namespace ModMirror.Json

/-- A failure to read a document, with its place once known. -/
structure ReadError where
  message : String
  place : Option (Nat × Nat) := none
  deriving Repr, Inhabited

/-- The text of a failure: its message, then its place. -/
def ReadError.text (e : ReadError) : String :=
  match e.place with
  | some (line, col) => e.message ++ " at line " ++ toString line ++ " column " ++ toString col
  | none => e.message

/-! ## Messages of the reader -/

namespace Msg
def eofValue : String := "EOF while parsing a value"
def eofList : String := "EOF while parsing a list"
def eofObject : String := "EOF while parsing an object"
def eofString : String := "EOF while parsing a string"
def colon : String := "expected `:`"
def listCommaOrEnd : String := "expected `,` or `]`"
def objectCommaOrEnd : String := "expected `,` or `\x7d`"
def ident : String := "expected ident"
def value : String := "expected value"
def escape : String := "invalid escape"
def number : String := "invalid number"
def range : String := "number out of range"
def control : String := "control character (\\u0000-\\u001F) found while parsing a string"
def keyString : String := "key must be a string"
def loneSurrogate : String := "lone leading surrogate in hex escape"
def trailingComma : String := "trailing comma"
def trailing : String := "trailing characters"
def hexEnd : String := "unexpected end of hex escape"
def depth : String := "recursion limit exceeded"
end Msg

/-- The line (from 1) and column (bytes since the line began) of byte `i`. -/
def placeAt (b : ByteArray) (i : Nat) : Nat × Nat :=
  let (line, start, _) := (b.extract 0 i).toList.foldl
    (fun (acc : Nat × Nat × Nat) (c : UInt8) =>
      let (line, start, k) := acc
      if c == 10 then (line + 1, k + 1, k + 1) else (line, start, k + 1)) (1, 0, 0)
  (line, i - start)

/-- The byte at `i`, if any. -/
def byte? (b : ByteArray) (i : Nat) : Option UInt8 :=
  if h : i < b.size then some b[i] else none

def isDigitByte (c : UInt8) : Bool := 48 ≤ c && c ≤ 57

/-- Index after the blanks (space, tab, line feed, carriage return) from `i`. -/
def skipBlanks (b : ByteArray) (i : Nat) : Nat :=
  if h : i < b.size then
    let c := b[i]
    if c == 32 || c == 10 || c == 9 || c == 13 then skipBlanks b (i + 1) else i
  else i
termination_by b.size - i

/-- Index after the digits from `i`. -/
def skipDigits (b : ByteArray) (i : Nat) : Nat :=
  if h : i < b.size then
    if isDigitByte b[i] then skipDigits b (i + 1) else i
  else i
termination_by b.size - i

/-- A scanning failure: the message and the byte index whose place is reported. -/
abbrev Fault := String × Nat

/-- Value of a hexadecimal digit. -/
def hexValue? (c : UInt8) : Option Nat :=
  if 48 ≤ c && c ≤ 57 then some (c.toNat - 48)
  else if 97 ≤ c && c ≤ 102 then some (c.toNat - 87)
  else if 65 ≤ c && c ≤ 70 then some (c.toNat - 55)
  else none

/-- Four hexadecimal digits at `i`. Too few bytes is the end of the string. -/
def hex4 (b : ByteArray) (i : Nat) : Except Fault (Nat × Nat) :=
  if i + 4 ≤ b.size then
    match hexValue? (b.get! i), hexValue? (b.get! (i + 1)), hexValue? (b.get! (i + 2)),
      hexValue? (b.get! (i + 3)) with
    | some w, some x, some y, some z => .ok (((w * 16 + x) * 16 + y) * 16 + z, i + 4)
    | _, _, _, _ => .error (Msg.escape, i + 4)
  else .error (Msg.eofString, b.size)

/-- Appends the UTF-8 form of a code point. -/
def pushCode (acc : ByteArray) (n : Nat) : ByteArray :=
  acc ++ (String.singleton (Char.ofNat n)).toUTF8

/-- A `\u` escape (the index is after the `u`): a character outside the
surrogates, or a leading surrogate followed by `\u` and a trailing one. -/
def unicodeEscape (b : ByteArray) (i : Nat) (acc : ByteArray) : Except Fault (ByteArray × Nat) := do
  let (n, i) ← hex4 b i
  if 0xDC00 ≤ n ∧ n ≤ 0xDFFF then throw (Msg.loneSurrogate, i)
  if n < 0xD800 ∨ n > 0xDBFF then return (pushCode acc n, i)
  match byte? b i with
  | none => throw (Msg.eofString, i)
  | some c =>
    if c ≠ 92 then throw (Msg.hexEnd, i + 1)
    match byte? b (i + 1) with
    | none => throw (Msg.eofString, i + 1)
    | some c2 =>
      if c2 ≠ 117 then throw (Msg.hexEnd, i + 2)
      let (n2, j) ← hex4 b (i + 2)
      if n2 < 0xDC00 ∨ n2 > 0xDFFF then throw (Msg.loneSurrogate, j)
      return (pushCode acc ((n - 0xD800) * 1024 + (n2 - 0xDC00) + 0x10000), j)

/-- An escape after a backslash (the index is after the backslash). -/
def escapeAt (b : ByteArray) (i : Nat) (acc : ByteArray) : Except Fault (ByteArray × Nat) :=
  match byte? b i with
  | none => .error (Msg.eofString, i)
  | some c =>
    if c == 34 || c == 92 || c == 47 then .ok (acc.push c, i + 1)
    else if c == 98 then .ok (acc.push 8, i + 1)
    else if c == 102 then .ok (acc.push 12, i + 1)
    else if c == 110 then .ok (acc.push 10, i + 1)
    else if c == 114 then .ok (acc.push 13, i + 1)
    else if c == 116 then .ok (acc.push 9, i + 1)
    else if c == 117 then unicodeEscape b (i + 1) acc
    else .error (Msg.escape, i + 1)

/-- The body of a string up to its closing quote (the index is after the
opening quote). A control character is reported after consuming it. -/
def scanString (b : ByteArray) : Nat → Nat → ByteArray → Except Fault (ByteArray × Nat)
  | 0, _, _ => .error (Msg.eofString, b.size)
  | fuel + 1, i, acc =>
    match byte? b i with
    | none => .error (Msg.eofString, b.size)
    | some c =>
      if c == 34 then .ok (acc, i + 1)
      else if c == 92 then
        match escapeAt b (i + 1) acc with
        | .ok (acc', j) => scanString b fuel j acc'
        | .error f => .error f
      else if c < 32 then .error (Msg.control, i + 1)
      else scanString b fuel (i + 1) (acc.push c)

/-- Skips a string body without keeping it; a control character is reported
before consuming it. -/
def skipString (b : ByteArray) : Nat → Nat → Except Fault Nat
  | 0, _ => .error (Msg.eofString, b.size)
  | fuel + 1, i =>
    match byte? b i with
    | none => .error (Msg.eofString, b.size)
    | some c =>
      if c == 34 then .ok (i + 1)
      else if c == 92 then
        match byte? b (i + 1) with
        | none => .error (Msg.eofString, i + 1)
        | some e =>
          if e == 34 || e == 92 || e == 47 || e == 98 || e == 102 || e == 110 || e == 114 || e == 116 then
            skipString b fuel (i + 2)
          else if e == 117 then
            match hex4 b (i + 2) with
            | .ok (_, j) => skipString b fuel j
            | .error f => .error f
          else .error (Msg.escape, i + 2)
      else if c < 32 then .error (Msg.control, i)
      else skipString b fuel (i + 1)

def pow10 (k : Nat) : Float := Float.ofScientific 1 false k

/-- `significand · 10^exponent` in double arithmetic: one multiplication or
division by a power of ten, after dividing by `1e308` while the exponent is
below `-308`. `none` when the result overflows. -/
def scaleDecimal (positive : Bool) (significand : Nat) (exponent : Int) : Option Float :=
  (go (Float.ofNat significand) exponent 8).map fun f => if positive then f else -f
where
  go (f : Float) (e : Int) : Nat → Option Float
    | 0 => some f
    | fuel + 1 =>
      if e.natAbs ≤ 308 then
        if e ≥ 0 then
          let g := f * pow10 e.natAbs
          if g.isInf then none else some g
        else some (f / pow10 e.natAbs)
      else if f == 0 then some f
      else if e ≥ 0 then none
      else go (f / pow10 308) (e + 308) fuel

/-- Largest value of a 64-bit unsigned and a 32-bit signed integer. -/
def u64Max : Nat := Nat.pow 2 64 - 1
def i32Max : Int := Int.pow 2 31 - 1

/-- Clamps to the 32-bit signed range. -/
def clampI32 (n : Int) : Int := max (-(Int.pow 2 31)) (min i32Max n)

/-- A double result at index `i`, or out of range. -/
def floatAt (positive : Bool) (sig : Nat) (e : Int) (i : Nat) : Except Fault (JsonNumber × Nat) :=
  match scaleDecimal positive sig e with
  | some f => .ok (.float f, i)
  | none => .error (Msg.range, i)

/-- Exponent digits from `i`; digits past the 32-bit range make zero or overflow. -/
def exponentDigits (b : ByteArray) (positive : Bool) (sig : Nat) (start : Int) (positiveExp : Bool) :
    Nat → Nat → Int → Except Fault (JsonNumber × Nat)
  | 0, i, _ => .error (Msg.number, i)
  | fuel + 1, i, exp =>
    match byte? b i with
    | some c =>
      if isDigitByte c then
        let d : Int := (c.toNat - 48 : Nat)
        if exp ≥ i32Max / 10 && (exp > i32Max / 10 || d > i32Max % 10) then
          -- too many exponent digits: zero, or out of range for a positive exponent
          if sig ≠ 0 && positiveExp then .error (Msg.range, i + 1)
          else .ok (.float (if positive then 0.0 else -0.0), skipDigits b (i + 1))
        else exponentDigits b positive sig start positiveExp fuel (i + 1) (exp * 10 + d)
      else floatAt positive sig (clampI32 (if positiveExp then start + exp else start - exp)) i
    | none => floatAt positive sig (clampI32 (if positiveExp then start + exp else start - exp)) i

/-- An exponent part (the index is at `e` or `E`). -/
def exponentPart (b : ByteArray) (positive : Bool) (sig : Nat) (start : Int) (i : Nat) :
    Except Fault (JsonNumber × Nat) :=
  let i := i + 1
  let (positiveExp, i) :=
    match byte? b i with
    | some 43 => (true, i + 1)
    | some 45 => (false, i + 1)
    | _ => (true, i)
  match byte? b i with
  | none => .error (Msg.eofValue, i)
  | some c =>
    if isDigitByte c then exponentDigits b positive sig start positiveExp (b.size + 1) (i + 1) (c.toNat - 48 : Nat)
    else .error (Msg.number, i + 1)

/-- After a fraction or long integer: an exponent part or the end of the number. -/
def afterDigits (b : ByteArray) (positive : Bool) (sig : Nat) (e : Int) (i : Nat) :
    Except Fault (JsonNumber × Nat) :=
  match byte? b i with
  | some 101 | some 69 => exponentPart b positive sig e i
  | _ => floatAt positive sig e i

/-- Fraction digits (the index is after the dot). Digits past 64 bits are dropped. -/
def fractionDigits (b : ByteArray) (positive : Bool) (before : Int) :
    Nat → Nat → Nat → Int → Except Fault (JsonNumber × Nat)
  | 0, i, _, _ => .error (Msg.number, i)
  | fuel + 1, i, sig, after =>
    match byte? b i with
    | some c =>
      if isDigitByte c then
        let d := c.toNat - 48
        if sig * 10 + d > u64Max then afterDigits b positive sig (before + after) (skipDigits b i)
        else fractionDigits b positive before fuel (i + 1) (sig * 10 + d) (after - 1)
      else if after == 0 then .error (Msg.number, min b.size (i + 1))
      else afterDigits b positive sig (before + after) i
    | none =>
      if after == 0 then .error (Msg.eofValue, b.size)
      else afterDigits b positive sig (before + after) i

/-- Integer digits past 64 bits: each raises the exponent. -/
def longDigits (b : ByteArray) (positive : Bool) (sig : Nat) : Nat → Nat → Int → Except Fault (JsonNumber × Nat)
  | 0, i, _ => .error (Msg.number, i)
  | fuel + 1, i, e =>
    match byte? b i with
    | some c =>
      if isDigitByte c then longDigits b positive sig fuel (i + 1) (e + 1)
      else if c == 46 then fractionDigits b positive e (b.size + 1) (i + 1) sig 0
      else afterDigits b positive sig e i
    | none => floatAt positive sig e i

/-- The integer read so far, then a fraction, an exponent or the end. -/
def numberTail (b : ByteArray) (positive : Bool) (sig : Nat) (i : Nat) : Except Fault (JsonNumber × Nat) :=
  match byte? b i with
  | some 46 => fractionDigits b positive 0 (b.size + 1) (i + 1) sig 0
  | some 101 | some 69 => exponentPart b positive sig 0 i
  | _ =>
    if positive then .ok (.nat sig, i)
    else if sig = 0 ∨ sig > Nat.pow 2 63 then .ok (.float (-(Float.ofNat sig)), i)
    else .ok (.negInt (-(sig : Int)), i)

/-- Integer digits after the first. -/
def integerDigits (b : ByteArray) (positive : Bool) : Nat → Nat → Nat → Except Fault (JsonNumber × Nat)
  | 0, i, _ => .error (Msg.number, i)
  | fuel + 1, i, sig =>
    match byte? b i with
    | some c =>
      if isDigitByte c then
        let d := c.toNat - 48
        if sig * 10 + d > u64Max then longDigits b positive sig (b.size + 1) i 0
        else integerDigits b positive fuel (i + 1) (sig * 10 + d)
      else numberTail b positive sig i
    | none => numberTail b positive sig i

/-- A number whose sign has been read (the index is at its first digit). -/
def scanNumber (b : ByteArray) (positive : Bool) (i : Nat) : Except Fault (JsonNumber × Nat) :=
  match byte? b i with
  | none => .error (Msg.eofValue, i)
  | some c =>
    if c == 48 then
      match byte? b (i + 1) with
      | some d => if isDigitByte d then .error (Msg.number, min b.size (i + 2)) else numberTail b positive 0 (i + 1)
      | none => numberTail b positive 0 (i + 1)
    else if isDigitByte c then integerDigits b positive (b.size + 1) (i + 1) (c.toNat - 48)
    else .error (Msg.number, i + 1)

/-- Skips a number without valuing it (the index is at its first digit). -/
def skipNumber (b : ByteArray) (i : Nat) : Except Fault Nat :=
  let afterInt : Except Fault Nat :=
    match byte? b i with
    | some 48 =>
      match byte? b (i + 1) with
      | some d => if isDigitByte d then .error (Msg.number, min b.size (i + 2)) else .ok (i + 1)
      | none => .ok (i + 1)
    | some c => if isDigitByte c then .ok (skipDigits b (i + 1)) else .error (Msg.number, i + 1)
    | none => .error (Msg.number, i)
  match afterInt with
  | .error f => .error f
  | .ok j =>
    let skipExp (k : Nat) : Except Fault Nat :=
      let k := k + 1
      let k := match byte? b k with
        | some 43 | some 45 => k + 1
        | _ => k
      match byte? b k with
      | some c => if isDigitByte c then .ok (skipDigits b (k + 1)) else .error (Msg.number, k + 1)
      | none => .error (Msg.number, k)
    match byte? b j with
    | some 46 =>
      let k := skipDigits b (j + 1)
      if k == j + 1 then .error (Msg.number, min b.size (k + 1))
      else match byte? b k with
        | some 101 | some 69 => skipExp k
        | _ => .ok k
    | some 101 | some 69 => skipExp j
    | _ => .ok j

/-! ## The reader -/

/-- Reading state: the document, the index of the next byte, and failures that keep it. -/
abbrev Reader := ReaderT ByteArray (ExceptT ReadError (StateM Nat))

namespace Reader

def peek? : Reader (Option UInt8) := do return byte? (← read) (← get)

def eat : Reader Unit := modify (· + 1)

/-- Skips blanks and looks at the next byte. -/
def blank? : Reader (Option UInt8) := do
  let b ← read
  modify (skipBlanks b)
  peek?

/-- Fails with the place of byte `i`. -/
def failAt {α : Type} (msg : String) (i : Nat) : Reader α := do
  throw { message := msg, place := some (placeAt (← read) i) }

def fail {α : Type} (msg : String) : Reader α := do failAt msg (← get)

def failPeek {α : Type} (msg : String) : Reader α := do
  let b ← read
  failAt msg (min b.size ((← get) + 1))

/-- Gives a failure without a place the current place. -/
def fix (e : ReadError) : Reader ReadError := do
  match e.place with
  | some _ => return e
  | none => return { e with place := some (placeAt (← read) (← get)) }

/-- Runs a step and returns its outcome, keeping the index where it stopped. -/
def attempt {α : Type} (x : Reader α) : Reader (Except ReadError α) :=
  tryCatch (Except.ok <$> x) (fun e => pure (.error e))

/-- Runs a pure scanner from the current index. -/
def scan {α : Type} (f : ByteArray → Nat → Except Fault (α × Nat)) : Reader α := do
  let b ← read
  match f b (← get) with
  | .ok (a, j) => set j; return a
  | .error (m, j) => set j; failAt m j

/-- A string body (the opening quote is consumed). -/
def string : Reader String :=
  scan fun b i =>
    match scanString b (b.size + 1) i ByteArray.empty with
    | .ok (acc, j) => .ok ((String.fromUTF8? acc).getD "", j)
    | .error f => .error f

def skipStr : Reader Unit := scan fun b i => (skipString b (b.size + 1) i).map fun j => ((), j)

/-- A number whose sign has been consumed. -/
def number (positive : Bool) : Reader JsonNumber := scan fun b i => scanNumber b positive i

/-- Skips a number whose sign has been consumed. -/
def skipNum : Reader Unit := scan fun b i => (skipNumber b i).map fun j => ((), j)

/-- The rest of a keyword, byte by byte. -/
def ident : List UInt8 → Reader Unit
  | [] => pure ()
  | c :: cs => do
    match ← peek? with
    | none => fail Msg.eofValue
    | some d =>
      eat
      if d ≠ c then fail Msg.ident
      ident cs

/-- `ull`, `rue` and `alse`. -/
def ull : List UInt8 := [117, 108, 108]
def rue : List UInt8 := [114, 117, 101]
def alse : List UInt8 := [97, 108, 115, 101]

/-- The closing brace of an object. -/
def endMap : Reader Unit := do
  match ← blank? with
  | some 125 => eat
  | some 44 => failPeek Msg.trailingComma
  | some _ => failPeek Msg.trailing
  | none => failPeek Msg.eofObject

/-- The closing bracket of an array. -/
def endSeq : Reader Unit := do
  match ← blank? with
  | some 93 => eat
  | some 44 =>
    eat
    match ← blank? with
    | some 93 => failPeek Msg.trailingComma
    | _ => failPeek Msg.trailing
  | some _ => failPeek Msg.trailing
  | none => failPeek Msg.eofList

/-- Whether another key follows in an object; leaves the index at its quote. -/
def nextKey? (first : Bool) : Reader Bool := do
  match ← blank? with
  | none => failPeek Msg.eofObject
  | some 125 => pure false
  | some c =>
    if first then
      if c == 34 then pure true else failPeek Msg.keyString
    else if c == 44 then
      eat
      match ← blank? with
      | some 34 => pure true
      | some 125 => failPeek Msg.trailingComma
      | some _ => failPeek Msg.keyString
      | none => failPeek Msg.eofValue
    else failPeek Msg.objectCommaOrEnd

/-- A key: its quoted text. -/
def key : Reader String := do eat; string

/-- The colon after a key. -/
def colon : Reader Unit := do
  match ← blank? with
  | some 58 => eat
  | some _ => failPeek Msg.colon
  | none => failPeek Msg.eofObject

/-- Whether another item follows in an array. -/
def nextItem? (first : Bool) : Reader Bool := do
  match ← blank? with
  | none => failPeek Msg.eofList
  | some 93 => pure false
  | some c =>
    if first then pure true
    else if c == 44 then
      eat
      match ← blank? with
      | some 93 => failPeek Msg.trailingComma
      | some _ => pure true
      | none => failPeek Msg.eofValue
    else failPeek Msg.listCommaOrEnd

/-- A container: the opening byte is at the index; `body` reads the inside and
`close` the end. A failure of either gets the place reached after `close`. -/
def container {α : Type} (depth : Nat) (body : Reader α) (close : Reader Unit) : Reader α := do
  if depth ≤ 1 then failPeek Msg.depth
  eat
  let r ← attempt body
  let e ← attempt close
  match r, e with
  | .ok a, .ok () => pure a
  | .error err, _ => throw (← fix err)
  | .ok _, .error err => throw (← fix err)

/-- The rest of a failure that gets its place later. -/
def unplaced (msg : String) : ReadError := { message := msg }

end Reader

/-! ## Messages about types -/

/-- How an unexpected number is named. -/
def unexpectedNumber : JsonNumber → String
  | .nat n => "integer `" ++ toString n ++ "`"
  | .negInt n => "integer `" ++ toString n ++ "`"
  | .float x => "floating point `" ++ Text.floatWithPoint x ++ "`"

/-- How an unexpected value is named. -/
def unexpectedOf : Json → String
  | .null => "null"
  | .bool b => "boolean `" ++ (if b then "true" else "false") ++ "`"
  | .num n => unexpectedNumber n
  | .str s => "string " ++ Text.quoteText s
  | .arr _ => "sequence"
  | .obj _ => "map"

def invalidType (unexpected expected : String) : String :=
  "invalid type: " ++ unexpected ++ ", expected " ++ expected

/-- A value of the right type and the wrong value. -/
def invalidValue (unexpected expected : String) : String :=
  "invalid value: " ++ unexpected ++ ", expected " ++ expected

def invalidLength (n : Nat) (expected : String) : String :=
  "invalid length " ++ toString n ++ ", expected " ++ expected

def missingField (name : String) : String := "missing field `" ++ name ++ "`"

def duplicateField (name : String) : String := "duplicate field `" ++ name ++ "`"

/-- Names in backticks: one, `a` or `b`, or a list after "one of". -/
def oneOf (names : List String) : String :=
  match names with
  | [] => "nothing"
  | [a] => "`" ++ a ++ "`"
  | [a, b] => "`" ++ a ++ "` or `" ++ b ++ "`"
  | _ => "one of " ++ ", ".intercalate (names.map fun n => "`" ++ n ++ "`")

/-- A variant name that is none of the known ones. -/
def unknownVariant (name : String) (known : List String) : String :=
  if known.isEmpty then "unknown variant `" ++ name ++ "`, there are no variants"
  else "unknown variant `" ++ name ++ "`, expected " ++ oneOf known

open Reader in
/-- The failure for a value of the wrong type at the index, after consuming
the value when it is a scalar; syntax failures on the way are thrown. -/
def invalidTypeHere (expected : String) : Reader ReadError := do
  let c := (← peek?).getD 0
  if c == 110 then
    eat; ident ull; fix (unplaced (invalidType "null" expected))
  else if c == 116 then
    eat; ident rue; fix (unplaced (invalidType "boolean `true`" expected))
  else if c == 102 then
    eat; ident alse; fix (unplaced (invalidType "boolean `false`" expected))
  else if c == 45 then
    eat; let n ← number false; fix (unplaced (invalidType (unexpectedNumber n) expected))
  else if isDigitByte c then
    let n ← number true; fix (unplaced (invalidType (unexpectedNumber n) expected))
  else if c == 34 then
    eat; let s ← string; fix (unplaced (invalidType ("string " ++ Text.quoteText s) expected))
  else if c == 91 then fix (unplaced (invalidType "sequence" expected))
  else if c == 123 then fix (unplaced (invalidType "map" expected))
  else failPeek Msg.value

/-! ## Free-form values -/

open Reader in
mutual
/-- Any value. With `sorted`, object keys are sorted and the last of equal
keys is kept; otherwise fields stay in order, repeats included. -/
def readAny (sorted : Bool) : Nat → Nat → Reader Json
  | 0, _ => fail Msg.depth
  | fuel + 1, depth => do
    match ← blank? with
    | none => failPeek Msg.eofValue
    | some c =>
      if c == 110 then do eat; ident ull; pure .null
      else if c == 116 then do eat; ident rue; pure (.bool true)
      else if c == 102 then do eat; ident alse; pure (.bool false)
      else if c == 45 then do eat; return .num (← number false)
      else if isDigitByte c then do return .num (← number true)
      else if c == 34 then do eat; return .str (← string)
      else if c == 91 then
        container depth (do return .arr (← readItems sorted fuel (depth - 1) true [])) endSeq
      else if c == 123 then
        container depth (do return .obj (← readFields sorted fuel (depth - 1) true [])) endMap
      else failPeek Msg.value

/-- Items of an array, collected in reverse. -/
def readItems (sorted : Bool) : Nat → Nat → Bool → List Json → Reader (List Json)
  | 0, _, _, _ => fail Msg.depth
  | fuel + 1, depth, first, acc => do
    if ← nextItem? first then
      let v ← readAny sorted fuel depth
      readItems sorted fuel depth false (v :: acc)
    else pure acc.reverse

/-- Fields of an object. -/
def readFields (sorted : Bool) : Nat → Nat → Bool → List (String × Json) → Reader (List (String × Json))
  | 0, _, _, _ => fail Msg.depth
  | fuel + 1, depth, first, acc => do
    if ← nextKey? first then
      let k ← key
      colon
      let v ← readAny sorted fuel depth
      readFields sorted fuel depth false (if sorted then insertField k v acc else acc ++ [(k, v)])
    else pure acc
end

/-! ## Skipping a value -/

/-- Where skipping stands after closing brackets: done, or inside a container. -/
inductive SkipStep where
  | finished
  | within (frame : UInt8) (stack : List UInt8)

open Reader in
/-- Closes containers while their closing bytes follow; `frame` is the open
container and `stack` the ones around it, innermost first. -/
def skipClose : Nat → UInt8 → Bool → List UInt8 → Reader SkipStep
  | 0, _, _, _ => fail Msg.depth
  | fuel + 1, frame, acceptComma, stack => do
    match ← blank? with
    | none => failPeek (if frame == 91 then Msg.eofList else Msg.eofObject)
    | some c =>
      if c == 44 && acceptComma then do eat; pure (.within frame stack)
      else if (c == 93 && frame == 91) || (c == 125 && frame == 123) then do
        eat
        match stack with
        | [] => pure .finished
        | f :: rest => skipClose fuel f true rest
      else if acceptComma then
        failPeek (if frame == 91 then Msg.listCommaOrEnd else Msg.objectCommaOrEnd)
      else pure (.within frame stack)

open Reader in
/-- Skips one value without building it, containers included. -/
def skipLoop : Nat → List UInt8 → Option UInt8 → Reader Unit
  | 0, _, _ => fail Msg.depth
  | fuel + 1, stack, enclosing => do
    let c ← match ← blank? with
      | none => failPeek Msg.eofValue
      | some c => pure c
    let opened : Option UInt8 ←
      if c == 110 then do eat; ident ull; pure none
      else if c == 116 then do eat; ident rue; pure none
      else if c == 102 then do eat; ident alse; pure none
      else if c == 45 then do eat; skipNum; pure none
      else if isDigitByte c then do skipNum; pure none
      else if c == 34 then do eat; skipStr; pure none
      else if c == 91 || c == 123 then do eat; pure (some c)
      else failPeek Msg.value
    let next : Option (UInt8 × Bool × List UInt8) :=
      match opened, enclosing, stack with
      | some f, some e, _ => some (f, false, e :: stack)
      | some f, none, _ => some (f, false, stack)
      | none, some e, _ => some (e, true, stack)
      | none, none, f :: rest => some (f, true, rest)
      | none, none, [] => none
    match next with
    | none => pure ()
    | some (frame, acceptComma, stack) =>
      match ← skipClose fuel frame acceptComma stack with
      | .finished => pure ()
      | .within frame stack =>
        if frame == 123 then
          match ← blank? with
          | some 34 => eat
          | some _ => failPeek Msg.keyString
          | none => failPeek Msg.eofObject
          skipStr
          match ← blank? with
          | some 58 => eat
          | some _ => failPeek Msg.colon
          | none => failPeek Msg.eofObject
        skipLoop fuel stack (some frame)

def skipValue : Reader Unit := do
  let b ← read
  skipLoop (2 * b.size + 4) [] none

/-! ## Whole documents -/

/-- Runs a reader over a whole document; bytes other than blanks after it are refused. -/
def runDocument {α : Type} (r : Reader α) (text : String) : Except ReadError α :=
  let b := text.toUTF8
  let whole : Reader α := do
    let a ← r
    match ← Reader.blank? with
    | some _ => Reader.failPeek Msg.trailing
    | none => pure a
  ((whole.run b).run.run 0).1

/-- Reads a document as a free-form value (keys sorted, last repeat kept). -/
def parse (text : String) : Except ReadError Json :=
  runDocument (readAny true (2 * text.utf8ByteSize + 4) 128) text

end ModMirror.Json
