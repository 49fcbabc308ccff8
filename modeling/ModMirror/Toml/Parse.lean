import ModMirror.Toml.Build

/-!
# Reading TOML text

The grammar is read byte by byte by step functions `Bytes → Except Fault
(α × Bytes)` that hand back the bytes they did not consume; the offset of a
place is the document's length minus what is left there.

A failed step is a `Fault`: the place it stopped, the contexts it was read
in (what was being read, what could have come there) and an underlying
cause. A cut fault ends the reading at once; any other lets the caller try an
alternative. The message of a fault is its first label, its expected items
and its cause, one per line:

    invalid string
    expected `"`, `'`

Bytes are compared with their codes: `"` 34, `'` 39, `#` 35, `=` 61, `.` 46,
`,` 44, `[` 91, `]` 93, `{` 123, `}` 125, `\` 92, line feed 10, carriage
return 13, space 32, tab 9, `+` 43, `-` 45, `_` 95, `:` 58.
-/

namespace ModMirror.Toml

/-- Bytes of a document still to read. -/
abbrev Bytes := List UInt8

/-- What a failed step was reading (`label`) or could have read there (`expected`). -/
inductive Context where
  | label (what : String)
  | expected (what : String)
  deriving Repr

/-- A failed step: the bytes left where it stopped, the contexts it was read
in (innermost first), an underlying cause, and whether it ends the reading. -/
structure Fault where
  left : Nat
  contexts : List Context := []
  cause : Option String := none
  cut : Bool := false
  deriving Repr

/-- The message of a fault: its first label, its expected items and its cause, one per line. -/
def Fault.message (f : Fault) : String :=
  let label := f.contexts.findSome? fun
    | .label s => some s
    | .expected _ => none
  let expected := f.contexts.filterMap fun
    | .expected s => some s
    | .label _ => none
  let parts := (label.map ("invalid " ++ ·)).toList ++
    (if expected.isEmpty then [] else ["expected " ++ ", ".intercalate expected]) ++ f.cause.toList
  "\n".intercalate parts

/-- A fault with nothing to say, where `rest` is left. -/
def stopAt (rest : Bytes) : Fault := { left := rest.length }

/-- A cut fault with contexts, where `rest` is left. -/
def cutAt (rest : Bytes) (cs : List Context) : Fault := { left := rest.length, contexts := cs, cut := true }

def withContexts {α : Type} (cs : List Context) (r : Except Fault α) : Except Fault α :=
  r.mapError fun f => { f with contexts := f.contexts ++ cs }

/-- A result whose fault ends the reading. -/
def committed {α : Type} (r : Except Fault α) : Except Fault α :=
  r.mapError fun f => { f with cut := true }

/-- The first result, or the alternative when the first failed without a cut. -/
def orElse {α : Type} (r : Except Fault α) (alt : Unit → Except Fault α) : Except Fault α :=
  match r with
  | .error f => if f.cut then .error f else alt ()
  | ok => ok

/-- An item as expected in a message. -/
def quoted (s : String) : Context := .expected ("`" ++ s ++ "`")

/-- The text of bytes cut at ASCII places of a valid document. -/
def bytesText (bs : Bytes) : String := (String.fromUTF8? (ByteArray.mk bs.toArray)).getD ""

/-- The UTF-8 bytes of a character. -/
def charBytes (c : Char) : Bytes := (String.singleton c).toUTF8.toList

/-! ## Classes of bytes -/

def isDigit (b : UInt8) : Bool := 48 ≤ b && b ≤ 57

def isHexDigit (b : UInt8) : Bool := isDigit b || (65 ≤ b && b ≤ 70) || (97 ≤ b && b ≤ 102)

def hexNibble (b : UInt8) : Nat :=
  if isDigit b then b.toNat - 48 else if b ≤ 70 then b.toNat - 55 else b.toNat - 87

def digitValue (ds : Bytes) : Nat := ds.foldl (fun n d => 10 * n + (d.toNat - 48)) 0

/-- Letters, digits, `-` and `_`: the bytes of a bare key. -/
def isBareKeyByte (b : UInt8) : Bool :=
  (65 ≤ b && b ≤ 90) || (97 ≤ b && b ≤ 122) || isDigit b || b == 45 || b == 95

/-- Bytes written as themselves in a basic string. -/
def isBasicUnescaped (b : UInt8) : Bool :=
  b == 32 || b == 9 || b == 0x21 || (0x23 ≤ b && b ≤ 0x5B) || (0x5D ≤ b && b ≤ 0x7E) || 0x80 ≤ b

def isLiteralByte (b : UInt8) : Bool :=
  b == 9 || (0x20 ≤ b && b ≤ 0x26) || (0x28 ≤ b && b ≤ 0x7E) || 0x80 ≤ b

def isNonEol (b : UInt8) : Bool := b == 9 || (0x20 ≤ b && b ≤ 0x7E) || 0x80 ≤ b

/-! ## Blanks, comments and line ends -/

def ws (bs : Bytes) : Bytes := bs.dropWhile fun b => b == 32 || b == 9

/-- A line end: a line feed, or a carriage return and a line feed. -/
def newline? : Bytes → Option Bytes
  | 10 :: r => some r
  | 13 :: 10 :: r => some r
  | _ => none

/-- Where a missing line end is reported: after a lone carriage return. -/
def newlineFault : Bytes → Fault
  | 13 :: r => stopAt r
  | r => stopAt r

/-- Skips a comment, if one starts here. -/
def skipComment : Bytes → Bytes
  | 35 :: r => r.dropWhile isNonEol
  | bs => bs

/-- The rest of a line after a value or header: blanks, a comment, then a
line end or the end of the text. -/
def lineTrailing (bs : Bytes) : Except Fault Bytes :=
  let r := skipComment (ws bs)
  match newline? r with
  | some r' => .ok r'
  | none =>
    if r.isEmpty then .ok r
    else .error { left := r.length, contexts := [.expected "newline", quoted "#"] }

/-- Blanks, comments and line ends between array items; a comment must end its line. -/
def wsCommentNewline : Nat → Bytes → Except Fault Bytes
  | 0, bs => .ok bs
  | fuel + 1, bs =>
    match ws bs with
    | 35 :: r =>
      let r := r.dropWhile isNonEol
      match newline? r with
      | some r' => wsCommentNewline fuel r'
      | none => .error (newlineFault r)
    | 10 :: r => wsCommentNewline fuel r
    | 13 :: r =>
      match r with
      | 10 :: r' => wsCommentNewline fuel r'
      | _ => .error (stopAt r)
    | r => .ok r

/-! ## Strings -/

def escapeContexts : List Context :=
  .label "escape sequence" :: ["b", "f", "n", "r", "t", "u", "U", "\\", "\""].map quoted

/-- A `\u` or `\U` escape (the bytes are after the letter): `count` hex
digits naming a Unicode scalar value. -/
def hexEscape (count : Nat) (label : String) (bs : Bytes) : Except Fault (Bytes × Bytes) :=
  let digits := (bs.takeWhile isHexDigit).take count
  let code := digits.foldl (fun n d => 16 * n + hexNibble d) 0
  if digits.length != count then .error (cutAt bs [.label label])
  else if code < 0xD800 || (0xE000 ≤ code && code ≤ 0x10FFFF) then
    .ok (charBytes (Char.ofNat code), bs.drop count)
  else .error { cutAt bs [.label label] with cause := some "value is out of range" }

/-- An escape after a backslash: the bytes it stands for, or nothing at the
end of the text. -/
def escapeSeq : Bytes → Except Fault (Option (Bytes × Bytes))
  | [] => .ok none
  | b :: rest =>
    if b == 98 then .ok (some ([8], rest))
    else if b == 102 then .ok (some ([12], rest))
    else if b == 110 then .ok (some ([10], rest))
    else if b == 114 then .ok (some ([13], rest))
    else if b == 116 then .ok (some ([9], rest))
    else if b == 92 then .ok (some ([92], rest))
    else if b == 34 then .ok (some ([34], rest))
    else if b == 117 then (hexEscape 4 "unicode 4-digit hex code" rest).map some
    else if b == 85 then (hexEscape 8 "unicode 8-digit hex code" rest).map some
    else .error (cutAt rest escapeContexts)

/-- The body of a basic string up to the first byte it cannot hold (bytes kept in reverse). -/
def basicBody : Nat → Bytes → Bytes → Except Fault (Bytes × Bytes)
  | 0, acc, bs => .ok (acc, bs)
  | _ + 1, acc, [] => .ok (acc, [])
  | fuel + 1, acc, b :: rest =>
    if isBasicUnescaped b then basicBody fuel (b :: acc) rest
    else if b == 92 then
      match escapeSeq rest with
      | .error f => .error f
      | .ok none => .ok (acc, b :: rest)
      | .ok (some (out, rest')) => basicBody fuel (out.reverse ++ acc) rest'
    else .ok (acc, b :: rest)

/-- A basic string (the bytes are after its opening quote). -/
def basicString (bs : Bytes) : Except Fault (String × Bytes) := do
  let (acc, rest) ← basicBody (bs.length + 1) [] bs
  match rest with
  | 34 :: rest' => pure (bytesText acc.reverse, rest')
  | _ => .error (cutAt rest [.label "basic string"])

/-- A literal string (the bytes are after its opening apostrophe). -/
def literalString (bs : Bytes) : Except Fault (String × Bytes) :=
  let body := bs.takeWhile isLiteralByte
  match bs.drop body.length with
  | 39 :: rest => .ok (bytesText body, rest)
  | rest => .error (cutAt rest [.label "literal string"])

/-- Skips blanks and line ends. -/
def skipWsNewlines : Nat → Bytes → Bytes
  | 0, bs => bs
  | fuel + 1, bs =>
    match ws bs with
    | 10 :: r => skipWsNewlines fuel r
    | 13 :: 10 :: r => skipWsNewlines fuel r
    | r => r

/-- One piece of a multi-line basic string: a run byte, a line end, an
escape, or a backslash ending its line (which stands for nothing). `none`
when no piece starts here. -/
def mlbContent (bs : Bytes) : Except Fault (Option (Bytes × Bytes)) :=
  match bs with
  | [] => .ok none
  | b :: rest =>
    if isBasicUnescaped b then .ok (some ([b], rest))
    else if b == 92 then
      match newline? (ws rest) with
      | some r => .ok (some ([], skipWsNewlines (r.length + 1) r))
      | none => escapeSeq rest
    else match newline? bs with
      | some r => .ok (some ([10], r))
      | none => .ok none

/-- Pieces of a multi-line basic string, as many as follow (bytes kept in reverse). -/
def mlbRun : Nat → Bytes → Bytes → Except Fault (Bytes × Bytes)
  | 0, acc, bs => .ok (acc, bs)
  | fuel + 1, acc, bs => do
    match ← mlbContent bs with
    | none => pure (acc, bs)
    | some (out, rest) => mlbRun fuel (out.reverse ++ acc) rest

/-- One or two quotes followed by what `next` accepts. -/
def quotesBefore (q : UInt8) (next : Bytes → Bool) : Bytes → Option (Bytes × Bytes)
  | a :: b :: rest =>
    if a == q && b == q && next rest then some ([q, q], rest)
    else if a == q && next (b :: rest) then some ([q], b :: rest)
    else none
  | [a] => if a == q && next [] then some ([q], []) else none
  | [] => none

/-- Whether the next byte is there and is not `q`. -/
def notQuote (q : UInt8) : Bytes → Bool
  | b :: _ => b != q
  | [] => false

/-- Whether three `q` follow. -/
def tripleQuote (q : UInt8) : Bytes → Bool
  | a :: b :: c :: _ => a == q && b == q && c == q
  | _ => false

/-- Quotes inside a multi-line basic string, each followed by more pieces. -/
def mlbQuoted : Nat → Bytes → Bytes → Except Fault (Bytes × Bytes)
  | 0, acc, bs => .ok (acc, bs)
  | fuel + 1, acc, bs =>
    match quotesBefore 34 (notQuote 34) bs with
    | none => .ok (acc, bs)
    | some (qs, rest) => do
      match ← mlbContent rest with
      | none => pure (acc, rest)
      | some (out, rest') =>
        let (acc, rest'') ← mlbRun fuel (out.reverse ++ qs.reverse ++ acc) rest'
        mlbQuoted fuel acc rest''

/-- A multi-line basic string (the bytes are after its opening `"""`). -/
def mlBasicString (bs : Bytes) : Except Fault (String × Bytes) :=
  withContexts [.label "multiline basic string"] do
    let bs := (newline? bs).getD bs
    let (acc, r) ← committed (mlbRun (bs.length + 1) [] bs)
    let (acc, r) ← committed (mlbQuoted (r.length + 1) acc r)
    let (acc, r) := match quotesBefore 34 (tripleQuote 34) r with
      | some (qs, r') => (qs.reverse ++ acc, r')
      | none => (acc, r)
    match r with
    | 34 :: 34 :: 34 :: r' => pure (bytesText acc.reverse, r')
    | _ => .error (cutAt r [])

/-- One piece of a multi-line literal string: a byte or a line end. -/
def mllContent (bs : Bytes) : Option (Bytes × Bytes) :=
  match bs with
  | b :: rest => if isLiteralByte b then some ([b], rest) else (newline? bs).map fun r => ([10], r)
  | [] => none

/-- Pieces of a multi-line literal string, as many as follow (bytes kept in reverse). -/
def mllRun : Nat → Bytes → Bytes → Bytes × Bytes
  | 0, acc, bs => (acc, bs)
  | fuel + 1, acc, bs =>
    match mllContent bs with
    | none => (acc, bs)
    | some (out, rest) => mllRun fuel (out.reverse ++ acc) rest

/-- Quotes inside a multi-line literal string, each followed by at least one piece. -/
def mllQuoted : Nat → Bytes → Bytes → Bytes × Bytes
  | 0, acc, bs => (acc, bs)
  | fuel + 1, acc, bs =>
    match quotesBefore 39 (notQuote 39) bs with
    | none => (acc, bs)
    | some (qs, rest) =>
      match mllContent rest with
      | none => (acc, bs)
      | some (out, rest') =>
        let (acc, rest'') := mllRun fuel (out.reverse ++ qs.reverse ++ acc) rest'
        mllQuoted fuel acc rest''

/-- A multi-line literal string (the bytes are after its opening `'''`). -/
def mlLiteralString (bs : Bytes) : Except Fault (String × Bytes) :=
  let bs := (newline? bs).getD bs
  let (acc, r) := mllRun (bs.length + 1) [] bs
  let (acc, r) := mllQuoted (r.length + 1) acc r
  let (acc, r) := match quotesBefore 39 (tripleQuote 39) r with
    | some (qs, r') => (qs.reverse ++ acc, r')
    | none => (acc, r)
  match r with
  | 39 :: 39 :: 39 :: r' => .ok (bytesText acc.reverse, r')
  | _ => .error (cutAt r [.label "multiline literal string"])

/-- A string of any of the four kinds. -/
def string (bs : Bytes) : Except Fault (String × Bytes) :=
  match bs with
  | 34 :: 34 :: 34 :: r => mlBasicString r
  | 34 :: r => basicString r
  | 39 :: 39 :: 39 :: r => mlLiteralString r
  | 39 :: r => literalString r
  | _ => .error (stopAt bs)

/-! ## Keys -/

/-- One key: bare, basic or literal. -/
def simpleKey (n : Nat) (bs : Bytes) : Except Fault (Key × Bytes) := do
  let (name, rest) ← match bs with
    | 34 :: r => basicString r
    | 39 :: r => literalString r
    | _ =>
      let bare := bs.takeWhile isBareKeyByte
      if bare.isEmpty then .error (stopAt bs) else .ok (bytesText bare, bs.drop bare.length)
  pure ({ name, raw := bytesText (bs.take (bs.length - rest.length)),
          span := ⟨n - bs.length, n - rest.length⟩ }, rest)

/-- Further keys of a dotted key, each after a dot; a dot not followed by a key is left. -/
def keyMore (n : Nat) : Nat → List Key → Bytes → Except Fault (List Key × Bytes)
  | 0, acc, bs => .ok (acc, bs)
  | fuel + 1, acc, bs =>
    match bs with
    | 46 :: r =>
      match simpleKey n (ws r) with
      | .ok (k, r') => keyMore n fuel (acc ++ [k]) (ws r')
      | .error f => if f.cut then .error f else .ok (acc, bs)
    | _ => .ok (acc, bs)

/-- The path before the last key, and the last key. -/
def splitLast (k : Key) : List Key → List Key × Key
  | [] => ([], k)
  | k' :: ks => let (p, last) := splitLast k' ks; (k :: p, last)

/-- A key, dotted or not, with the blanks around its parts. -/
def keyPath (n : Nat) (bs : Bytes) : Except Fault ((List Key × Key) × Bytes) :=
  withContexts [.label "key"] do
    let (k, r) ← simpleKey n (ws bs)
    let (ks, r) ← keyMore n (r.length + 1) [] (ws r)
    pure (splitLast k ks, r)

/-! ## Dates and times -/

/-- The failure of a date or time part out of its range. -/
def outOfRange (bs : Bytes) : Fault := { left := bs.length, cause := some "value is out of range" }

/-- Exactly `count` digits and their value. -/
def digitsExact (count : Nat) (bs : Bytes) : Option (Nat × Bytes) :=
  let ds := (bs.takeWhile isDigit).take count
  if ds.length == count then some (digitValue ds, bs.drop count) else none

/-- Two digits with a value from `lo` to `hi`. -/
def twoDigitsIn (lo hi : Nat) (bs : Bytes) : Except Fault (Nat × Bytes) :=
  match digitsExact 2 bs with
  | none => .error (stopAt bs)
  | some (d, r) => if lo ≤ d && d ≤ hi then .ok (d, r) else .error (outOfRange bs)

/-- The byte `b` here. -/
def byteHere (b : UInt8) (bs : Bytes) : Except Fault Bytes :=
  match bs with
  | c :: r => if c == b then .ok r else .error (stopAt bs)
  | [] => .error (stopAt bs)

/-- The days of a month. -/
def monthDays (year month : Nat) : Nat :=
  let leap := year % 4 == 0 && (year % 100 != 0 || year % 400 == 0)
  if month == 2 then (if leap then 29 else 28)
  else if month == 4 || month == 6 || month == 9 || month == 11 then 30
  else 31

/-- A date `yyyy-mm-dd`; past its first dash, a bad date ends the reading. -/
def fullDate (bs : Bytes) : Except Fault ((Nat × Nat × Nat) × Bytes) := do
  let some (year, r) := digitsExact 4 bs | .error (stopAt bs)
  let r ← byteHere 45 r
  let (month, r) ← committed (twoDigitsIn 1 12 r)
  let r ← committed (byteHere 45 r)
  let (day, r') ← committed (twoDigitsIn 1 31 r)
  if monthDays year month < day then .error { outOfRange r with cut := true }
  else pure ((year, month, day), r')

/-- Nanoseconds of a fraction of a second, digits past the ninth dropped. -/
def secondFraction (bs : Bytes) : Nat × Bytes :=
  match bs with
  | 46 :: r =>
    let ds := r.takeWhile isDigit
    if ds.isEmpty then (0, bs)
    else
      let kept := ds.take 9
      (digitValue kept * Nat.pow 10 (9 - kept.length), r.drop ds.length)
  | _ => (0, bs)

/-- A time `hh:mm:ss` with an optional fraction; past its first colon, a bad time ends the reading. -/
def partialTime (bs : Bytes) : Except Fault ((Nat × Nat × Nat × Nat) × Bytes) := do
  let (hour, r) ← twoDigitsIn 0 23 bs
  let r ← byteHere 58 r
  committed do
    let (minute, r) ← twoDigitsIn 0 59 r
    let r ← byteHere 58 r
    let (second, r) ← twoDigitsIn 0 60 r
    let (nanos, r) := secondFraction r
    pure ((hour, minute, second, nanos), r)

/-- A time offset: `Z`, or a sign with hours and minutes (in minutes). -/
def timeOffset (bs : Bytes) : Except Fault (Option Int × Bytes) :=
  withContexts [.label "time offset"] <|
  match bs with
  | b :: r =>
    if b == 90 || b == 122 then .ok (none, r)
    else if b == 43 || b == 45 then committed do
      let (h, r) ← twoDigitsIn 0 23 r
      let r ← byteHere 58 r
      let (m, r) ← twoDigitsIn 0 59 r
      let minutes : Int := h * 60 + m
      pure (some (if b == 45 then -minutes else minutes), r)
    else .error (stopAt bs)
  | [] => .error (stopAt bs)

/-- A number with at least `width` digits. -/
def padded (width n : Nat) : String :=
  let s := toString n
  String.ofList (List.replicate (width - s.length) '0') ++ s

def dateText : Nat × Nat × Nat → String
  | (y, m, d) => padded 4 y ++ "-" ++ padded 2 m ++ "-" ++ padded 2 d

/-- The text of a time; the fraction loses its trailing zeros. -/
def timeText : Nat × Nat × Nat × Nat → String
  | (h, m, s, ns) =>
    padded 2 h ++ ":" ++ padded 2 m ++ ":" ++ padded 2 s ++
      (if ns == 0 then ""
       else "." ++ String.ofList ((padded 9 ns).toList.reverse.dropWhile (· == '0')).reverse)

/-- The text of an offset: `Z` or a sign, hours and minutes. -/
def offsetText : Option Int → String
  | none => "Z"
  | some m => (if m < 0 then "-" else "+") ++ padded 2 (m.natAbs / 60) ++ ":" ++ padded 2 (m.natAbs % 60)

/-- A date with an optional time and offset, or a time alone, as its normal text. -/
def dateTime (bs : Bytes) : Except Fault (String × Bytes) :=
  orElse (do
    let (date, r) ← fullDate bs
    match r with
    | d :: r' =>
      if d == 84 || d == 116 || d == 32 then
        match partialTime r' with
        | .ok (time, r'') =>
          match timeOffset r'' with
          | .ok (off, r3) => pure (dateText date ++ "T" ++ timeText time ++ offsetText off, r3)
          | .error f => if f.cut then .error f else pure (dateText date ++ "T" ++ timeText time, r'')
        | .error f => if f.cut then .error f else pure (dateText date, r)
      else pure (dateText date, r)
    | [] => pure (dateText date, r))
  fun _ => do
    let (time, r) ← partialTime bs
    pure (timeText time, r)

/-! ## Numbers -/

/-- Digits after the first, single underscores allowed between digits. -/
def digitRun (digit : UInt8 → Bool) : Bytes → Except Fault Bytes
  | [] => .ok []
  | b :: r =>
    if digit b then digitRun digit r
    else if b == 95 then
      match r with
      | d :: r' => if digit d then digitRun digit r' else .error (cutAt r [.expected "digit"])
      | [] => .error (cutAt r [.expected "digit"])
    else .ok (b :: r)

/-- A decimal integer: an optional sign, then `0` or digits without a leading zero. -/
def decInt (bs : Bytes) : Except Fault Bytes :=
  withContexts [.label "integer"] <|
  let r := match bs with
    | 43 :: r => r
    | 45 :: r => r
    | _ => bs
  match r with
  | d :: r' =>
    if 49 ≤ d && d ≤ 57 then digitRun isDigit r'
    else if d == 48 then .ok r'
    else .error (stopAt r)
  | [] => .error (stopAt r)

/-- Digits that may start with zero. -/
def zeroPrefixableInt (bs : Bytes) : Except Fault Bytes :=
  match bs with
  | d :: r => if isDigit d then digitRun isDigit r else .error (stopAt bs)
  | [] => .error (stopAt bs)

/-- An exponent part: `e` or `E`, an optional sign, digits. -/
def exponentPart (bs : Bytes) : Except Fault Bytes :=
  match bs with
  | e :: r =>
    if e == 101 || e == 69 then
      let r := match r with
        | 43 :: r' => r'
        | 45 :: r' => r'
        | _ => r
      committed (zeroPrefixableInt r)
    else .error (stopAt bs)
  | [] => .error (stopAt bs)

/-- A fraction part: a dot and digits. -/
def fractionPart (bs : Bytes) : Except Fault Bytes :=
  match bs with
  | 46 :: r => committed (withContexts [.expected "digit"] (zeroPrefixableInt r))
  | _ => .error (stopAt bs)

/-- The text of a decimal number without its underscores. -/
def numberText (taken : Bytes) : String := bytesText (taken.filter (· != 95))

/-- Ten to a power, as a double. -/
def tenPow (k : Nat) : Float := Float.ofScientific 1 false k

/-- The double nearest to a decimal number written as sign, digits, an optional
fraction and an optional exponent. -/
def decimalFloat (text : String) : Float :=
  let cs := text.toList
  let (neg, cs) := match cs with
    | '-' :: r => (true, r)
    | '+' :: r => (false, r)
    | r => (false, r)
  let intDigits := cs.takeWhile Char.isDigit
  let cs := cs.drop intDigits.length
  let fracDigits := match cs with
    | '.' :: r => r.takeWhile Char.isDigit
    | _ => []
  let cs := match cs with
    | '.' :: r => r.drop fracDigits.length
    | r => r
  let exp : Int := match cs with
    | e :: r =>
      if e == 'e' || e == 'E' then
        match r with
        | '-' :: ds => -(ds.foldl (fun n c => 10 * n + (c.toNat - 48)) 0 : Nat)
        | '+' :: ds => (ds.foldl (fun n c => 10 * n + (c.toNat - 48)) 0 : Nat)
        | ds => (ds.foldl (fun n c => 10 * n + (c.toNat - 48)) 0 : Nat)
      else 0
    | [] => 0
  let digits := (intDigits ++ fracDigits).dropWhile (· == '0')
  let mantissa := digits.foldl (fun n c => 10 * n + (c.toNat - 48)) 0
  let e : Int := exp - fracDigits.length
  let magnitude : Float :=
    if mantissa == 0 then 0
    else if (digits.length : Int) + e > 310 then tenPow 400
    else if (digits.length : Int) + e < -330 then 0
    else if 0 ≤ e then Float.ofScientific mantissa false e.toNat
    else Float.ofScientific mantissa true e.natAbs
  if neg then -magnitude else magnitude

/-- `inf` or `nan` with an optional sign. -/
def specialFloat (bs : Bytes) : Except Fault (Float × Bytes) :=
  let (neg, r) := match bs with
    | 43 :: r => (false, r)
    | 45 :: r => (true, r)
    | _ => (false, bs)
  match r with
  | 105 :: 110 :: 102 :: r' => .ok (if neg then -(tenPow 400) else tenPow 400, r')
  | 110 :: 97 :: 110 :: r' => .ok (if neg then -(0 / 0 : Float) else (0 / 0 : Float), r')
  | _ => .error (stopAt r)

/-- A float: an integer part, then an exponent or a fraction with an optional
exponent; or `inf` or `nan`. A finite text too large for a double is refused. -/
def float (bs : Bytes) : Except Fault (Float × Bytes) :=
  withContexts [.label "floating-point number"] <|
  orElse (do
    let r ← decInt bs
    let r ← orElse (exponentPart r) fun _ => do
      let r1 ← fractionPart r
      orElse (exponentPart r1) fun _ => pure r1
    let x := decimalFloat (numberText (bs.take (bs.length - r.length)))
    if x.isInf then .error (cutAt bs []) else pure (x, r))
  fun _ => specialFloat bs

/-- The largest 64-bit signed integer. -/
def i64Max : Int := Int.pow 2 63 - 1

/-- An integer of a radix after its prefix (hex digits stand for any digits here). -/
def radixInt (digit : UInt8 → Bool) (radix : Nat) (label : String) (start bs : Bytes) :
    Except Fault (Int × Bytes) := committed do
  let r ← withContexts [.label label] (match bs with
    | d :: r => if digit d then digitRun digit r else .error (stopAt bs)
    | [] => .error (stopAt bs))
  let ds := (bs.take (bs.length - r.length)).filter (· != 95)
  let v := ds.foldl (fun n d => radix * n + hexNibble d) 0
  if (v : Int) ≤ i64Max then pure (v, r)
  else .error { left := start.length, cause := some "number too large to fit in target type" }

/-- An integer: hexadecimal, octal, binary or decimal, within 64 bits. -/
def integer (bs : Bytes) : Except Fault (Int × Bytes) :=
  match bs with
  | 48 :: 120 :: r => radixInt isHexDigit 16 "hexadecimal integer" bs r
  | 48 :: 111 :: r => radixInt (fun b => 48 ≤ b && b ≤ 55) 8 "octal integer" bs r
  | 48 :: 98 :: r => radixInt (fun b => b == 48 || b == 49) 2 "binary integer" bs r
  | _ => do
    let r ← decInt bs
    let text := numberText (bs.take (bs.length - r.length))
    let cs := text.toList
    let (neg, ds) := match cs with
      | '-' :: ds => (true, ds)
      | '+' :: ds => (false, ds)
      | ds => (false, ds)
    let magnitude : Int := (ds.foldl (fun n c => 10 * n + (c.toNat - 48)) 0 : Nat)
    let v := if neg then -magnitude else magnitude
    if v > i64Max then .error { cutAt bs [] with cause := some "number too large to fit in target type" }
    else if v < -i64Max - 1 then .error { cutAt bs [] with cause := some "number too small to fit in target type" }
    else pure (v, r)

/-! ## Values -/

/-- Contexts of a value that cannot start here. -/
def valueContexts : List Context := [.label "string", quoted "\"", quoted "'"]

/-- A scalar value: a string, a number, a date-time or a boolean. -/
def scalar (bs : Bytes) : Except Fault (Scalar × Bytes) :=
  match bs with
  | [] => .error (stopAt bs)
  | b :: _ =>
    if b == 34 || b == 39 then (string bs).map fun (s, r) => (.string s, r)
    else if b == 43 || b == 45 || isDigit b then
      orElse ((dateTime bs).map fun (t, r) => (.datetime t, r)) fun _ =>
      orElse ((float bs).map fun (x, r) => (.float x, r)) fun _ =>
      (integer bs).map fun (i, r) => (.integer i, r)
    else if b == 95 then withContexts [.expected "leading digit"] ((integer bs).map fun (i, r) => (.integer i, r))
    else if b == 46 then withContexts [.expected "leading digit"] ((float bs).map fun (x, r) => (.float x, r))
    else withContexts valueContexts <|
      match bs with
      | 116 :: 114 :: 117 :: 101 :: r => .ok (.boolean true, r)
      | 102 :: 97 :: 108 :: 115 :: 101 :: r => .ok (.boolean false, r)
      | 105 :: 110 :: 102 :: r => .ok (.float (tenPow 400), r)
      | 110 :: 97 :: 110 :: r => .ok (.float (0 / 0), r)
      | _ => .error { stopAt bs with cut := b == 116 || b == 102 }

mutual
/-- A value, with the span of its text. -/
def value (n : Nat) : Nat → Bytes → Except Fault (Node × Bytes)
  | 0, bs => .error (stopAt bs)
  | fuel + 1, bs =>
    let spanTo (r : Bytes) : Span := ⟨n - bs.length, n - r.length⟩
    match bs with
    | 91 :: r => do
      let (items, r') ← array n fuel r
      pure (.array items (spanTo r'), r')
    | 123 :: r => do
      let (entries, r') ← inlineTable n fuel r
      pure (.table entries .inline (some (spanTo r')), r')
    | _ => do
      let (v, r') ← scalar bs
      pure (.scalar v (spanTo r'), r')

/-- An array item with the blanks, comments and line ends around it. -/
def arrayValue (n : Nat) : Nat → Bytes → Except Fault (Node × Bytes)
  | 0, bs => .error (stopAt bs)
  | fuel + 1, bs => do
    let r ← wsCommentNewline (bs.length + 1) bs
    let (v, r) ← value n fuel r
    let r ← wsCommentNewline (r.length + 1) r
    pure (v, r)

/-- Array items after the first, each after a comma; a last comma with no item is taken. -/
def arrayMore (n : Nat) : Nat → List Node → Bytes → Except Fault (List Node × Bytes)
  | 0, acc, bs => .ok (acc, bs)
  | fuel + 1, acc, bs =>
    match bs with
    | 44 :: r =>
      match arrayValue n fuel r with
      | .ok (v, r') => arrayMore n fuel (acc ++ [v]) r'
      | .error f => if f.cut then .error f else .ok (acc, r)
    | _ => .ok (acc, bs)

/-- An array (the bytes are after its opening bracket). -/
def array (n : Nat) : Nat → Bytes → Except Fault (List Node × Bytes)
  | 0, bs => .error (stopAt bs)
  | fuel + 1, bs => do
    let (items, r) ← match arrayValue n fuel bs with
      | .ok (v, r) => arrayMore n fuel [v] r
      | .error f => if f.cut then .error f else .ok ([], bs)
    let r ← committed (wsCommentNewline (r.length + 1) r)
    match r with
    | 93 :: r' => pure (items, r')
    | _ => .error (cutAt r [.label "array", quoted "]"])

/-- A key-value pair of an inline table. -/
def inlineKeyval (n : Nat) : Nat → Bytes → Except Fault ((List Key × Key × Node) × Bytes)
  | 0, bs => .error (stopAt bs)
  | fuel + 1, bs => do
    let ((path, key), r) ← keyPath n bs
    committed do
      let r ← match r with
        | 61 :: r => pure r
        | _ => .error { left := r.length, contexts := [quoted ".", quoted "="] }
      let (v, r) ← value n fuel (ws r)
      pure ((path, key, v), ws r)

/-- Pairs of an inline table after the first, each after a comma. -/
def inlineMore (n : Nat) : Nat → List (List Key × Key × Node) → Bytes →
    Except Fault (List (List Key × Key × Node) × Bytes)
  | 0, acc, bs => .ok (acc, bs)
  | fuel + 1, acc, bs =>
    match bs with
    | 44 :: r =>
      match inlineKeyval n fuel r with
      | .ok (p, r') => inlineMore n fuel (acc ++ [p]) r'
      | .error f => if f.cut then .error f else .ok (acc, bs)
    | _ => .ok (acc, bs)

/-- An inline table (the bytes are after its opening brace). -/
def inlineTable (n : Nat) : Nat → Bytes → Except Fault (Entries × Bytes)
  | 0, bs => .error (stopAt bs)
  | fuel + 1, bs => do
    let (pairs, r) ← match inlineKeyval n fuel bs with
      | .ok (p, r) => inlineMore n fuel [p] r
      | .error f => if f.cut then .error f else .ok ([], bs)
    let r := ws r
    let entries ← (assembleInline pairs).mapError fun c =>
      ({ left := bs.length, cause := some c.message, cut := true } : Fault)
    match r with
    | 125 :: r' => pure (entries, r')
    | _ => .error (cutAt r [.label "inline table", quoted "\x7d"])
end

/-! ## Documents -/

/-- A key-value line. -/
def keyval (n : Nat) (bs : Bytes) : Except Fault ((List Key × Key × Node) × Bytes) := do
  let ((path, key), r) ← keyPath n bs
  committed do
    let r ← match r with
      | 61 :: r => pure r
      | _ => .error { left := r.length, contexts := [quoted ".", quoted "="] }
    let (v, r) ← value n (4 * r.length + 8) (ws r)
    let r ← lineTrailing r
    pure ((path, key, v), r)

/-- A header line `[path]` or `[[path]]`: whether it heads an array of
tables, its key path and the span of the bracketed part. -/
def header (n : Nat) (bs : Bytes) : Except Fault ((Bool × List Key × Span) × Bytes) :=
  let isArray := match bs with
    | 91 :: 91 :: _ => true
    | _ => false
  withContexts [.label "table header"] do
    let ((path, key), r) ← committed (keyPath n (bs.drop (if isArray then 2 else 1)))
    let r ← if isArray then
        match r with
        | 93 :: 93 :: r => pure r
        | _ => .error (cutAt r [quoted ".", quoted "]]"])
      else
        match r with
        | 93 :: r => pure r
        | _ => .error (cutAt r [quoted ".", quoted "]"])
    let span : Span := ⟨n - bs.length, n - r.length⟩
    let r ← committed (lineTrailing r)
    pure ((isArray, path ++ [key], span), r)

/-- The lines of a document, each placed as it is read. -/
def documentLines (n : Nat) : Nat → Builder → Bytes → Except Fault Builder
  | 0, b, _ => .ok b
  | fuel + 1, b, bs =>
    match bs with
    | [] => .ok b
    | 35 :: r =>
      let r := r.dropWhile isNonEol
      match newline? r with
      | some r' => documentLines n fuel b (ws r')
      | none => if r.isEmpty then .ok b else .error (cutAt r [])
    | 91 :: _ => do
      let ((isArray, path, span), r) ← header n bs
      let b ← (b.openTable isArray path span).mapError fun c =>
        ({ cutAt bs [.label "table header"] with cause := some c.message } : Fault)
      documentLines n fuel b (ws r)
    | 10 :: r => documentLines n fuel b (ws r)
    | 13 :: r =>
      match r with
      | 10 :: r' => documentLines n fuel b (ws r')
      | _ => .error (stopAt bs)
    | _ => do
      let ((path, key, v), r) ← committed (keyval n bs)
      let b ← (b.addKeyval path key v).mapError fun c =>
        ({ cutAt bs [] with cause := some c.message } : Fault)
      documentLines n fuel b (ws r)

/-- Reads a document into its table tree; a byte order mark at the start is skipped. -/
def parseDocument (text : String) : Except Failure Node :=
  let bytes := text.toUTF8.toList
  let n := bytes.length
  let body := match bytes with
    | 0xEF :: 0xBB :: 0xBF :: r => r
    | r => r
  match documentLines n (n + 1) Builder.start (ws body) with
  | .error f =>
    let offset := n - f.left
    .error { span := some ⟨offset, if offset == n then offset else offset + 1⟩, message := f.message }
  | .ok b => b.finish.mapError fun c => { span := none, message := c.message }

end ModMirror.Toml
