/-!
# Shortest decimal text of a double

A finite double `x = m · 2^e` is written with the fewest significant digits
that read back as `x`: the decimals that read back are those inside the
rounding interval of `x` (its ends included when `m` is even). On the
coarsest grid `10^k` that meets the interval, the point nearest to `x` is
taken, a tie going to the even digit.

The text then follows one layout: positional notation when the decimal point
falls within the first sixteen places (`100.0`, `1.5`, `0.001`), otherwise
scientific notation with a bare exponent (`1e21`, `1.5e-7`). Zero is `0.0`
and carries its sign.

    shortestDigits x = (d, k)  with x reading back from d · 10^k
-/

namespace ModMirror.Text

/-- The sign, the integer mantissa and the binary exponent of a finite double. -/
def floatParts (x : Float) : Bool × Nat × Int :=
  let bits : Nat := x.toBits.toNat
  let neg : Bool := (bits / Nat.pow 2 63) % 2 == 1
  let expField : Nat := (bits / Nat.pow 2 52) % Nat.pow 2 11
  let frac : Nat := bits % Nat.pow 2 52
  if expField == 0 then (neg, frac, -1074)
  else (neg, frac + Nat.pow 2 52, (expField : Int) - 1075)

/-- `a · 2^e` as a fraction `num / den` of natural numbers. -/
def scaled (a : Nat) (e : Int) : Nat × Nat :=
  if e ≥ 0 then (a * Nat.pow 2 e.toNat, 1) else (a, Nat.pow 2 (-e).toNat)

/-- Number of decimal digits of a positive number. -/
def decimalLength (n : Nat) : Nat :=
  if n < 10 then 1 else 1 + decimalLength (n / 10)
termination_by n
decreasing_by omega

/-- The multiple `c · 10^k` of the grid nearest to `num / den` that lies in the
interval `[lo, hi]` (all over the common denominator `den`), if any. -/
def gridPick (num lo hi den : Nat) (k : Int) (loIn hiIn : Bool) : Option Nat :=
  -- compare c · 10^k with a value v / den: c · 10^k · den against v
  let (gScale, vScale) : Nat × Nat :=
    if k ≥ 0 then (Nat.pow 10 k.toNat * den, 1) else (den, Nat.pow 10 (-k).toNat)
  -- grid point c is c * gScale, values are v * vScale
  let inside (c : Nat) : Bool :=
    let g := c * gScale
    (if loIn then lo * vScale ≤ g else lo * vScale < g) &&
    (if hiIn then g ≤ hi * vScale else g < hi * vScale)
  let below := num * vScale / gScale
  let above := below + 1
  let candidates := [below, above].filter inside
  match candidates with
  | [] => none
  | [c] => some c
  | c :: d :: _ =>
    -- both neighbours inside: the nearer to x, a tie to the even one
    let dc := num * vScale - c * gScale
    let dd := d * gScale - num * vScale
    if dc < dd then some c else if dd < dc then some d
    else if c % 2 == 0 then some c else some d

/-- The shortest digits `d` and exponent `k` with `d · 10^k` reading back as
the positive finite double with mantissa `m` and exponent `e`. -/
def shortestOf (m : Nat) (e : Int) : Nat × Int :=
  -- interval ends, over denominator 4 · 2^(-e) when e < 0
  let lowerGap : Nat := if m == Nat.pow 2 52 && e > -1074 then 1 else 2
  let (num, den) := scaled (4 * m) (e - 2)
  let (lo, _) := scaled (4 * m - lowerGap) (e - 2)
  let (hi, _) := scaled (4 * m + 2) (e - 2)
  let even := m % 2 == 0
  let top : Int := (decimalLength (hi / den + 1) : Int)
  go num lo hi den even top 700
where
  go (num lo hi den : Nat) (even : Bool) (k : Int) : Nat → Nat × Int
    | 0 => (num / den, 0)
    | fuel + 1 =>
      match gridPick num lo hi den k even even with
      | some c => if c == 0 then go num lo hi den even (k - 1) fuel else (c, k)
      | none => go num lo hi den even (k - 1) fuel

/-- Shortest digits of a positive finite double, trailing zeros moved into the exponent. -/
def shortestDigits (x : Float) : Nat × Int :=
  let (_, m, e) := floatParts x
  let (d, k) := shortestOf m e
  strip d k 40
where
  strip (d : Nat) (k : Int) : Nat → Nat × Int
    | 0 => (d, k)
    | fuel + 1 => if d % 10 == 0 && d ≠ 0 then strip (d / 10) (k + 1) fuel else (d, k)

/-- Text of an integer exponent: a minus sign when negative, no plus sign. -/
def exponentText (n : Int) : String :=
  if n < 0 then "-" ++ toString (-n).toNat else toString n.toNat

/-- The shortest text of a finite double (see the module comment for its layout). -/
def floatText (x : Float) : String :=
  let (neg, m, _) := floatParts x
  let sign := if neg then "-" else ""
  if m == 0 then sign ++ "0.0"
  else
    let (d, k) := shortestDigits x
    let digits := (toString d).toList
    let len : Int := digits.length
    let kk := len + k
    let body : String :=
      if 0 ≤ k && kk ≤ 16 then
        String.ofList digits ++ String.ofList (List.replicate k.toNat '0') ++ ".0"
      else if 0 < kk && kk ≤ 16 then
        String.ofList (digits.take kk.toNat) ++ "." ++ String.ofList (digits.drop kk.toNat)
      else if -5 < kk && kk ≤ 0 then
        "0." ++ String.ofList (List.replicate (-kk).toNat '0') ++ String.ofList digits
      else if digits.length == 1 then
        String.ofList digits ++ "e" ++ exponentText (kk - 1)
      else
        String.ofList (digits.take 1) ++ "." ++ String.ofList (digits.drop 1) ++ "e" ++ exponentText (kk - 1)
    sign ++ body

/-- The shortest digits of a finite double in positional notation, with no
exponent and no point when the value is whole (`100`, `1.5`, `0.00015`);
zero is `0` with its sign. -/
def floatPositional (x : Float) : String :=
  let (neg, m, _) := floatParts x
  let sign := if neg then "-" else ""
  if m == 0 then sign ++ "0"
  else
    let (d, k) := shortestDigits x
    let digits := (toString d).toList
    let point : Int := digits.length + k
    let body : String :=
      if 0 ≤ k then String.ofList digits ++ String.ofList (List.replicate k.toNat '0')
      else if 0 < point then
        String.ofList (digits.take point.toNat) ++ "." ++ String.ofList (digits.drop point.toNat)
      else "0." ++ String.ofList (List.replicate (-point).toNat '0') ++ String.ofList digits
    sign ++ body

/-- A double as messages about values show it: positional, with `.0` added
to a whole number; `NaN`, `inf` and `-inf` for the others. -/
def floatWithPoint (x : Float) : String :=
  if x.isNaN then "NaN"
  else if x.isInf then (if x < 0 then "-inf" else "inf")
  else
    let t := floatPositional x
    if t.contains '.' then t else t ++ ".0"

end ModMirror.Text
