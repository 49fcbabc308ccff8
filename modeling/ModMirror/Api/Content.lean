import ModMirror.Api.Basic
import ModMirror.Fingerprint

/-!
# Content in requests

File bodies and hash input are given as text (its UTF-8 bytes), as
hexadecimal digits, as a generated run of bytes, or as a repeated text.
-/

namespace ModMirror.Api

/-- The value of a hexadecimal digit. -/
def hexDigitValue (c : Char) : Option Nat :=
  if c.isDigit then some (c.toNat - 48)
  else if 'a' ≤ c ∧ c ≤ 'f' then some (c.toNat - 87)
  else if 'A' ≤ c ∧ c ≤ 'F' then some (c.toNat - 55)
  else none

/-- Bytes written as pairs of hexadecimal digits. -/
def bytesOfHex : List Char → Option (List UInt8)
  | [] => some []
  | a :: b :: rest => do
    let hi ← hexDigitValue a
    let lo ← hexDigitValue b
    let tail ← bytesOfHex rest
    pure ((16 * hi + lo).toUInt8 :: tail)
  | [_] => none

/-- `count` generated bytes: byte `i` is `(31 i + seed) mod 251`. -/
def generated (count seed : Nat) : ByteArray :=
  (List.range count).foldl (fun acc i => acc.push ((i * 31 + seed) % 251).toUInt8) (ByteArray.emptyWithCapacity count)

/-- A text repeated `count` times, as bytes. -/
def repeated (text : String) (count : Nat) : ByteArray :=
  let unit := text.toUTF8
  (List.range count).foldl (fun acc _ => acc ++ unit) ByteArray.empty

/-- The bytes a content value stands for. -/
def contentOf (j : Json) : Option ByteArray :=
  match j with
  | .str s => some s.toUTF8
  | _ =>
    match (j.field? "hex").bind Json.str? with
    | some h => (bytesOfHex h.toList).map fun bs => ByteArray.mk bs.toArray
    | none =>
      match (j.field? "gen").bind Json.nat? with
      | some n => some (generated n (((j.field? "seed").bind Json.nat?).getD 0))
      | none => do
        let text ← (j.field? "repeat").bind Json.str?
        let count ← (j.field? "count").bind Json.nat?
        pure (repeated text count)

/-- The sampling rule of a request: the defaults unless both a threshold and
a sample size are given. -/
def samplingOf (req : Json) : Sampling :=
  match (req.field? "threshold").bind Json.nat?, (req.field? "sample_size").bind Json.nat? with
  | some t, some s => Sampling.of t s
  | _, _ => {}

/-- The fingerprint and length of content. -/
def hashBytesAnswer (req : Json) : Json :=
  match (req.field? "data").bind contentOf with
  | some data => .obj [("hash", .str (fingerprint (samplingOf req) data)), ("len", Json.ofNat data.size)]
  | none => requestFailure "bad content"

end ModMirror.Api
