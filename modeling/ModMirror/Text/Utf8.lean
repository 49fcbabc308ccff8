/-!
# Lenient UTF-8 decoding

Bytes are decoded as UTF-8, and every ill-formed stretch becomes one
replacement character U+FFFD. A stretch is the longest start of a valid
sequence that was cut short, or else one byte that can start none (the
"maximal subpart" rule of the Unicode standard), so decoding goes on at the
first byte that breaks a sequence.

    decodeLossy (s.toUTF8.toList) = s
-/

namespace ModMirror.Text

def replacement : Char := '�'

/-- The ranges allowed for the bytes after a lead byte, or none for a byte
that starts no sequence. -/
def followRanges (lead : UInt8) : Option (List (UInt8 × UInt8)) :=
  if lead < 0x80 then some []
  else if 0xC2 ≤ lead && lead ≤ 0xDF then some [(0x80, 0xBF)]
  else if lead = 0xE0 then some [(0xA0, 0xBF), (0x80, 0xBF)]
  else if lead = 0xED then some [(0x80, 0x9F), (0x80, 0xBF)]
  else if 0xE1 ≤ lead && lead ≤ 0xEF then some [(0x80, 0xBF), (0x80, 0xBF)]
  else if lead = 0xF0 then some [(0x90, 0xBF), (0x80, 0xBF), (0x80, 0xBF)]
  else if 0xF1 ≤ lead && lead ≤ 0xF3 then some [(0x80, 0xBF), (0x80, 0xBF), (0x80, 0xBF)]
  else if lead = 0xF4 then some [(0x80, 0x8F), (0x80, 0xBF), (0x80, 0xBF)]
  else none

/-- The payload bits a lead byte contributes. -/
def leadBits (lead : UInt8) : Nat :=
  if lead < 0x80 then lead.toNat
  else if lead < 0xE0 then lead.toNat % 0x20
  else if lead < 0xF0 then lead.toNat % 0x10
  else lead.toNat % 0x08

/-- Reads the bytes after a lead byte: the code so far and the rest, or how
many bytes matched before the sequence broke. -/
def follow (code : Nat) : List (UInt8 × UInt8) → List UInt8 → Except Nat (Nat × List UInt8)
  | [], rest => .ok (code, rest)
  | (lo, hi) :: more, b :: rest =>
    if lo ≤ b && b ≤ hi then
      match follow (code * 64 + b.toNat % 64) more rest with
      | .ok r => .ok r
      | .error n => .error (n + 1)
    else .error 0
  | _ :: _, [] => .error 0

/-- Decodes bytes, replacing ill-formed stretches (see the module comment). -/
def decodeLossy (bytes : List UInt8) : String :=
  String.ofList (go bytes bytes.length)
where
  go : List UInt8 → Nat → List Char
    | [], _ => []
    | _, 0 => []
    | b :: rest, fuel + 1 =>
      match followRanges b with
      | none => replacement :: go rest fuel
      | some ranges =>
        match follow (leadBits b) ranges rest with
        | .ok (code, after) => Char.ofNat code :: go after fuel
        | .error n => replacement :: go (rest.drop n) fuel

end ModMirror.Text
