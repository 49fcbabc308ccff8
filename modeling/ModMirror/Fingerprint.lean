import ModMirror.Digest.Sha256

/-!
# Content fingerprints

A fingerprint answers "did this content change": the SHA-256 digest of the
content's length (8 bytes, little endian) followed by the content itself when
it is shorter than the sampling threshold, and otherwise by three windows of
the sample size taken at the head, the middle and the tail. Timestamps and
permissions never enter it. The empty fingerprint is reserved for
directories.

    fingerprint cfg data = hex (sha256 (le64 data.size ++ sampled cfg data))
-/

namespace ModMirror

/-- When and how content is sampled instead of hashed in full. -/
structure Sampling where
  /-- Content of at least this many bytes is sampled. -/
  threshold : Nat := 131072
  /-- Bytes in each sampled window. -/
  window : Nat := 16384
  deriving DecidableEq, Repr

namespace Sampling

/-- A threshold of at least one byte, and a window between one byte and the threshold. -/
def of (threshold window : Nat) : Sampling :=
  let t := max threshold 1
  { threshold := t, window := min (max window 1) t }

/-- Head, middle and tail offsets of the windows for content of `len` bytes. -/
def offsets (cfg : Sampling) (len : Nat) : List Nat :=
  let last := len - cfg.window
  [0, last / 2, last]

/-- The bytes that enter the digest after the length. -/
def sampled (cfg : Sampling) (data : ByteArray) : ByteArray :=
  if data.size < cfg.threshold then data
  else (cfg.offsets data.size).foldl (fun acc off => acc ++ data.extract off (off + cfg.window)) ByteArray.empty

end Sampling

/-- Little-endian bytes of `n`, eight of them. -/
def littleEndian64 (n : Nat) : ByteArray :=
  ByteArray.mk ((List.range 8).map fun i => (n / Nat.pow 2 (8 * i) % 256).toUInt8).toArray

/-- The fingerprint of content under a sampling rule. -/
def fingerprint (cfg : Sampling) (data : ByteArray) : String :=
  Digest.hexOf (Digest.sha256 (littleEndian64 data.size ++ cfg.sampled data))

theorem sampled_small (cfg : Sampling) (data : ByteArray) (h : data.size < cfg.threshold) :
    cfg.sampled data = data := by
  simp [Sampling.sampled, h]

end ModMirror
