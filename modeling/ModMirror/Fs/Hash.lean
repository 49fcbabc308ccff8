import ModMirror.Fs.Tree
import ModMirror.Fs.Retry
import ModMirror.Fingerprint

/-!
# Fingerprinting files

A content hasher fingerprints a file from the length its metadata reports.
Content below the sampling threshold is read to its end and fed to the digest
whole; larger content is read as three windows at the sample offsets, each by
a seek and a read that must fill the window. Links are followed, a directory
is refused, and reads that fail because the file is busy are retried under the
hasher's policy. Hashers are built from the default one by `withSampling` and
`withRetry`; for every hasher so built, a file fingerprints as its bytes do in
memory:

    hashFile h t p = .ok (h.hashBytes d)   when p holds the file bytes d
-/

namespace ModMirror

/-- Computes fingerprints of files. -/
structure ContentHasher where
  sampling : Sampling := {}
  retry : RetryPolicy := RetryPolicy.standard
  deriving DecidableEq, Repr

/-- Reads exactly `n` bytes from offset `off` of a file's content: a seek, then
a read that must fill its buffer. -/
def readExactAt (content : ByteArray) (off n : Nat) : Except IoError ByteArray :=
  if off + n ≤ content.size then .ok (content.extract off (off + n))
  else .error (.custom .unexpectedEof "failed to fill whole buffer")

namespace ContentHasher

def new : ContentHasher := {}

/-- The hasher with another sampling rule, clamped as `Sampling.of` clamps it. -/
def withSampling (h : ContentHasher) (threshold window : Nat) : ContentHasher :=
  { h with sampling := Sampling.of threshold window }

def withRetry (h : ContentHasher) (retry : RetryPolicy) : ContentHasher := { h with retry }

def hashBytes (h : ContentHasher) (data : ByteArray) : String := fingerprint h.sampling data

/-- Reads the window of `n` bytes at `off` of the file `p` and feeds it to the digest. -/
def feedWindow (p : String) (content : ByteArray) (n : Nat) (st : Digest.Sha256Stream) (off : Nat) :
    Except FsError Digest.Sha256Stream := do
  let window ← (readExactAt content off n).mapError (.io p)
  pure (st.update window)

/-- Fingerprints the content of an open file whose metadata reported `len`
bytes. Content that a whole read finds of another length is fingerprinted as
it was read. -/
def hashOpened (h : ContentHasher) (p : String) (len : Nat) (content : ByteArray) : Except FsError String :=
  let start := ({} : Digest.Sha256Stream).update (littleEndian64 len)
  if len < h.sampling.threshold then
    if content.size ≠ len then .ok (h.hashBytes content)
    else .ok (Digest.hexOf (start.update content).finalize)
  else do
    let st ← (h.sampling.offsets len).foldlM (feedWindow p content h.sampling.window) start
    pure (Digest.hexOf st.finalize)

/-- One attempt at fingerprinting a file. -/
def hashOnce (h : ContentHasher) (t : FileTree) (p : String) : Except FsError String :=
  match t.metadata p with
  | .error e => .error (.io p e)
  | .ok .dir => .error (.invalidPath p "directories are not hashed")
  | .ok kind =>
    -- the length the metadata reports; links are followed, so only a file has one
    let len := match kind with
      | .file n => n
      | _ => 0
    match t.readFile p with
    | .ok content => h.hashOpened p len content
    | .error e => .error (.io p e)

/-- The fingerprint of a file, retrying transient failures. -/
def hashFile (h : ContentHasher) (t : FileTree) (p : String) : Except FsError String :=
  (h.retry.run fun _ => h.hashOnce t p).1

end ContentHasher

end ModMirror
