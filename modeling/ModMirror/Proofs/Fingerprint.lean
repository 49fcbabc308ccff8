import Mathlib
import ModMirror.Fs.Hash

/-!
# Fingerprints of files and of bytes

A hasher built by the API (the default one, then `withSampling` and
`withRetry` in any order) keeps its window between one byte and its threshold
(`Built.fits`). For content at least a threshold long, every window at a
sample offset then lies inside the content, and the first and the last
`window` bytes are among the windows; so slicing them never runs past the end,
and no end overflows 64 bits.

A file is fingerprinted from the length its metadata reports: below the
threshold by one whole read, above it by three reads that must fill their
window. For a hasher whose window fits, both feed the digest the bytes that
fingerprinting the content in memory feeds it (`hashOpened_content`), so

    h.Built → t.readFile p = .ok d → h.hashFile t p = .ok (h.hashBytes d)
-/

namespace ModMirror

/-! ## Hashers the API builds -/

/-- A sampling rule whose window is at least one byte and at most the threshold. -/
structure Sampling.Fits (cfg : Sampling) : Prop where
  window_pos : 0 < cfg.window
  window_le : cfg.window ≤ cfg.threshold

namespace ContentHasher

/-- The hashers the API builds: the default one, then `withSampling` and
`withRetry` in any order. -/
inductive Built : ContentHasher → Prop
  | new : Built ContentHasher.new
  | withSampling {h : ContentHasher} (threshold window : Nat) :
      Built h → Built (h.withSampling threshold window)
  | withRetry {h : ContentHasher} (retry : RetryPolicy) : Built h → Built (h.withRetry retry)

end ContentHasher

namespace Sampling

theorem fits_default : ({} : Sampling).Fits := ⟨by decide, by decide⟩

theorem fits_of (threshold window : Nat) : (Sampling.of threshold window).Fits := by
  constructor <;> simp only [Sampling.of] <;> omega

/-- For content at least a window long, every window at a sample offset ends
inside the content. -/
theorem offset_add_window_le {cfg : Sampling} {len : Nat} (hw : cfg.window ≤ len) :
    ∀ o ∈ cfg.offsets len, o + cfg.window ≤ len := by
  intro o ho
  simp only [offsets, List.mem_cons, List.not_mem_nil, or_false] at ho
  rcases ho with rfl | rfl | rfl <;> omega

theorem head_tail_mem_offsets (cfg : Sampling) (len : Nat) :
    0 ∈ cfg.offsets len ∧ len - cfg.window ∈ cfg.offsets len := by
  simp [offsets]

end Sampling

/-- Every hasher the API builds has a window that fits its threshold: only
`withSampling` changes the rule, and it clamps in the right order. -/
theorem ContentHasher.Built.fits {h : ContentHasher} (hb : h.Built) : h.sampling.Fits := by
  induction hb with
  | new => exact Sampling.fits_default
  | withSampling threshold window _ _ => exact Sampling.fits_of threshold window
  | withRetry _ _ ih => exact ih

/-- Sampling stays in bounds: a hasher the API builds has a window of at least
one byte and at most its threshold, and for content of any length at least
the threshold every sampled window `[o, o + window)` lies inside the content,
its end below `2^64` when the length is, and the windows take in the first
and the last `window` bytes. -/
theorem ContentHasher.Built.windows_in_bounds {h : ContentHasher} (hb : h.Built) :
    1 ≤ h.sampling.window ∧ h.sampling.window ≤ h.sampling.threshold ∧
    ∀ len, h.sampling.threshold ≤ len →
      (∀ o ∈ h.sampling.offsets len,
        o + h.sampling.window ≤ len ∧ (len < 2 ^ 64 → o + h.sampling.window < 2 ^ 64)) ∧
      0 ∈ h.sampling.offsets len ∧ len - h.sampling.window ∈ h.sampling.offsets len ∧
      len - h.sampling.window + h.sampling.window = len := by
  have hf := hb.fits
  refine ⟨hf.window_pos, hf.window_le, fun len hlen => ?_⟩
  have hw : h.sampling.window ≤ len := hf.window_le.trans hlen
  obtain ⟨hhead, htail⟩ := h.sampling.head_tail_mem_offsets len
  refine ⟨fun o ho => ?_, hhead, htail, by omega⟩
  have hend := Sampling.offset_add_window_le hw o ho
  exact ⟨hend, fun hlt => lt_of_le_of_lt hend hlt⟩

/-- A hasher given a tiny threshold and an oversized window: both are clamped. -/
theorem windows_in_bounds_clamped :
    (ContentHasher.new.withSampling 0 100).Built ∧
    1 ≤ (ContentHasher.new.withSampling 0 100).sampling.window ∧
    (ContentHasher.new.withSampling 0 100).sampling.window ≤
      (ContentHasher.new.withSampling 0 100).sampling.threshold ∧
    ∀ len, (ContentHasher.new.withSampling 0 100).sampling.threshold ≤ len →
      (∀ o ∈ (ContentHasher.new.withSampling 0 100).sampling.offsets len,
        o + (ContentHasher.new.withSampling 0 100).sampling.window ≤ len ∧
          (len < 2 ^ 64 → o + (ContentHasher.new.withSampling 0 100).sampling.window < 2 ^ 64)) ∧
      0 ∈ (ContentHasher.new.withSampling 0 100).sampling.offsets len ∧
      len - (ContentHasher.new.withSampling 0 100).sampling.window ∈
        (ContentHasher.new.withSampling 0 100).sampling.offsets len ∧
      len - (ContentHasher.new.withSampling 0 100).sampling.window +
        (ContentHasher.new.withSampling 0 100).sampling.window = len :=
  have hb : (ContentHasher.new.withSampling 0 100).Built := .withSampling 0 100 .new
  ⟨hb, ContentHasher.Built.windows_in_bounds hb⟩

/-! ## Reading windows -/

theorem readExactAt_of_le {content : ByteArray} {off n : Nat} (h : off + n ≤ content.size) :
    readExactAt content off n = .ok (content.extract off (off + n)) := by
  simp [readExactAt, h]

theorem foldl_append_pieces (f : Nat → ByteArray) :
    ∀ (offs : List Nat) (a : ByteArray),
      offs.foldl (fun acc off => acc ++ f off) a = a ++ offs.foldl (fun acc off => acc ++ f off) ByteArray.empty
  | [], a => by simp [ByteArray.append_empty]
  | o :: offs, a => by
    simp only [List.foldl_cons, ByteArray.empty_append]
    rw [foldl_append_pieces f offs (a ++ f o), foldl_append_pieces f offs (f o), ByteArray.append_assoc]

/-- Windows that lie inside the content are read as they are sliced: feeding
them one after the other feeds their concatenation. -/
theorem foldlM_feedWindow {content : ByteArray} {n : Nat} (p : String) :
    ∀ (offs : List Nat) (st : Digest.Sha256Stream), (∀ o ∈ offs, o + n ≤ content.size) →
      offs.foldlM (ContentHasher.feedWindow p content n) st =
        .ok (st.update (offs.foldl (fun acc off => acc ++ content.extract off (off + n)) ByteArray.empty))
  | [], st, _ => by simp [pure, Except.pure]
  | o :: offs, st, hin => by
    have hread : ContentHasher.feedWindow p content n st o = .ok (st.update (content.extract o (o + n))) := by
      simp [ContentHasher.feedWindow, readExactAt_of_le (hin o (List.mem_cons_self ..)), Except.mapError,
        bind, Except.bind, pure, Except.pure]
    have hrest := foldlM_feedWindow p offs (st.update (content.extract o (o + n)))
      (fun o' ho' => hin o' (List.mem_cons_of_mem _ ho'))
    rw [List.foldlM_cons, hread]
    simp only [bind, Except.bind, hrest, Digest.Sha256Stream.update_update, List.foldl_cons,
      ByteArray.empty_append]
    rw [foldl_append_pieces _ offs (content.extract o (o + n))]

/-- Content read from a file whose metadata reported its own length is
fingerprinted as in memory: by one whole read below the threshold, by three
window reads above it. -/
theorem hashOpened_content {h : ContentHasher} (hw : h.sampling.window ≤ h.sampling.threshold)
    (p : String) (d : ByteArray) : h.hashOpened p d.size d = .ok (h.hashBytes d) := by
  unfold ContentHasher.hashOpened ContentHasher.hashBytes fingerprint
  by_cases hsmall : d.size < h.sampling.threshold
  · -- the whole read finds the length the metadata reported
    simp [hsmall, sampled_small, Digest.Sha256Stream.finalize, Digest.Sha256Stream.update, ByteArray.empty_append]
  · have hlen : h.sampling.window ≤ d.size := by omega
    have hfeed := foldlM_feedWindow p (h.sampling.offsets d.size)
      (({} : Digest.Sha256Stream).update (littleEndian64 d.size)) (Sampling.offset_add_window_le hlen)
    simp only [hsmall, if_false, hfeed, bind, Except.bind, pure, Except.pure]
    simp [hsmall, Sampling.sampled, Digest.Sha256Stream.finalize, Digest.Sha256Stream.update,
      ByteArray.empty_append]

/-! ## Files -/

/-- A path that reads as a file has the file's length as its metadata: both
resolve the path the same way, links followed. -/
theorem FileTree.metadata_of_readFile {t : FileTree} {p : String} {d : ByteArray}
    (h : t.readFile p = .ok d) : t.metadata p = .ok (.file d.size) := by
  unfold FileTree.readFile at h
  unfold FileTree.metadata
  cases hr : t.resolve p true with
  | error e => simp [hr, bind, Except.bind] at h
  | ok r =>
    simp only [hr, bind, Except.bind] at h ⊢
    cases hf : t.find? r with
    | none => simp [hf, throw, throwThe, MonadExceptOf.throw] at h
    | some n =>
      cases n with
      | file d' =>
        simp [hf, pure, Except.pure] at h ⊢
        rw [h]
      | dir => simp [hf, throw, throwThe, MonadExceptOf.throw] at h
      | link target => simp [hf, throw, throwThe, MonadExceptOf.throw] at h

theorem RetryPolicy.run_of_ok {α : Type} (pol : RetryPolicy) {op : Nat → Except FsError α} {a : α}
    (h : op 0 = .ok a) : (pol.run op).1 = .ok a := by
  simp [RetryPolicy.run, RetryPolicy.run.go, h]

theorem ContentHasher.hashOnce_of_readFile {h : ContentHasher} (hw : h.sampling.window ≤ h.sampling.threshold)
    {t : FileTree} {p : String} {d : ByteArray} (hd : t.readFile p = .ok d) :
    h.hashOnce t p = .ok (h.hashBytes d) := by
  simp only [hashOnce, FileTree.metadata_of_readFile hd, hd]
  exact hashOpened_content hw p d

theorem ContentHasher.hashFile_of_readFile {h : ContentHasher} (hw : h.sampling.window ≤ h.sampling.threshold)
    {t : FileTree} {p : String} {d : ByteArray} (hd : t.readFile p = .ok d) :
    h.hashFile t p = .ok (h.hashBytes d) :=
  RetryPolicy.run_of_ok h.retry (hashOnce_of_readFile hw hd)

/-- A file fingerprints as its bytes do in memory: for every hasher the API
builds and every path that reads as a regular file with bytes `d` (links
followed), whether the file is read whole or as three windows. -/
theorem ContentHasher.Built.hashFile_eq_hashBytes {h : ContentHasher} (hb : h.Built) {t : FileTree}
    {p : String} {d : ByteArray} (hd : t.readFile p = .ok d) : h.hashFile t p = .ok (h.hashBytes d) :=
  hashFile_of_readFile hb.fits.window_le hd

/-- A tree holding one file of ten bytes. -/
def tenByteTree : FileTree := ⟨[(["big.bin"], .file ⟨#[0, 1, 2, 3, 4, 5, 6, 7, 8, 9]⟩)]⟩

/-- Sampling from four bytes on, the ten bytes are read as three windows of two. -/
theorem hashFile_eq_hashBytes_windows :
    ((ContentHasher.new.withSampling 4 2).withRetry .never).Built ∧
    tenByteTree.readFile "$ROOT/big.bin" = .ok ⟨#[0, 1, 2, 3, 4, 5, 6, 7, 8, 9]⟩ ∧
    ((ContentHasher.new.withSampling 4 2).withRetry .never).hashFile tenByteTree "$ROOT/big.bin" =
      .ok (((ContentHasher.new.withSampling 4 2).withRetry .never).hashBytes ⟨#[0, 1, 2, 3, 4, 5, 6, 7, 8, 9]⟩) := by
  have hb : ((ContentHasher.new.withSampling 4 2).withRetry .never).Built := .withRetry _ (.withSampling 4 2 .new)
  have hr : tenByteTree.readFile "$ROOT/big.bin" = .ok ⟨#[0, 1, 2, 3, 4, 5, 6, 7, 8, 9]⟩ := by cbv
  exact ⟨hb, hr, hb.hashFile_eq_hashBytes hr⟩

end ModMirror
