import Mathlib
import ModMirror.Sync.State

/-!
# What a commit leaves behind

A commit writes two files one after the other: the snapshot of the last
applied catalogs, then, when there are removals, the removal manifest. Each
write happens in one step, but the pair does not: a commit that fails on the
manifest (it cannot be read or parsed, or cannot be written) has already
replaced the snapshot. Every outcome of a commit is one of three:

    it succeeds
    it fails with the files as they were
    it fails after the merged snapshot was saved, on the removal manifest
-/

namespace ModMirror

section Steps

variable {ε α β : Type} {t t₁ : FileTree}

theorem estate_bind_ok {σ : Type} {x : EStateM ε σ α} {f : α → EStateM ε σ β} {s s₁ : σ} {a : α}
    (h : x s = .ok a s₁) : (x >>= f) s = f a s₁ := by
  show EStateM.bind x f s = _
  simp only [EStateM.bind, h]

theorem estate_bind_error {σ : Type} {x : EStateM ε σ α} {f : α → EStateM ε σ β} {s s₁ : σ} {e : ε}
    (h : x s = .error e s₁) : (x >>= f) s = .error e s₁ := by
  show EStateM.bind x f s = _
  simp only [EStateM.bind, h]

theorem reading_ok {r : FileTree → Except ε α} {a : α} (h : r t = .ok a) : FileTree.reading r t = .ok a t := by
  simp only [FileTree.reading, h]

theorem reading_error {r : FileTree → Except ε α} {e : ε} (h : r t = .error e) :
    FileTree.reading r t = .error e t := by
  simp only [FileTree.reading, h]

theorem changing_ok {f : FileTree → Except ε FileTree} (h : f t = .ok t₁) :
    FileTree.changing f t = .ok () t₁ := by
  simp only [FileTree.changing, h]

theorem changing_error {f : FileTree → Except ε FileTree} {e : ε} (h : f t = .error e) :
    FileTree.changing f t = .error e t := by
  simp only [FileTree.changing, h]

end Steps

namespace DataDir

variable (d : DataDir) (remote : CatalogSet) (removed : List String)

/-- The three outcomes of a commit. It succeeds; or it fails with the files
as they were; or, with removals to record, it fails after it replaced the
snapshot by the merged one, because the removal manifest could not be read
or could not be written. -/
theorem commit_outcomes (t : FileTree) :
    (∃ t', d.commit remote removed t = .ok () t') ∨
      (∃ e, d.commit remote removed t = .error e t) ∨
      (removed ≠ [] ∧ ∃ e snapshot t₁, d.loadPrevious t = .ok snapshot ∧
        (catalogSetCodec.save t d.previousSync (snapshot.merge remote)).mapError SyncError.fs = .ok t₁ ∧
        d.commit remote removed t = .error e t₁ ∧
        (d.removalManifest t₁ = .error e ∨ ∃ manifest,
          d.removalManifest t₁ = .ok manifest ∧
          (stringListCodec.save t₁ d.removedFiles (appendRemoved manifest removed)).mapError SyncError.fs =
            .error e)) := by
  unfold commit
  -- the snapshot is read first: a failure there leaves the files alone
  cases hload : d.loadPrevious t with
  | error e => exact .inr (.inl ⟨e, estate_bind_error (reading_error hload)⟩)
  | ok snapshot =>
    rw [estate_bind_ok (reading_ok hload)]
    cases hsave : (catalogSetCodec.save t d.previousSync (snapshot.merge remote)).mapError SyncError.fs with
    | error e => exact .inr (.inl ⟨e, estate_bind_error (changing_error (f := fun t =>
        (catalogSetCodec.save t d.previousSync (snapshot.merge remote)).mapError SyncError.fs) hsave)⟩)
    | ok t₁ =>
      rw [estate_bind_ok (changing_ok (f := fun t =>
        (catalogSetCodec.save t d.previousSync (snapshot.merge remote)).mapError SyncError.fs) hsave)]
      -- the snapshot is written; what follows can only fail on the manifest
      cases removed with
      | nil => exact .inl ⟨t₁, rfl⟩
      | cons p ps =>
        rw [List.isEmpty_cons, if_neg Bool.false_ne_true]
        cases hmanifest : d.removalManifest t₁ with
        | error e =>
          exact .inr (.inr ⟨List.cons_ne_nil p ps, e, snapshot, t₁, rfl, hsave,
            estate_bind_error (reading_error hmanifest), .inl hmanifest⟩)
        | ok manifest =>
          rw [estate_bind_ok (reading_ok hmanifest)]
          cases hwrite : (stringListCodec.save t₁ d.removedFiles (appendRemoved manifest (p :: ps))).mapError
              SyncError.fs with
          | error e =>
            exact .inr (.inr ⟨List.cons_ne_nil p ps, e, snapshot, t₁, rfl, hsave,
              by rw [changing_error (f := fun t =>
                  (stringListCodec.save t d.removedFiles (appendRemoved manifest (p :: ps))).mapError SyncError.fs)
                  hwrite],
              .inr ⟨manifest, hmanifest, hwrite⟩⟩)
          | ok t₂ => exact .inl ⟨t₂, changing_ok (f := fun t =>
              (stringListCodec.save t d.removedFiles (appendRemoved manifest (p :: ps))).mapError SyncError.fs)
              hwrite⟩

end DataDir

end ModMirror
