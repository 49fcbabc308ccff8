import Mathlib
import ModMirror.Proofs.SaveLoad
import ModMirror.Proofs.Commit

/-!
# What a successful commit records

A commit merges the remote catalogs into the snapshot and appends the
removals to the manifest. When it succeeds on a well-formed tree below a
plain root, where the snapshot `S` and the manifest `M` loaded, the two
files read back as

    loadPrevious t' = .ok (S.merge remote)
    removalManifest t' = .ok (M ++ freshRemovals M removed)

The merge gives every sync path the remote holds its remote catalog and
keeps the others (`CatalogSet.get_merge`). The fresh removals are those whose
folded key is neither that of an entry of `M` nor that of an earlier
removal, so a manifest without two entries of one folded key keeps none,
commit after commit (`commits_keep_manifest_distinct`).

Both need the tree to be well formed, which rules out links: reads follow
a link, so with the manifest a link to the snapshot, the manifest read after
a commit is the saved snapshot, and it does not parse as a list.
-/

namespace ModMirror

/-! ## Fresh removals -/

/-- The entries of `removed`, in order, whose folded key is neither that of an
entry of `M` nor that of an entry before them. -/
def freshRemovals (M removed : List String) : List String :=
  removed.zipIdx.filterMap fun e =>
    if Path.foldKey e.1 ∈ (M ++ removed.take e.2).map Path.foldKey then none else some e.1

section FreshRemovals

variable {M : List String}

theorem freshRemovals_nil : freshRemovals M [] = [] := rfl

theorem freshRemovals_snoc (rs : List String) (p : String) :
    freshRemovals M (rs ++ [p]) =
      freshRemovals M rs ++ if Path.foldKey p ∈ (M ++ rs).map Path.foldKey then [] else [p] := by
  unfold freshRemovals
  rw [List.zipIdx_append, List.filterMap_append]
  congr 1
  · apply List.filterMap_congr
    intro e he
    have hlt : e.2 < rs.length := by
      have := List.mem_zipIdx he
      omega
    rw [List.take_append_of_le_length hlt.le]
  · simp only [List.zipIdx_singleton, zero_add, List.filterMap_cons, List.filterMap_nil,
      List.take_left']
    split_ifs <;> rfl

theorem keys_freshRemovals (rs : List String) (k : String) :
    k ∈ (M ++ freshRemovals M rs).map Path.foldKey ↔ k ∈ (M ++ rs).map Path.foldKey := by
  induction rs using List.reverseRecOn with
  | nil => rfl
  | append_singleton rs p ih =>
    rw [freshRemovals_snoc]
    by_cases hp : Path.foldKey p ∈ (M ++ rs).map Path.foldKey
    · -- a removal of a known key adds nothing, and its key is there already
      rw [if_pos hp, List.append_nil, ih]
      simp only [List.map_append, List.mem_append, List.map_cons, List.map_nil, List.mem_singleton] at hp ⊢
      constructor
      · rintro (h | h)
        · exact .inl h
        · exact .inr (.inl h)
      · rintro (h | h | rfl)
        · exact .inl h
        · exact .inr h
        · exact hp
    · rw [if_neg hp, ← List.append_assoc, ← List.append_assoc, List.map_append, List.mem_append, ih,
        ← List.mem_append, ← List.map_append]

theorem nodup_keys_freshRemovals (hM : (M.map Path.foldKey).Nodup) (rs : List String) :
    ((M ++ freshRemovals M rs).map Path.foldKey).Nodup := by
  induction rs using List.reverseRecOn with
  | nil => simpa [freshRemovals_nil] using hM
  | append_singleton rs p ih =>
    rw [freshRemovals_snoc]
    split_ifs with hp
    · simpa using ih
    · rw [← List.append_assoc, List.map_append, List.nodup_append]
      refine ⟨ih, List.nodup_singleton _, ?_⟩
      simp only [List.map_cons, List.map_nil, List.mem_singleton]
      rintro k hk _ rfl rfl
      exact hp ((keys_freshRemovals rs _).mp hk)

end FreshRemovals

/-! ## A commit, step by step -/

theorem estate_bind_eq_ok {ε α β σ : Type} {x : EStateM ε σ α} {f : α → EStateM ε σ β} {s s' : σ}
    {b : β} (h : (x >>= f) s = .ok b s') : ∃ a s₁, x s = .ok a s₁ ∧ f a s₁ = .ok b s' := by
  cases hx : x s with
  | ok a s₁ => exact ⟨a, s₁, rfl, (estate_bind_ok (f := f) hx).symm.trans h⟩
  | error e s₁ =>
    rw [estate_bind_error hx] at h
    cases h

theorem estate_bind_eq_error {ε α β σ : Type} {x : EStateM ε σ α} {f : α → EStateM ε σ β} {s s' : σ}
    {e : ε} (h : (x >>= f) s = .error e s') :
    x s = .error e s' ∨ ∃ a s₁, x s = .ok a s₁ ∧ f a s₁ = .error e s' := by
  cases hx : x s with
  | ok a s₁ => exact .inr ⟨a, s₁, rfl, (estate_bind_ok (f := f) hx).symm.trans h⟩
  | error e₁ s₁ =>
    rw [estate_bind_error hx] at h
    cases h
    exact .inl rfl

theorem FileTree.reading_eq_ok {ε α : Type} {r : FileTree → Except ε α} {t t' : FileTree} {a : α}
    (h : FileTree.reading r t = .ok a t') : r t = .ok a ∧ t' = t := by
  unfold FileTree.reading at h
  split at h
  · cases h
    exact ⟨by assumption, rfl⟩
  · cases h

theorem FileTree.changing_eq_ok {ε : Type} {f : FileTree → Except ε FileTree} {t t' : FileTree} {u : Unit}
    (h : FileTree.changing f t = .ok u t') : f t = .ok t' := by
  unfold FileTree.changing at h
  split at h
  · cases h
    assumption
  · cases h

theorem FileTree.reading_eq_error {ε α : Type} {r : FileTree → Except ε α} {t t' : FileTree} {e : ε}
    (h : FileTree.reading r t = .error e t') : t' = t := by
  unfold FileTree.reading at h
  split at h
  · cases h
  · cases h
    rfl

theorem FileTree.changing_eq_error {ε : Type} {f : FileTree → Except ε FileTree} {t t' : FileTree} {e : ε}
    (h : FileTree.changing f t = .error e t') : t' = t := by
  unfold FileTree.changing at h
  split at h
  · cases h
  · cases h
    rfl

namespace DataDir

theorem appendRemoved_eq (M removed : List String) : appendRemoved M removed = M ++ freshRemovals M removed := by
  induction removed using List.reverseRecOn with
  | nil => simp [appendRemoved, freshRemovals_nil]
  | append_singleton rs p ih =>
    have hstep : appendRemoved M (rs ++ [p]) =
        if (appendRemoved M rs).any (fun q => Path.foldKey q == Path.foldKey p) then appendRemoved M rs
        else appendRemoved M rs ++ [p] := by
      unfold appendRemoved
      rw [List.foldl_append]
      rfl
    -- the key test against the growing manifest is the test against the earlier removals
    have hany : (M ++ freshRemovals M rs).any (fun q => Path.foldKey q == Path.foldKey p) = true ↔
        Path.foldKey p ∈ (M ++ rs).map Path.foldKey := by
      rw [← keys_freshRemovals rs, List.any_eq_true, List.mem_map]
      simp only [beq_iff_eq]
    rw [hstep, ih, freshRemovals_snoc]
    by_cases hp : Path.foldKey p ∈ (M ++ rs).map Path.foldKey
    · rw [if_pos (hany.mpr hp), if_pos hp, List.append_nil]
    · rw [if_neg (mt hany.mp hp), if_neg hp, List.append_assoc]

example :
    appendRemoved ["a/old.dll"] ["A/OLD.dll", "b/gone.dll", "B/Gone.dll"] = ["a/old.dll", "b/gone.dll"] := by
  decide

section Steps

variable {d : DataDir} {remote : CatalogSet} {removed : List String} {t t' : FileTree}

/-- A commit that succeeds read the snapshot and saved it merged, and, with
removals, then read the manifest and saved it with the removals appended. -/
theorem commit_eq_ok (h : d.commit remote removed t = .ok () t') :
    ∃ S t₁, d.loadPrevious t = .ok S ∧ catalogSetCodec.save t d.previousSync (S.merge remote) = .ok t₁ ∧
      ((removed = [] ∧ t' = t₁) ∨ ∃ M₁, d.removalManifest t₁ = .ok M₁ ∧
        stringListCodec.save t₁ d.removedFiles (appendRemoved M₁ removed) = .ok t') := by
  unfold commit at h
  obtain ⟨S, t₀, hr, h₁⟩ := estate_bind_eq_ok h
  obtain ⟨hload, rfl⟩ := FileTree.reading_eq_ok hr
  obtain ⟨_, t₁, hc, h₂⟩ := estate_bind_eq_ok h₁
  have hsave := FileTree.changing_eq_ok hc
  beta_reduce at hsave
  refine ⟨S, t₁, hload, mapError_eq_ok.mp hsave, ?_⟩
  cases removed with
  | nil =>
    cases h₂
    exact .inl ⟨rfl, rfl⟩
  | cons p ps =>
    rw [List.isEmpty_cons, if_neg Bool.false_ne_true] at h₂
    obtain ⟨M₁, t₂, hr₂, h₃⟩ := estate_bind_eq_ok h₂
    obtain ⟨hm, rfl⟩ := FileTree.reading_eq_ok hr₂
    have hsave := FileTree.changing_eq_ok h₃
    beta_reduce at hsave
    exact .inr ⟨M₁, hm, mapError_eq_ok.mp hsave⟩

/-- A commit that fails left the files as they were, or failed on the
manifest after it had saved the merged snapshot. -/
theorem commit_eq_error {e : SyncError} (h : d.commit remote removed t = .error e t') :
    t' = t ∨ ∃ S, d.loadPrevious t = .ok S ∧ catalogSetCodec.save t d.previousSync (S.merge remote) = .ok t' := by
  unfold commit at h
  rcases estate_bind_eq_error h with hr | ⟨S, t₀, hr, h₁⟩
  · exact .inl (FileTree.reading_eq_error hr)
  obtain ⟨hload, rfl⟩ := FileTree.reading_eq_ok hr
  rcases estate_bind_eq_error h₁ with hc | ⟨_, t₁, hc, h₂⟩
  · exact .inl (FileTree.changing_eq_error hc)
  have hsave := FileTree.changing_eq_ok hc
  beta_reduce at hsave
  -- past the snapshot every failure is on the manifest, and leaves the tree the save made
  have ht' : t' = t₁ := by
    cases removed with
    | nil => cases h₂
    | cons p ps =>
      rw [List.isEmpty_cons, if_neg Bool.false_ne_true] at h₂
      rcases estate_bind_eq_error h₂ with hr₂ | ⟨M, t₂, hr₂, h₃⟩
      · exact FileTree.reading_eq_error hr₂
      · obtain ⟨-, rfl⟩ := FileTree.reading_eq_ok hr₂
        exact FileTree.changing_eq_error h₃
  exact .inr ⟨S, hload, ht' ▸ mapError_eq_ok.mp hsave⟩

theorem wf_of_loadPrevious {S : CatalogSet} (h : d.loadPrevious t = .ok S) : S.WF := by
  unfold loadPrevious readState Codec.loadIfExists at h
  split at h
  · cases hl : catalogSetCodec.load t d.previousSync with
    | error e => simp [hl, Except.map, Except.mapError] at h
    | ok s =>
      simp only [hl, Except.map, Except.mapError, Option.getD_some, Except.ok.injEq] at h
      obtain ⟨j, rfl⟩ := Codec.load_eq_ok hl
      exact h ▸ CatalogSet.wf_ofJson j
  · simp only [Except.map, Except.mapError, Option.getD_none, Except.ok.injEq] at h
    exact h ▸ CatalogSet.wf_empty

end Steps

theorem plainName_previousSync : PlainName "PreviousSync.json" := by
  decide

theorem plainName_removedFiles : PlainName "RemovedFiles.json" := by
  decide

section Root

variable {bs : List String} (hbs : ∀ n ∈ bs, PlainName n)
include hbs

variable {t t₁ : FileTree} (ht : t.WF)
include ht

/-- Saving a JSON state file of the data directory: it loads back as its
pretty text reads, and another state file loads as before. -/
theorem save_stateFile {α β : Type} {codec : Codec α} (other : Codec β) {n m : String} (hn : PlainName n)
    (hm : PlainName m) (hjson : ConfigFormat.ofPath ⟨n⟩ = .ok .json) (hmn : m ≠ n) (hml : m ≠ n ++ ".lock")
    {v : α} (hback : Json.ReadsBack codec.shape 128 0 (codec.toJson v)) {x : Char} {rest : List Char}
    (hx : x ≠ '\uFEFF') (hstart : (Json.renderPretty (codec.toJson v)).toList = x :: rest)
    (h : codec.save t ((forRoot ⟨nativeOf bs⟩).dir.join n) v = .ok t₁) :
    t₁.WF ∧ codec.loadIfExists t₁ ((forRoot ⟨nativeOf bs⟩).dir.join n) = .ok (some (codec.ofJson (codec.toJson v))) ∧
      other.loadIfExists t₁ ((forRoot ⟨nativeOf bs⟩).dir.join m) =
        other.loadIfExists t ((forRoot ⟨nativeOf bs⟩).dir.join m) := by
  have hp := forRoot_join hbs hn
  obtain ⟨ht₁, hload, hframe⟩ := ht.loadIfExists_save_json (plain_dataDir hbs) hn (congrArg NormalPath.text hp)
    (by rw [hp, ofPath_nativeOf (plain_dataDir hbs) hn, hjson]) hback hx hstart h
  -- the other file is a sibling, neither the saved file nor its lock
  have hkeep := hframe (bs ++ [dataDirName] ++ [m]) (fun hpre => by simpa using hpre.length_le)
    (by simpa using hmn) (by simpa using hml)
  exact ⟨ht₁, hload, ht.loadIfExists_congr (plain_append (plain_dataDir hbs) (by simpa using hm)) ht₁
    (congrArg NormalPath.text (forRoot_join hbs hm)) hkeep⟩

/-- Saving the snapshot: it loads back as its JSON form decodes, and the
manifest reads as before. -/
theorem save_previousSync {s : CatalogSet}
    (h : catalogSetCodec.save t (forRoot ⟨nativeOf bs⟩).previousSync s = .ok t₁) :
    t₁.WF ∧ (forRoot ⟨nativeOf bs⟩).loadPrevious t₁ = .ok (CatalogSet.ofJson s.toJson) ∧
      (forRoot ⟨nativeOf bs⟩).removalManifest t₁ = (forRoot ⟨nativeOf bs⟩).removalManifest t := by
  obtain ⟨rest, hstart⟩ : ∃ rest, (Json.renderPretty (catalogSetCodec.toJson s)).toList = '{' :: rest :=
    toList_renderAt_obj 0 _
  obtain ⟨ht₁, hload, hkeep⟩ := save_stateFile hbs ht stringListCodec plainName_previousSync plainName_removedFiles
    (by decide) (by decide) (by decide) (readsBack_catalogSet s (by norm_num) 0) (by decide) hstart h
  refine ⟨ht₁, ?_, ?_⟩
  · unfold loadPrevious readState
    rw [previousSync, hload]
    rfl
  · unfold removalManifest readState
    rw [removedFiles, hkeep]

theorem save_removedFiles {xs : List String}
    (h : stringListCodec.save t (forRoot ⟨nativeOf bs⟩).removedFiles xs = .ok t₁) :
    t₁.WF ∧ (forRoot ⟨nativeOf bs⟩).removalManifest t₁ = .ok xs ∧
      (forRoot ⟨nativeOf bs⟩).loadPrevious t₁ = (forRoot ⟨nativeOf bs⟩).loadPrevious t := by
  obtain ⟨rest, hstart⟩ : ∃ rest, (Json.renderPretty (stringListCodec.toJson xs)).toList = '[' :: rest :=
    toList_renderAt_arr 0 _
  obtain ⟨ht₁, hload, hkeep⟩ := save_stateFile hbs ht catalogSetCodec plainName_removedFiles plainName_previousSync
    (by decide) (by decide) (by decide) (readsBack_strings _ xs (by norm_num) 0) (by decide) hstart h
  refine ⟨ht₁, ?_, ?_⟩
  · unfold removalManifest readState
    rw [removedFiles, hload, stringListCodec_ofJson_toJson]
    rfl
  · unfold loadPrevious readState
    rw [previousSync, hkeep]

variable {remote : CatalogSet} {removed : List String} {t' : FileTree}

/-- A commit keeps the tree well formed and appends the removals to the
manifest it found. -/
theorem commit_manifest {M : List String} (hM : (forRoot ⟨nativeOf bs⟩).removalManifest t = .ok M)
    (h : (forRoot ⟨nativeOf bs⟩).commit remote removed t = .ok () t') :
    t'.WF ∧ (forRoot ⟨nativeOf bs⟩).removalManifest t' = .ok (appendRemoved M removed) := by
  obtain ⟨S, t₁, -, hsave, hrest⟩ := commit_eq_ok h
  obtain ⟨ht₁, -, hkeep⟩ := save_previousSync hbs ht hsave
  rcases hrest with ⟨rfl, rfl⟩ | ⟨M₁, hM₁, hsave₂⟩
  · -- without removals the manifest is not written
    exact ⟨ht₁, by rw [hkeep, hM]; rfl⟩
  · -- the manifest read after the snapshot was saved is the one found
    rw [hkeep, hM] at hM₁
    cases hM₁
    obtain ⟨ht', hman, -⟩ := save_removedFiles hbs ht₁ hsave₂
    exact ⟨ht', hman⟩

/-- A commit saves the snapshot it found merged with the remote catalogs,
and the manifest save after it leaves the snapshot alone. -/
theorem commit_snapshot (hremote : remote.WF) (h : (forRoot ⟨nativeOf bs⟩).commit remote removed t = .ok () t') :
    ∃ S, (forRoot ⟨nativeOf bs⟩).loadPrevious t = .ok S ∧
      (forRoot ⟨nativeOf bs⟩).loadPrevious t' = .ok (S.merge remote) := by
  obtain ⟨S, t₁, hS, hsave, hrest⟩ := commit_eq_ok h
  obtain ⟨ht₁, hload₁, -⟩ := save_previousSync hbs ht hsave
  have hround : CatalogSet.ofJson (S.merge remote).toJson = S.merge remote :=
    CatalogSet.ofJson_toJson ((wf_of_loadPrevious hS).merge hremote)
  refine ⟨S, hS, ?_⟩
  rcases hrest with ⟨-, rfl⟩ | ⟨M₁, -, hsave₂⟩
  · rw [hload₁, hround]
  · rw [(save_removedFiles hbs ht₁ hsave₂).2.2, hload₁, hround]

/-- What a successful commit leaves: the snapshot found, merged with the
remote catalogs (each sync path the remote holds takes its catalog, the
others keep theirs), reads back through its JSON file; the manifest found
reads back with the fresh removals appended. -/
theorem commit_effect (hremote : remote.WF) {S : CatalogSet} {M : List String}
    (hS : (forRoot ⟨nativeOf bs⟩).loadPrevious t = .ok S) (hM : (forRoot ⟨nativeOf bs⟩).removalManifest t = .ok M)
    (h : (forRoot ⟨nativeOf bs⟩).commit remote removed t = .ok () t') :
    (forRoot ⟨nativeOf bs⟩).loadPrevious t' = .ok (S.merge remote) ∧
      (∀ q, (S.merge remote).get q = (remote.get q).or (S.get q)) ∧
      (forRoot ⟨nativeOf bs⟩).removalManifest t' = .ok (M ++ freshRemovals M removed) := by
  obtain ⟨S', hS', hsnap⟩ := commit_snapshot hbs ht hremote h
  rw [hS] at hS'
  cases hS'
  refine ⟨hsnap, CatalogSet.get_merge S hremote, ?_⟩
  rw [← appendRemoved_eq]
  exact (commit_manifest hbs ht hM h).2

/-- Commit after commit, a manifest that lists no folded key twice keeps
listing none twice. -/
theorem commits_keep_manifest_distinct (runs : List (CatalogSet × List String)) {M : List String}
    (hM : (forRoot ⟨nativeOf bs⟩).removalManifest t = .ok M) (hnd : (M.map Path.foldKey).Nodup)
    (h : (runs.forM fun r => (forRoot ⟨nativeOf bs⟩).commit r.1 r.2) t = .ok () t') :
    ∃ M', (forRoot ⟨nativeOf bs⟩).removalManifest t' = .ok M' ∧ (M'.map Path.foldKey).Nodup := by
  -- induction on the commits; the invariant is the well-formed tree and a distinct manifest
  induction runs generalizing t M with
  | nil =>
    cases h
    exact ⟨M, hM, hnd⟩
  | cons r rs ih =>
    obtain ⟨_, t₁, h₁, hrest⟩ := estate_bind_eq_ok h
    obtain ⟨ht₁, hM₁⟩ := commit_manifest hbs ht hM h₁
    refine ih ht₁ hM₁ ?_ hrest
    rw [appendRemoved_eq]
    exact nodup_keys_freshRemovals hnd r.2

end Root

end DataDir

/-! ## An install at the root of the tree -/

/-- Where the snapshot of an install at the root lies, and what its reads and
writes compute from that path. -/
theorem previousSync_atRoot :
    (DataDir.forRoot ⟨nativeOf []⟩).previousSync = ⟨"$ROOT/ModSync_Data/PreviousSync.json"⟩ ∧
      ConfigFormat.ofPath ⟨"$ROOT/ModSync_Data/PreviousSync.json"⟩ = .ok .json ∧
      FileTree.parentText "$ROOT/ModSync_Data/PreviousSync.json" = some "$ROOT/ModSync_Data" ∧
      lockPathOf "$ROOT/ModSync_Data/PreviousSync.json" = "$ROOT/ModSync_Data/PreviousSync.json.lock" ∧
      namesOf "$ROOT/ModSync_Data" = some ["ModSync_Data"] ∧
      namesOf "$ROOT/ModSync_Data/PreviousSync.json" = some ["ModSync_Data", "PreviousSync.json"] ∧
      namesOf "$ROOT/ModSync_Data/PreviousSync.json.lock" = some ["ModSync_Data", "PreviousSync.json.lock"] := by
  decide

theorem removedFiles_atRoot :
    (DataDir.forRoot ⟨nativeOf []⟩).removedFiles = ⟨"$ROOT/ModSync_Data/RemovedFiles.json"⟩ ∧
      ConfigFormat.ofPath ⟨"$ROOT/ModSync_Data/RemovedFiles.json"⟩ = .ok .json ∧
      FileTree.parentText "$ROOT/ModSync_Data/RemovedFiles.json" = some "$ROOT/ModSync_Data" ∧
      lockPathOf "$ROOT/ModSync_Data/RemovedFiles.json" = "$ROOT/ModSync_Data/RemovedFiles.json.lock" ∧
      namesOf "$ROOT/ModSync_Data" = some ["ModSync_Data"] ∧
      namesOf "$ROOT/ModSync_Data/RemovedFiles.json" = some ["ModSync_Data", "RemovedFiles.json"] ∧
      namesOf "$ROOT/ModSync_Data/RemovedFiles.json.lock" = some ["ModSync_Data", "RemovedFiles.json.lock"] := by
  decide

/-! ### A fresh install -/

/-- The tree after the first snapshot of a fresh install: the data directory,
the lock and the snapshot. -/
theorem savePrevious_fresh (s : CatalogSet) :
    catalogSetCodec.save (FileTree.mk []) (DataDir.forRoot ⟨nativeOf []⟩).previousSync s =
      .ok ⟨[(["ModSync_Data"], .dir), (["ModSync_Data", "PreviousSync.json.lock"], .file ByteArray.empty),
        (["ModSync_Data", "PreviousSync.json"], .file (Json.renderPretty s.toJson).toUTF8)]⟩ := by
  obtain ⟨hp, hf, hpar, hlock, hn1, hn2, hn3⟩ := previousSync_atRoot
  simp +decide [List.lookup, Codec.save, hp, hf, Codec.render, writeAtomic, ensureParent, hpar,
    FileTree.createDirAll, FileTree.createDirAll.go, FileTree.createDir, FileTree.resolve, hn1, hn2, hn3, hlock,
    FileTree.walk, FileTree.find?, FileTree.parentIsDir, FileTree.put, touch, FileTree.metadata, FileTree.writeFile,
    replaceContent, bind, Except.bind, pure, Except.pure, Except.mapError, throw, throwThe, MonadExceptOf.throw]
  rfl

theorem saveRemoved_afterPrevious (text : String) (xs : List String) :
    stringListCodec.save ⟨[(["ModSync_Data"], .dir), (["ModSync_Data", "PreviousSync.json.lock"], .file ByteArray.empty),
        (["ModSync_Data", "PreviousSync.json"], .file text.toUTF8)]⟩ (DataDir.forRoot ⟨nativeOf []⟩).removedFiles xs =
      .ok ⟨[(["ModSync_Data"], .dir), (["ModSync_Data", "PreviousSync.json.lock"], .file ByteArray.empty),
        (["ModSync_Data", "PreviousSync.json"], .file text.toUTF8),
        (["ModSync_Data", "RemovedFiles.json.lock"], .file ByteArray.empty),
        (["ModSync_Data", "RemovedFiles.json"], .file (Json.renderPretty (Json.ofStrings xs)).toUTF8)]⟩ := by
  obtain ⟨hp, hf, hpar, hlock, hn1, hn2, hn3⟩ := removedFiles_atRoot
  simp +decide [List.lookup, Codec.save, hp, hf, Codec.render, writeAtomic, ensureParent, hpar,
    FileTree.createDirAll, FileTree.createDirAll.go, FileTree.createDir, FileTree.resolve, hn1, hn2, hn3, hlock,
    FileTree.walk, FileTree.find?, FileTree.isDir, FileTree.parentIsDir, FileTree.put, touch, FileTree.metadata,
    FileTree.writeFile, replaceContent, bind, Except.bind, pure, Except.pure, Except.mapError, throw, throwThe, MonadExceptOf.throw]
  rfl

theorem removalManifest_fresh : (DataDir.forRoot ⟨nativeOf []⟩).removalManifest (FileTree.mk []) = .ok [] := by
  obtain ⟨hp, -, -, -, -, hn, -⟩ := removedFiles_atRoot
  simp [DataDir.removalManifest, DataDir.readState, Codec.loadIfExists, hp, FileTree.pathExists, FileTree.metadata,
    FileTree.resolve, hn, FileTree.walk, FileTree.find?, bind, Except.bind, Except.toBool, Except.mapError, Except.map]

/-- The catalogs of a first commit: a sync path with one file, and an empty one. -/
def twoPathRemote : CatalogSet :=
  (CatalogSet.empty.add "a" (PathCatalog.empty.add "a/1" (FileRecord.file "h"))).add "b" PathCatalog.empty

theorem twoPathRemote_wf : twoPathRemote.WF :=
  (CatalogSet.wf_empty.add "a" (PathCatalog.wf_empty.add "a/1" _)).add "b" PathCatalog.wf_empty

theorem wf_fresh : (FileTree.mk []).WF := ⟨List.nodup_nil, by simp, by simp, by simp⟩

theorem commit_fresh_install :
    ∃ t', (DataDir.forRoot ⟨nativeOf []⟩).commit twoPathRemote ["a/old.dll", "A/OLD.dll"] (FileTree.mk []) =
      .ok () t' := by
  have h1 := savePrevious_fresh (({} : CatalogSet).merge twoPathRemote)
  have hbs : ∀ n ∈ ([] : List String), PlainName n := by simp
  have hM := (DataDir.save_previousSync hbs wf_fresh h1).2.2.trans removalManifest_fresh
  have h2 := saveRemoved_afterPrevious (Json.renderPretty (({} : CatalogSet).merge twoPathRemote).toJson)
    (DataDir.appendRemoved [] ["a/old.dll", "A/OLD.dll"])
  refine ⟨?_, ?_⟩
  rotate_left
  unfold DataDir.commit
  rw [estate_bind_ok (reading_ok loadPrevious_fresh), estate_bind_ok (changing_ok (f := fun t =>
    (catalogSetCodec.save t (DataDir.forRoot ⟨nativeOf []⟩).previousSync (({} : CatalogSet).merge twoPathRemote)).mapError
      SyncError.fs) (by rw [h1]; rfl)), List.isEmpty_cons, if_neg Bool.false_ne_true, estate_bind_ok (reading_ok hM)]
  exact changing_ok (by rw [h2]; rfl)

/-- The commit of a fresh install, read back. -/
theorem commit_effect_fresh_install :
    ∃ t', (DataDir.forRoot ⟨nativeOf []⟩).commit twoPathRemote ["a/old.dll", "A/OLD.dll"] (FileTree.mk []) = .ok () t' ∧
      (DataDir.forRoot ⟨nativeOf []⟩).loadPrevious t' = .ok (({} : CatalogSet).merge twoPathRemote) ∧
      (∀ q, (({} : CatalogSet).merge twoPathRemote).get q = (twoPathRemote.get q).or (({} : CatalogSet).get q)) ∧
      (DataDir.forRoot ⟨nativeOf []⟩).removalManifest t' = .ok ([] ++ freshRemovals [] ["a/old.dll", "A/OLD.dll"]) := by
  obtain ⟨t', h⟩ := commit_fresh_install
  exact ⟨t', h, DataDir.commit_effect (by simp) wf_fresh twoPathRemote_wf loadPrevious_fresh removalManifest_fresh h⟩

/-! ### A manifest that is a link to the snapshot

Reads and writes follow links, and nothing checks that the two state files
are distinct. -/

/-- A data directory whose manifest is a link to the snapshot, which does not
exist yet. -/
def manifestLinkedToSnapshot : FileTree :=
  ⟨[(["ModSync_Data"], .dir), (["ModSync_Data", "RemovedFiles.json"], .link "PreviousSync.json")]⟩

/-- That tree once a snapshot with the given text has been saved. -/
def manifestLinkedToSaved (text : String) : FileTree :=
  ⟨manifestLinkedToSnapshot.entries ++ [(["ModSync_Data", "PreviousSync.json.lock"], .file ByteArray.empty),
    (["ModSync_Data", "PreviousSync.json"], .file text.toUTF8)]⟩

theorem targetNames_previousSync : FileTree.targetNames "PreviousSync.json" = some (false, ["PreviousSync.json"]) := by
  simp +decide [FileTree.targetNames, String.splitOn, String.splitOnAux]

theorem loadPrevious_linkedToSnapshot :
    (DataDir.forRoot ⟨nativeOf []⟩).loadPrevious manifestLinkedToSnapshot = .ok {} := by
  obtain ⟨hp, -, -, -, -, hn, -⟩ := previousSync_atRoot
  simp [manifestLinkedToSnapshot, DataDir.loadPrevious, DataDir.readState, Codec.loadIfExists, hp,
    FileTree.pathExists, FileTree.metadata, FileTree.resolve, hn, FileTree.walk, FileTree.find?, List.lookup, bind,
    Except.bind, Except.toBool, Except.mapError, Except.map]

theorem removalManifest_linkedToSnapshot :
    (DataDir.forRoot ⟨nativeOf []⟩).removalManifest manifestLinkedToSnapshot = .ok [] := by
  obtain ⟨hp, -, -, -, -, hn, -⟩ := removedFiles_atRoot
  simp [manifestLinkedToSnapshot, DataDir.removalManifest, DataDir.readState, Codec.loadIfExists, hp,
    FileTree.pathExists, FileTree.metadata, FileTree.resolve, hn, targetNames_previousSync, FileTree.walk,
    FileTree.find?, List.lookup, bind, Except.bind, Except.toBool, Except.mapError, Except.map]

theorem savePrevious_linkedToSnapshot (s : CatalogSet) :
    catalogSetCodec.save manifestLinkedToSnapshot (DataDir.forRoot ⟨nativeOf []⟩).previousSync s =
      .ok (manifestLinkedToSaved (Json.renderPretty s.toJson)) := by
  obtain ⟨hp, hf, hpar, hlock, hn1, hn2, hn3⟩ := previousSync_atRoot
  simp +decide [manifestLinkedToSnapshot, manifestLinkedToSaved, List.lookup, Codec.save, hp, hf, Codec.render,
    writeAtomic, ensureParent, hpar, FileTree.createDirAll, FileTree.createDirAll.go, FileTree.createDir,
    FileTree.resolve, hn1, hn2, hn3, hlock, FileTree.walk, FileTree.find?, FileTree.isDir, FileTree.parentIsDir,
    FileTree.put, touch, FileTree.metadata, FileTree.writeFile, replaceContent, bind, Except.bind, pure, Except.pure,
    Except.mapError, throw, throwThe, MonadExceptOf.throw]
  rfl

theorem commit_linkedToSnapshot :
    (DataDir.forRoot ⟨nativeOf []⟩).commit {} [] manifestLinkedToSnapshot = .ok () (manifestLinkedToSaved "{}") := by
  have hrender : Json.renderPretty (({} : CatalogSet).merge {}).toJson = "{}" := by decide
  have hsave := savePrevious_linkedToSnapshot (({} : CatalogSet).merge {})
  rw [hrender] at hsave
  unfold DataDir.commit
  rw [estate_bind_ok (reading_ok loadPrevious_linkedToSnapshot), estate_bind_ok (changing_ok (f := fun t =>
    (catalogSetCodec.save t (DataDir.forRoot ⟨nativeOf []⟩).previousSync (({} : CatalogSet).merge {})).mapError
      SyncError.fs) (by rw [hsave]; rfl)), List.isEmpty_nil, if_pos rfl]
  rfl

/-- Read through the link, the saved snapshot is an object where a list of
paths is expected. -/
theorem removalManifest_linkedToSaved :
    (DataDir.forRoot ⟨nativeOf []⟩).removalManifest (manifestLinkedToSaved "{}") =
      .error (.malformedState "$ROOT/ModSync_Data/RemovedFiles.json"
        "invalid type: map, expected a sequence at line 1 column 0") := by
  obtain ⟨hp, hf, -, -, -, hn, -⟩ := removedFiles_atRoot
  have hu : String.fromUTF8? "{}".toByteArray = some "{}" := Json.fromUTF8?_toUTF8 _
  have hl : "{}".toList = ['{', '}'] := by decide
  have hr : Json.readText stringListCodec.shape "{}" =
      .error ⟨"invalid type: map, expected a sequence", some (1, 0)⟩ := by
    cbv
  simp [manifestLinkedToSaved, manifestLinkedToSnapshot, DataDir.removalManifest, DataDir.readState,
    Codec.loadIfExists, hp, hf, FileTree.pathExists, FileTree.metadata, FileTree.resolve, hn, targetNames_previousSync,
    FileTree.walk, FileTree.find?, List.lookup, bind, Except.bind, Except.toBool, Except.mapError, Except.map,
    Codec.load, readText, FileTree.readFile, hu, hl, Codec.parse, hr, pure, Except.pure, Json.ReadError.text,
    malformed]
  decide

/-- With the manifest a link to the snapshot, the snapshot and the manifest
both load, and a commit succeeds; but the manifest read after it is the
snapshot just saved, and it no longer loads. -/
theorem commit_effect_fails_through_manifest_link :
    (DataDir.forRoot ⟨nativeOf []⟩).loadPrevious manifestLinkedToSnapshot = .ok {} ∧
      (DataDir.forRoot ⟨nativeOf []⟩).removalManifest manifestLinkedToSnapshot = .ok [] ∧
      ∃ t', (DataDir.forRoot ⟨nativeOf []⟩).commit {} [] manifestLinkedToSnapshot = .ok () t' ∧
        (DataDir.forRoot ⟨nativeOf []⟩).removalManifest t' =
          .error (.malformedState "$ROOT/ModSync_Data/RemovedFiles.json"
            "invalid type: map, expected a sequence at line 1 column 0") :=
  ⟨loadPrevious_linkedToSnapshot, removalManifest_linkedToSnapshot, _, commit_linkedToSnapshot,
    removalManifest_linkedToSaved⟩

end ModMirror
