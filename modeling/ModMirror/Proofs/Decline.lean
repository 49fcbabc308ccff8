import Mathlib
import ModMirror.Proofs.Containment
import ModMirror.Proofs.CommitEffect
import ModMirror.Proofs.ApplyProgress

/-!
# Declining keeps the snapshot of the optional paths

A decline keeps only the enforced part of a plan set (`PlanSet.enforcedOnly`):
the optional plans are emptied and their remote catalogs dropped. With nothing
enforced left it is one step to idle; otherwise it applies that part.

What the applied part can do to the snapshot, the catalogs of the last sync,
is read through one invariant of the install (`SnapshotKept`): the files stay
well formed with the root a directory, and the snapshot reads as before for
every sync path that the committed catalogs lack. Each step of an apply keeps
it. Taking the lock and clearing the staging directory leave the snapshot
file alone; a download changes only its own path and its missing parents; a
commit merges the committed catalogs into the snapshot and keeps the rest.
Steps are put together by one rule for each kind of step (`Maintains`).

A server may list, under an enforced path, a file whose path is that of the
snapshot; downloaded in place, it replaces the snapshot before the commit
reads it back, and the optional catalogs it held are lost
(`decline_loses_optional_snapshot`). The statement therefore asks that no
enforced download or directory lands there (`SyncPlan.SparesSnapshot`):

    for every optional spec u of the plan,
      (loadPrevious (decline r plans s).tree).map (·.get u.path)
        = (loadPrevious s.tree).map (·.get u.path)           (decline_applies_only_enforced)
-/

namespace ModMirror

namespace FileTree

section Frames

variable {t t' : FileTree} (ht : t.WF) {D E : List String} (hD : ∀ n ∈ D, PlainName n)
include ht hD

/-- Writing a file changes nothing but its path and its missing parents: a
path that is no prefix of it holds what it held. -/
theorem WF.replaceFile_frame (hne : D ≠ []) {c : ByteArray} (h : replaceFile t (nativeOf D) c = .ok t')
    (hE : ¬ E <+: D) : t'.find? E = t.find? E := by
  obtain ⟨D', m, rfl⟩ := (List.eq_nil_or_concat D).resolve_left hne
  rw [List.concat_eq_append] at hD h hE
  have hD' : ∀ x ∈ D', PlainName x := fun x hx => hD x (List.mem_append_left _ hx)
  unfold replaceFile ensureParent at h
  rw [parentText_nativeOf_snoc hD' (hD m (by simp))] at h
  cases h1 : createDirAll t (nativeOf D') with
  | error e => simp [h1, Except.mapError, bind, Except.bind] at h
  | ok t1 =>
    have ht1 := (ht.createDirAll_go hD' _ h1).1
    simp only [h1, Except.mapError, bind, Except.bind] at h
    obtain ⟨rfl, -, -⟩ := ht1.replaceContent_nativeOf hD h
    rw [find?_put_of_ne fun e => hE (by subst e; exact List.prefix_refl _)]
    exact ht.createDirAll_go_frame hD' _ h1 fun hpre => hE (hpre.trans (List.prefix_append _ _))

end Frames

end FileTree

section DataFrames

variable {bs : List String} (hbs : ∀ n ∈ bs, PlainName n) {t t' : FileTree} (ht : t.WF)
include hbs ht

/-- Taking the sync lock leaves alone every path that is neither the lock file
nor a prefix of the data directory. -/
theorem acquireLock_frame (h : (DataDir.forRoot ⟨nativeOf bs⟩).acquireLock t = .ok t') {E : List String}
    (hE : ¬ E <+: bs ++ [dataDirName]) (hlock : E ≠ bs ++ [dataDirName] ++ ["sync.lock"]) :
    t'.find? E = t.find? E := by
  have hD := plain_dataDir hbs
  obtain ⟨t1, h1, h2⟩ := (acquireLock_eq_ok_iff hbs).mp h
  have hkeep := ht.createDirAll_go_frame hD _ h1 hE
  have ht1 := (ht.createDirAll_go hD _ h1).1
  rcases ht1.touch_nativeOf (plain_append hD (by simpa using plainName_syncLock)) h2 with rfl | ⟨rfl, -⟩
  · exact hkeep
  · rw [FileTree.find?_put_of_ne hlock, hkeep]

theorem clearStaging_frame (h : ((DataDir.forRoot ⟨nativeOf bs⟩).clearStaging t).map Prod.snd = .ok t')
    {E : List String} (hE : ¬ bs ++ [dataDirName] ++ ["PendingUpdates"] <+: E) : t'.find? E = t.find? E := by
  rcases clearStaging_cases hbs ht h with rfl | rfl
  · rfl
  · exact FileTree.find?_drop_outside hE

theorem loadPrevious_congr {t₂ : FileTree} (ht₂ : t₂.WF)
    (h : t₂.find? (bs ++ [dataDirName] ++ ["PreviousSync.json"]) =
      t.find? (bs ++ [dataDirName] ++ ["PreviousSync.json"])) :
    (DataDir.forRoot ⟨nativeOf bs⟩).loadPrevious t₂ = (DataDir.forRoot ⟨nativeOf bs⟩).loadPrevious t := by
  unfold DataDir.loadPrevious DataDir.readState DataDir.previousSync
  rw [ht.loadIfExists_congr (plain_append (plain_dataDir hbs) (by simpa using DataDir.plainName_previousSync)) ht₂
    (congrArg NormalPath.text (forRoot_join hbs DataDir.plainName_previousSync)) h]

/-- A commit, whether it returns or fails, leaves the snapshot's catalog of
every sync path that the committed catalogs lack as it was. -/
theorem commit_keeps_snapshot_outside {R : CatalogSet} (hR : R.WF) (removed : List String) {q : String}
    (hq : R.get q = none) :
    ((DataDir.forRoot ⟨nativeOf bs⟩).loadPrevious
        (treeAfter ((DataDir.forRoot ⟨nativeOf bs⟩).commit R removed t))).map (·.get q) =
      ((DataDir.forRoot ⟨nativeOf bs⟩).loadPrevious t).map (·.get q) := by
  cases h : (DataDir.forRoot ⟨nativeOf bs⟩).commit R removed t with
  | ok u t₁ =>
    obtain ⟨S, hS, hS₁⟩ := DataDir.commit_snapshot hbs ht hR h
    show Except.map _ (DataDir.loadPrevious _ t₁) = _
    rw [hS, hS₁]
    simp [Except.map, CatalogSet.get_merge _ hR, hq]
  | error e t₁ =>
    rcases DataDir.commit_eq_error h with rfl | ⟨S, hS, hsave⟩
    · rfl
    · -- the merged snapshot was saved before the manifest failed
      obtain ⟨-, hload, -⟩ := DataDir.save_previousSync hbs ht hsave
      show Except.map _ (DataDir.loadPrevious _ t₁) = _
      rw [hload, CatalogSet.ofJson_toJson ((DataDir.wf_of_loadPrevious hS).merge hR), hS]
      simp [Except.map, CatalogSet.get_merge _ hR, hq]

end DataFrames

/-! ## Downloads that spare a path -/

namespace TransferManager

variable {m : TransferManager} {E : List String}

/-- Every file the plans download and every directory they make lands, below
the root its plan asks for, at a path of plain names that `E` is no prefix of. -/
def Spares (m : TransferManager) (plans : PlanSet) (E : List String) : Prop :=
  ∀ p ∈ plans.plans, ∀ x ∈ p.downloads ++ p.createdDirectories, ∀ clean, Path.sanitize x = .ok clean →
    ∃ D, (∀ n ∈ D, PlainName n) ∧ D ≠ [] ∧ ¬ E <+: D ∧
      ((m.rootFor p.spec.restartRequired).join clean).text = nativeOf D

theorem createDirectories_frame {plans : PlanSet} (hsp : m.Spares plans E) {t : FileTree} (ht : t.WF) :
    (m.createDirectories plans t).2.WF ∧ (m.createDirectories plans t).2.find? E = t.find? E := by
  -- both folds keep: the tree is well formed and holds at `E` what it held
  let Inv : Nat × FileTree → Prop := fun acc => acc.2.WF ∧ acc.2.find? E = t.find? E
  unfold createDirectories
  refine List.foldlRecOn (motive := Inv) _ _ ⟨ht, rfl⟩ fun acc hacc p hp => ?_
  refine List.foldlRecOn (motive := Inv) _ _ hacc fun acc' hacc' dir hdir => ?_
  obtain ⟨n, t'⟩ := acc'
  obtain ⟨ht', he'⟩ := hacc'
  dsimp only
  unfold createDirectory
  cases hs : Path.sanitize dir with
  | error e => exact ⟨ht', he'⟩
  | ok clean =>
    obtain ⟨D, hD, -, hED, hjoin⟩ := hsp p hp dir (List.mem_append_right _ hdir) clean hs
    dsimp only
    rw [hjoin]
    cases hc : t'.createDirAll (nativeOf D) with
    | error e => exact ⟨ht', he'⟩
    | ok t'' => exact ⟨(ht'.createDirAll_go hD _ hc).1, (ht'.createDirAll_go_frame hD _ hc hED).trans he'⟩

theorem units_spare {plans : PlanSet} (hsp : m.Spares plans E) {us : List TransferUnit}
    (h : m.units plans = .ok us) :
    ∀ u ∈ us, ∃ D, (∀ n ∈ D, PlainName n) ∧ D ≠ [] ∧ ¬ E <+: D ∧ u.destination = nativeOf D := by
  intro u hu
  obtain ⟨x, hx, clean, hs, rfl⟩ := mem_of_forall₂ (units_ok h) hu
  simp only [PlanSet.downloadPaths, List.mem_flatMap, List.mem_map] at hx
  obtain ⟨p, hp, y, hy, rfl⟩ := hx
  exact hsp p hp y (List.mem_append_left _ hy) clean hs

variable {σ : Type} {fetch : Fetch σ}

/-- Whatever the schedule, a batch whose units land at paths that `E` is no
prefix of leaves `E` as it was. -/
theorem runBatch_frame {us : List TransferUnit}
    (hus : ∀ u ∈ us, ∃ D, (∀ n ∈ D, PlainName n) ∧ D ≠ [] ∧ ¬ E <+: D ∧ u.destination = nativeOf D)
    (source : σ) (cancelled : Bool) (schedule : List TransferEvent) {t : FileTree} (ht : t.WF) :
    (m.runBatch fetch us source cancelled schedule t).tree.WF ∧
      (m.runBatch fetch us source cancelled schedule t).tree.find? E = t.find? E := by
  refine runBatch_invariant (fun c => c.tree.WF ∧ c.tree.find? E = t.find? E) (fun c ev hc hinv => ?_)
    source cancelled schedule t ⟨ht, rfl⟩
  obtain ⟨hw, he⟩ := hinv
  rcases TransferBatch.step_tree hc ev with h | ⟨u, hu, bytes, hrep⟩
  · rw [h]
    exact ⟨hw, he⟩
  · obtain ⟨D, hD, hne, hED, hdest⟩ := hus u hu
    rw [hdest] at hrep
    exact ⟨(hw.replaceFile_nativeOf hD hne hrep).1, (hw.replaceFile_frame hD hne hrep hED).trans he⟩

theorem execute_frame {plans : PlanSet} (hsp : m.Spares plans E) {source : σ} {cancelled : Bool}
    {schedule : List TransferEvent} {t : FileTree} {run : TransferRun σ}
    (h : m.execute plans fetch source cancelled schedule t = .ok run) (ht : t.WF) : run.tree.find? E = t.find? E := by
  cases hu : m.units plans with
  | error e =>
    rw [execute, hu] at h
    cases h
  | ok us =>
    rw [execute_of_units hu] at h
    cases h
    obtain ⟨hw, he⟩ := createDirectories_frame hsp ht
    exact (runBatch_frame (units_spare hsp hu) source cancelled schedule hw).2.trans he

end TransferManager

/-! ## Invariants of the install -/

namespace SyncSession

variable {σ α β : Type} {I : NormalPath → FileTree → Prop}

/-- Run from any session whose root and files satisfy `I`, the step ends,
returning or failing, in a session whose root and files satisfy `I`. -/
structure Maintains (I : NormalPath → FileTree → Prop) (m : SessionM σ α) : Prop where
  ends : ∀ s, I s.root s.tree → I (final (m s)).root (final (m s)).tree

theorem Maintains.bind {m : SessionM σ α} {f : α → SessionM σ β} (hm : Maintains I m)
    (hf : ∀ a, Maintains I (f a)) : Maintains I (m >>= f) := by
  refine ⟨fun s hs => ?_⟩
  have h₁ := hm.ends s hs
  show I (final (EStateM.bind m f s)).root (final (EStateM.bind m f s)).tree
  unfold EStateM.bind
  revert h₁
  cases m s with
  | ok a s₁ => exact (hf a).ends s₁
  | error e s₁ => exact id

theorem Maintains.tryCatch {m : SessionM σ α} {handler : SyncError → SessionM σ α} (hm : Maintains I m)
    (hh : ∀ e, Maintains I (handler e)) : Maintains I (tryCatch m handler) := by
  refine ⟨fun s hs => ?_⟩
  have h₁ := hm.ends s hs
  simp only [MonadExcept.tryCatch, tryCatchThe, MonadExceptOf.tryCatch, EStateM.tryCatch]
  revert h₁
  cases m s with
  | ok a s₁ => exact id
  | error e s₁ => exact (hh e).ends s₁

/-- The end of one run of a step that keeps `I`, read off the result it gave. -/
theorem Maintains.ends_of_eq {m : SessionM σ α} (hm : Maintains I m) {s : SyncSession σ} (hs : I s.root s.tree)
    {r : EStateM.Result SyncError (SyncSession σ) α} (h : m s = r) : I (final r).root (final r).tree :=
  h ▸ hm.ends s hs

theorem maintains_of_keeps {m : SessionM σ α}
    (h : ∀ s, (final (m s)).root = s.root ∧ (final (m s)).tree = s.tree) : Maintains I m :=
  ⟨fun s hs => by rw [(h s).1, (h s).2]; exact hs⟩

theorem maintains_pure (a : α) : Maintains I (pure a : SessionM σ α) := maintains_of_keeps fun _ => ⟨rfl, rfl⟩

theorem maintains_get : Maintains I (get : SessionM σ (SyncSession σ)) := maintains_of_keeps fun _ => ⟨rfl, rfl⟩

theorem maintains_throw (e : SyncError) : Maintains I (throw e : SessionM σ α) :=
  maintains_of_keeps fun _ => ⟨rfl, rfl⟩

theorem maintains_modify {f : SyncSession σ → SyncSession σ}
    (hf : ∀ s, I s.root s.tree → I (f s).root (f s).tree) : Maintains I (modify f) :=
  ⟨hf⟩

theorem maintains_transition (next : SyncPhase) : Maintains I (transition next : SessionM σ Unit) := by
  unfold transition enter
  refine maintains_get.bind fun s => ?_
  split
  · exact maintains_modify fun _ h => h
  · exact maintains_throw _

theorem maintains_abort (e : SyncError) : Maintains I (abort e : SessionM σ α) := by
  unfold abort enter
  -- every step of the failure path only changes the phase
  have hback : Maintains I (modify (fun s : SyncSession σ => s.entering .reportAndAbort) >>= fun _ =>
      modify (fun s : SyncSession σ => s.entering .idle) >>= fun _ => (throw e : SessionM σ α)) :=
    (maintains_modify fun _ h => by exact h).bind fun _ =>
      (maintains_modify fun _ h => by exact h).bind fun _ => maintains_throw e
  refine maintains_get.bind fun s => ?_
  dsimp only
  split
  · exact (maintains_modify fun _ h => by exact h).bind fun _ => hback
  · exact hback

theorem Maintains.orAbort {m : SessionM σ α} (hm : Maintains I m) : Maintains I (orAbort m) :=
  hm.tryCatch maintains_abort

theorem maintains_onTree {f : FileTree → Except SyncError FileTree}
    (hf : ∀ root t t', I root t → f t = .ok t' → I root t') : Maintains I (onTree f : SessionM σ Unit) := by
  refine ⟨fun s hs => ?_⟩
  cases hft : f s.tree with
  | ok t =>
    rw [onTree_of_ok hft]
    exact hf s.root s.tree t hs hft
  | error e =>
    rw [onTree_of_error hft]
    exact hs

theorem maintains_onFiles {m : EStateM SyncError FileTree α}
    (hm : ∀ root t, I root t → I root (treeAfter (m t))) : Maintains I (onFiles m : SessionM σ α) := by
  refine ⟨fun s hs => ?_⟩
  have h := hm s.root s.tree hs
  show I (final (onFiles m s)).root (final (onFiles m s)).tree
  unfold onFiles
  revert h
  cases m s.tree with
  | ok a t => exact id
  | error e t => exact id

theorem maintains_get_bind {f : SyncSession σ → SessionM σ α}
    (hf : ∀ s₀, I s₀.root s₀.tree → Maintains I (f s₀)) : Maintains I (get >>= f) :=
  ⟨fun s hs => (hf s hs).ends s hs⟩

theorem maintains_set_bind {s' : SyncSession σ} {k : Unit → SessionM σ β} (hs' : I s'.root s'.tree)
    (hk : Maintains I (k ())) : Maintains I (set s' >>= k) :=
  ⟨fun _ _ => hk.ends s' hs'⟩

theorem maintains_releasing {x : SessionM σ SyncOutcome} (hx : Maintains I x) :
    Maintains I (do
      let outcome ← tryCatch x fun e => do releaseLock; throw e
      releaseLock
      pure outcome) := by
  unfold releaseLock
  exact (hx.tryCatch fun e => (maintains_modify fun _ h => by exact h).bind fun _ => maintains_throw e).bind
    fun _ => (maintains_modify fun _ h => by exact h).bind fun _ => maintains_pure _

theorem maintains_lift (r : Except SyncError α) : Maintains I (lift r : SessionM σ α) := by
  refine maintains_of_keeps fun s => ?_
  cases r <;> exact ⟨rfl, rfl⟩

theorem maintains_call (f : σ → Except SyncError α × σ) : Maintains I (call f) := by
  unfold call
  refine maintains_get.bind fun s => ?_
  obtain ⟨r, remote⟩ := f s.remote
  exact (maintains_modify fun _ h => by exact h).bind fun _ => maintains_lift r

theorem maintains_forM {γ : Type} {l : List γ} {f : γ → SessionM σ Unit} (hf : ∀ x, Maintains I (f x)) :
    Maintains I (l.forM f) := by
  induction l with
  | nil => exact maintains_pure ()
  | cons x l ih => exact (hf x).bind fun _ => ih

theorem maintains_fetchRemoteState (r : Remote σ) : Maintains I (fetchRemoteState r) := by
  unfold fetchRemoteState
  refine (maintains_call _).bind fun _ => (maintains_call _).bind fun _ => ?_
  refine (maintains_forM fun _ => (maintains_lift _).bind fun _ => maintains_pure _).bind fun _ => ?_
  refine (maintains_call _).bind fun _ => (maintains_lift _).bind fun _ => maintains_get.bind fun _ => ?_
  exact (maintains_call _).bind fun _ => maintains_pure _

/-- A step on the files under `orAbort`, then steps that keep `I`: the
session ends satisfying `I` when the files the step left do, whether the step
returned or failed. -/
theorem Maintains.after_orAbort_onFiles {m : EStateM SyncError FileTree α} {k : α → SessionM σ β}
    (hk : ∀ a, Maintains I (k a)) {s : SyncSession σ} (h : I s.root (treeAfter (m s.tree))) :
    I (final ((SyncSession.orAbort (onFiles m) >>= k) s)).root (final ((SyncSession.orAbort (onFiles m) >>= k) s)).tree := by
  cases hm : m s.tree with
  | ok a t₁ =>
    rw [hm] at h
    have hon : (SyncSession.orAbort (onFiles m) : SessionM σ α) s = .ok a { s with tree := t₁ } := by
      simp only [SyncSession.orAbort, onFiles, hm, MonadExcept.tryCatch, tryCatchThe, MonadExceptOf.tryCatch,
        EStateM.tryCatch]
    rw [estate_bind_ok hon]
    exact (hk a).ends _ h
  | error e t₁ =>
    rw [hm] at h
    have hon : (onFiles m : SessionM σ α) s = .error e { s with tree := t₁ } := by simp only [onFiles, hm]
    -- the failure path changes neither the root nor the files
    have habort := (maintains_abort (α := α) e).ends { s with tree := t₁ } h
    obtain ⟨s', hs', -⟩ := abort_keeps_tree (α := α) e { s with tree := t₁ }
    rw [hs'] at habort
    rw [estate_bind_error ((orAbort_of_error hon).trans hs')]
    exact habort

end SyncSession

/-! ## Plans that spare the snapshot -/

/-- No file the plan downloads and no directory it makes in place is the
snapshot file of the data directory or lies below it. -/
def SyncPlan.SparesSnapshot (p : SyncPlan) : Prop :=
  p.spec.restartRequired = false → ∀ x ∈ p.downloads ++ p.createdDirectories, ∀ clean,
    Path.sanitize x = .ok clean → ¬ [dataDirName, "PreviousSync.json"] <+: Path.segments clean

/-- The same for the file `n` of the data directory. -/
def SyncPlan.SparesDataFile (n : String) (p : SyncPlan) : Prop :=
  p.spec.restartRequired = false → ∀ x ∈ p.downloads ++ p.createdDirectories, ∀ clean,
    Path.sanitize x = .ok clean → ¬ [dataDirName, n] <+: Path.segments clean

theorem SyncPlan.sparesSnapshot_iff (p : SyncPlan) : p.SparesSnapshot ↔ p.SparesDataFile "PreviousSync.json" :=
  Iff.rfl

namespace SyncSession

section Snapshot

variable {σ : Type} {rs : List String} (hrs : ∀ n ∈ rs, PlainName n) {R : CatalogSet} {t₀ : FileTree}

/-- The install at the plain path `rs`: its files are well formed with `rs` a
directory, and its snapshot reads, for every sync path that `R` holds no
catalog of, what it read in the files `t₀`. -/
structure SnapshotKept (rs : List String) (R : CatalogSet) (t₀ : FileTree) (home : NormalPath) (t : FileTree) :
    Prop where
  root : home = ⟨nativeOf rs⟩
  tree : t.WF
  dir : t.find? rs = some .dir
  reads : ∀ q, R.get q = none →
    ((DataDir.forRoot home).loadPrevious t).map (·.get q) = ((DataDir.forRoot home).loadPrevious t₀).map (·.get q)

theorem InstalledAt.snapshotKept {s : SyncSession σ} (hs : InstalledAt rs s) : SnapshotKept rs R s.tree s.root s.tree :=
  ⟨hs.root, hs.tree, hs.dir, fun _ _ => rfl⟩

/-- A session that keeps the snapshot of `t₀` reads there, for every sync
path that `R` lacks, what `t₀` held. -/
theorem SnapshotKept.loadPrevious_get {s : SyncSession σ} (h : SnapshotKept rs R t₀ s.root s.tree) {q : String}
    (hq : R.get q = none) :
    (s.data.loadPrevious s.tree).map (·.get q) = ((DataDir.forRoot ⟨nativeOf rs⟩).loadPrevious t₀).map (·.get q) := by
  rw [data, h.reads q hq, h.root]

include hrs

/-- Downloads of plans that spare the file `n` of the data directory, joined
to the roots of a session at `rs`, land beside it or below the staging
directory. -/
theorem spares_session_dataFile {n : String} (hn : n ≠ "PendingUpdates") {s : SyncSession σ}
    (hroot : s.root = ⟨nativeOf rs⟩) {plans : PlanSet} (hsp : ∀ p ∈ plans.plans, p.SparesDataFile n) :
    TransferManager.Spares
      { live := s.root, staging := s.data.staging, concurrency := s.settings.downloadConcurrency,
        retry := s.settings.retry } plans (rs ++ [dataDirName] ++ [n]) := by
  intro p hp x hx clean hs
  obtain ⟨hne, hplain, -⟩ := sanitize_segments hs
  cases hr : p.spec.restartRequired
  · -- in place, below the root
    refine ⟨rs ++ Path.segments clean, plain_append hrs hplain, by simp [hne], ?_, ?_⟩
    · rw [List.append_assoc, List.prefix_append_right_inj]
      exact hsp p hp hr x hx clean hs
    · simp only [TransferManager.rootFor, hroot, Bool.false_eq_true, if_false]
      rw [join_sanitize_nativeOf hrs hs]
  · -- staged, below the staging directory beside the file
    have hstaging : s.data.staging = ⟨nativeOf (rs ++ [dataDirName] ++ ["PendingUpdates"])⟩ := by
      rw [data, hroot, forRoot_staging hrs]
    refine ⟨rs ++ [dataDirName] ++ ["PendingUpdates"] ++ Path.segments clean,
      plain_append (plain_staging hrs) hplain, by simp, ?_, ?_⟩
    · rw [List.append_assoc _ ["PendingUpdates"], List.prefix_append_right_inj]
      simpa using hn
    · simp only [TransferManager.rootFor, if_true]
      rw [hstaging, join_sanitize_nativeOf (plain_staging hrs) hs]

/-- Downloads of plans that spare the snapshot land beside it or below the
staging directory. -/
theorem spares_session {s : SyncSession σ} (hroot : s.root = ⟨nativeOf rs⟩) {plans : PlanSet}
    (hsp : ∀ p ∈ plans.plans, p.SparesSnapshot) :
    TransferManager.Spares
      { live := s.root, staging := s.data.staging, concurrency := s.settings.downloadConcurrency,
        retry := s.settings.retry } plans (rs ++ [dataDirName] ++ ["PreviousSync.json"]) :=
  spares_session_dataFile hrs (by decide) hroot fun p hp => (p.sparesSnapshot_iff).mp (hsp p hp)

variable {home : NormalPath} {t t' : FileTree}

theorem SnapshotKept.of_frame (h : SnapshotKept rs R t₀ home t) (ht' : t'.WF) (hedit : t.EditsBelow rs t')
    (hP : t'.find? (rs ++ [dataDirName] ++ ["PreviousSync.json"]) =
      t.find? (rs ++ [dataDirName] ++ ["PreviousSync.json"])) :
    SnapshotKept rs R t₀ home t' := by
  refine ⟨h.root, ht', hedit.find?_root.trans h.dir, fun q hq => ?_⟩
  rw [← h.reads q hq, h.root, loadPrevious_congr hrs h.tree ht' hP]

theorem SnapshotKept.acquireLock (h : SnapshotKept rs R t₀ home t)
    (hl : (DataDir.forRoot ⟨nativeOf rs⟩).acquireLock t = .ok t') : SnapshotKept rs R t₀ home t' := by
  obtain ⟨ht', hedit⟩ := acquireLock_editsBelow hrs h.tree h.dir hl
  refine h.of_frame hrs ht' hedit (acquireLock_frame hrs h.tree hl (fun hpre => ?_) (by simp))
  simpa using hpre.length_le

theorem SnapshotKept.clearStaging (h : SnapshotKept rs R t₀ home t)
    (hc : ((DataDir.forRoot ⟨nativeOf rs⟩).clearStaging t).map Prod.snd = .ok t') :
    SnapshotKept rs R t₀ home t' := by
  obtain ⟨ht', hedit⟩ := clearStaging_editsBelow hrs h.tree hc
  refine h.of_frame hrs ht' hedit (clearStaging_frame hrs h.tree hc ?_)
  rw [List.prefix_append_right_inj]
  simp

theorem SnapshotKept.commit (h : SnapshotKept rs R t₀ home t) (hR : R.WF) (removed : List String) :
    SnapshotKept rs R t₀ home (treeAfter ((DataDir.forRoot ⟨nativeOf rs⟩).commit R removed t)) := by
  obtain ⟨ht', hedit⟩ := commit_editsOnlyBelow hrs R removed t h.tree h.dir
  refine ⟨h.root, ht', hedit.find?_root.trans h.dir, fun q hq => ?_⟩
  rw [← h.reads q hq, h.root, commit_keeps_snapshot_outside hrs h.tree hR removed hq]

theorem SnapshotKept.execute {s : SyncSession σ} (h : SnapshotKept rs R t₀ s.root s.tree) {plans : PlanSet}
    (hsp : ∀ p ∈ plans.plans, p.SparesSnapshot) {fetch : Fetch σ} {source : σ} {cancelled : Bool}
    {schedule : List TransferEvent} {run : TransferRun σ}
    (hrun : TransferManager.execute
      { live := s.root, staging := s.data.staging, concurrency := s.settings.downloadConcurrency,
        retry := s.settings.retry } plans fetch source cancelled schedule s.tree = .ok run) :
    SnapshotKept rs R t₀ s.root run.tree := by
  obtain ⟨ht', hedit⟩ := TransferManager.execute_editsBelow (rootsBelow_session hrs h.root) hrun h.tree h.dir
  exact h.of_frame hrs ht' hedit (TransferManager.execute_frame (spares_session hrs h.root hsp) hrun h.tree)

end Snapshot

/-! ## The lock and the rollback -/

section LockAndRollBack

variable {σ : Type} {rs : List String} {I : NormalPath → FileTree → Prop}
  (hroot : ∀ home t, I home t → home = ⟨nativeOf rs⟩)
include hroot

/-- Entering the transfer keeps every invariant of the install at `rs` that
taking the lock keeps. -/
theorem maintains_enterTransfer_of
    (hlock : ∀ home t t', I home t → (DataDir.forRoot ⟨nativeOf rs⟩).acquireLock t = .ok t' → I home t') :
    Maintains I (enterTransfer : SessionM σ Unit) := by
  unfold enterTransfer releaseLock
  refine maintains_get_bind fun s₀ hs₀ => ?_
  have hdata : s₀.data = DataDir.forRoot ⟨nativeOf rs⟩ := congrArg DataDir.forRoot (hroot _ _ hs₀)
  dsimp only
  -- a refused step fails before the lock; otherwise the lock is taken
  split
  on_goal 2 => refine (maintains_throw _).bind fun _ => ?_
  all_goals
    refine Maintains.orAbort ((maintains_onTree fun home t t' hI h => ?_).bind fun _ => ?_)
    · rw [hdata] at h
      exact hlock home t t' hI h
    refine (maintains_modify fun _ h => by exact h).bind fun _ => maintains_get.bind fun _ => ?_
    split
    · exact (maintains_modify fun _ h => by exact h).bind fun _ => (maintains_throw _).bind fun _ =>
        maintains_transition _
    · exact maintains_transition _

/-- Rolling back keeps every invariant of the install at `rs` that clearing
the staging directory keeps. -/
theorem maintains_rollBack_of
    (hclear : ∀ home t t', I home t →
      ((DataDir.forRoot ⟨nativeOf rs⟩).clearStaging t).map Prod.snd = .ok t' → I home t')
    (completed inPlace : Nat) (failures : List TransferFailure) :
    Maintains I (rollBack completed inPlace failures : SessionM σ SyncOutcome) := by
  unfold rollBack
  refine (maintains_transition _).bind fun _ => (maintains_transition _).bind fun _ => ?_
  refine maintains_get_bind fun s₀ hs₀ => ?_
  have hdata : s₀.data = DataDir.forRoot ⟨nativeOf rs⟩ := congrArg DataDir.forRoot (hroot _ _ hs₀)
  refine (maintains_onTree fun home t t' hI h => ?_).orAbort.bind fun _ =>
    (maintains_transition _).bind fun _ => maintains_pure _
  rw [hdata] at h
  exact hclear home t t' hI h

end LockAndRollBack

/-! ## The steps of a decline -/

section Steps

variable {σ : Type} {rs : List String} (hrs : ∀ n ∈ rs, PlainName n) {R : CatalogSet} {t₀ : FileTree}
include hrs

theorem maintains_enterTransfer : Maintains (SnapshotKept rs R t₀) (enterTransfer : SessionM σ Unit) :=
  maintains_enterTransfer_of (fun _ _ h => h.root) fun _ _ _ hI h => hI.acquireLock hrs h

theorem maintains_finish {plans : PlanSet} (hR : plans.remote.WF) (report : TransferReport) :
    Maintains (SnapshotKept rs plans.remote t₀) (finish plans report : SessionM σ SyncOutcome) := by
  unfold finish
  refine (maintains_transition _).bind fun _ => (maintains_transition _).bind fun _ => ?_
  refine maintains_get_bind fun s₀ hs₀ => ?_
  have hdata : s₀.data = DataDir.forRoot ⟨nativeOf rs⟩ := congrArg DataDir.forRoot hs₀.root
  refine (maintains_onFiles fun home t hI => ?_).orAbort.bind fun _ => ?_
  · rw [hdata]
    exact hI.commit hrs hR _
  dsimp only
  split
  · exact (maintains_transition _).bind fun _ => maintains_pure _
  · refine (maintains_onTree fun home t t' hI h => ?_).orAbort.bind fun _ =>
      (maintains_transition _).bind fun _ => maintains_pure _
    rw [hdata] at h
    exact hI.clearStaging hrs h

theorem maintains_rollBack (completed inPlace : Nat) (failures : List TransferFailure) :
    Maintains (SnapshotKept rs R t₀) (rollBack completed inPlace failures : SessionM σ SyncOutcome) :=
  maintains_rollBack_of (fun _ _ h => h.root) (fun _ _ _ hI h => hI.clearStaging hrs h) _ _ _

theorem maintains_transfer (r : Remote σ) {plans : PlanSet} (hR : plans.remote.WF)
    (hsp : ∀ p ∈ plans.plans, p.SparesSnapshot) :
    Maintains (SnapshotKept rs plans.remote t₀) (transfer r plans) := by
  unfold transfer
  refine maintains_get_bind fun s₀ hs₀ => maintains_set_bind hs₀ ?_
  -- a refused destination fails before anything is written
  cases hrun : TransferManager.execute
      { live := s₀.root, staging := s₀.data.staging, concurrency := s₀.settings.downloadConcurrency,
        retry := s₀.settings.retry } plans r.fetch s₀.remote s₀.cancelled s₀.schedule s₀.tree with
  | error e => exact maintains_abort e
  | ok run =>
    have hkept := hs₀.execute hrs hsp hrun
    refine (maintains_modify fun s hs => ?_).bind fun _ => ?_
    · -- the session keeps its root, now with the transferred files
      show SnapshotKept rs plans.remote t₀ s.root run.tree
      rw [hs.root, ← hs₀.root]
      exact hkept
    split
    · exact maintains_finish hrs hR _
    · exact maintains_rollBack hrs _ _ _

theorem maintains_apply (r : Remote σ) {plans : PlanSet} (hR : plans.remote.WF)
    (hsp : ∀ p ∈ plans.plans, p.SparesSnapshot) :
    Maintains (SnapshotKept rs plans.remote t₀) (apply r plans) := by
  unfold apply
  exact (maintains_enterTransfer hrs).bind fun _ => maintains_releasing (maintains_transfer hrs r hR hsp)

theorem maintains_decline (r : Remote σ) {plans : PlanSet} (hR : plans.enforcedOnly.remote.WF)
    (hsp : ∀ p ∈ plans.enforcedOnly.plans, p.SparesSnapshot) :
    Maintains (SnapshotKept rs plans.enforcedOnly.remote t₀) (decline r plans) := by
  unfold decline
  dsimp only
  split
  · exact (maintains_transition _).bind fun _ => maintains_pure _
  · exact maintains_apply hrs r hR hsp

/-- Declining keeps the snapshot's catalog of every sync path that the
enforced catalogs lack, whether it returns or fails. -/
theorem decline_keeps_snapshot_outside (r : Remote σ) {plans : PlanSet} (hR : plans.enforcedOnly.remote.WF)
    (hsp : ∀ p ∈ plans.enforcedOnly.plans, p.SparesSnapshot) {s : SyncSession σ} (hs : InstalledAt rs s)
    {q : String} (hq : plans.enforcedOnly.remote.get q = none) :
    ((final (decline r plans s)).data.loadPrevious (final (decline r plans s)).tree).map (·.get q) =
      (s.data.loadPrevious s.tree).map (·.get q) := by
  have h₁ := (maintains_decline hrs r hR hsp).ends s hs.snapshotKept
  rw [h₁.loadPrevious_get hq, ← hs.root]
  rfl

/-- An apply whose downloads complete ends with the snapshot read, for every
sync path that the committed catalogs lack, as the downloads left it. -/
theorem apply_reads_snapshot_as_downloaded (r : Remote σ) {plans : PlanSet} (hR : plans.remote.WF)
    {s s₁ : SyncSession σ} (hs : InstalledAt rs s) (henter : (enterTransfer : SessionM σ Unit) s = .ok () s₁)
    {run : TransferRun σ} {report : TransferReport}
    (hrun : TransferManager.execute
      { live := s₁.root, staging := s₁.data.staging, concurrency := s₁.settings.downloadConcurrency,
        retry := s₁.settings.retry } plans r.fetch s₁.remote s₁.cancelled s₁.schedule s₁.tree = .ok run)
    (hout : run.outcome = .completed report) {q : String} (hq : plans.remote.get q = none) :
    ((final (apply r plans s)).data.loadPrevious (final (apply r plans s)).tree).map (·.get q) =
      (s.data.loadPrevious run.tree).map (·.get q) := by
  have h₁ : SnapshotKept rs plans.remote s.tree s₁.root s₁.tree :=
    (maintains_enterTransfer hrs).ends_of_eq hs.snapshotKept henter
  obtain ⟨hwf, hedit⟩ :=
    TransferManager.execute_editsBelow (rootsBelow_session hrs h₁.root) hrun h₁.tree h₁.dir
  -- from the downloaded files on, the snapshot of a path the commit leaves alone reads as they left it
  have hfinish : Maintains (SnapshotKept rs plans.remote run.tree) (finish plans report : SessionM σ SyncOutcome) :=
    maintains_finish hrs hR report
  have h₂ := (maintains_releasing hfinish).ends
    { s₁ with tree := run.tree, remote := run.source, cancelled := run.cancelled, progress := run.progress }
    ⟨h₁.root, hwf, hedit.find?_root.trans h₁.dir, fun _ _ => rfl⟩
  rw [← releasing_congr (transfer_of_completed hrun hout), ← apply_of_enterTransfer henter] at h₂
  rw [h₂.loadPrevious_get hq, ← hs.root]
  rfl

end Steps

end SyncSession

/-! ## What a decline keeps of a plan set -/

namespace PlanSet

/-- A per-plan list that is empty for a plan without changes, over the plans
a decline keeps: the lists of the enforced plans, in plan order. -/
theorem flatMap_enforcedOnly {β : Type} (plans : PlanSet) (f : SyncPlan → List β)
    (hf : ∀ p : SyncPlan, f p.cleared = []) :
    plans.enforcedOnly.plans.flatMap f = (plans.plans.filter (·.spec.enforced)).flatMap f := by
  simp only [enforcedOnly]
  induction plans.plans with
  | nil => rfl
  | cons p ps ih => cases hp : p.spec.enforced <;> simp [hp, hf, ih]

theorem sparesSnapshot_enforcedOnly {plans : PlanSet}
    (h : ∀ p ∈ plans.plans, p.spec.enforced = true → p.SparesSnapshot) :
    ∀ p ∈ plans.enforcedOnly.plans, p.SparesSnapshot := by
  intro p hp
  simp only [enforcedOnly, List.mem_map] at hp
  obtain ⟨p₀, hp₀, rfl⟩ := hp
  split
  · exact h p₀ hp₀ ‹_›
  · -- an optional plan is emptied
    intro _ x hx
    simp [SyncPlan.cleared, SyncPlan.downloads] at hx

theorem wf_enforcedOnly_remote {plans : PlanSet} (h : plans.remote.WF) : plans.enforcedOnly.remote.WF := by
  unfold enforcedOnly
  dsimp only
  refine List.foldlRecOn (motive := CatalogSet.WF) _ _ CatalogSet.wf_empty fun acc hacc p _ => ?_
  split
  · split
    · exact hacc.add _ (h.get ‹_›)
    · exact hacc
  · exact hacc

theorem enforcedOnly_remote_get_of_optional (plans : PlanSet) {q : String}
    (hq : ∀ p ∈ plans.plans, p.spec.enforced = true → catalogKey p.spec.path ≠ catalogKey q) :
    plans.enforcedOnly.remote.get q = none := by
  unfold enforcedOnly
  dsimp only
  refine List.foldlRecOn (motive := fun acc : CatalogSet => acc.get q = none) _ _ rfl fun acc hacc p hp => ?_
  split
  · split
    · rw [CatalogSet.get_add, if_neg fun hk => hq p hp ‹_› hk.symm, hacc]
    · exact hacc
  · exact hacc

/-- Every catalog a decline commits is the catalog the plan set holds for an
enforced plan of the same key. -/
theorem enforcedOnly_remote_get_some (plans : PlanSet) {q : String} {c : PathCatalog}
    (h : plans.enforcedOnly.remote.get q = some c) :
    ∃ p ∈ plans.plans, p.spec.enforced = true ∧ catalogKey p.spec.path = catalogKey q ∧
      plans.remote.get p.spec.path = some c := by
  unfold enforcedOnly at h
  dsimp only at h
  refine List.foldlRecOn (motive := fun acc : CatalogSet => ∀ c, acc.get q = some c → ∃ p ∈ plans.plans,
    p.spec.enforced = true ∧ catalogKey p.spec.path = catalogKey q ∧ plans.remote.get p.spec.path = some c)
    _ _ (fun c h => by simp [CatalogSet.get, CatalogSet.empty, KeyMap.find?] at h) (fun acc hacc p hp => ?_) c h
  intro c h
  split at h
  · rename_i henf
    split at h
    · rename_i c' hc'
      rw [CatalogSet.get_add] at h
      split at h
      · -- the catalog just added
        rename_i hk
        cases h
        exact ⟨p, hp, henf, hk.symm, hc'⟩
      · exact hacc c h
    · exact hacc c h
  · exact hacc c h

end PlanSet

theorem wf_planSync_remote {loc remote previous : CatalogSet} (h : remote.WF) (specs : List SyncPathSpec)
    (opts : PlanOptions) : (planSync loc remote previous specs opts).remote.WF := by
  rw [planSync_eq]
  exact List.foldlRecOn (motive := CatalogSet.WF) _ _ CatalogSet.wf_empty fun acc hacc u _ =>
    hacc.add _ (effectiveRemote_wf (h.getOrEmpty _) u opts)

/-! ## Declining -/

open SyncSession in
/-- **Declining applies only the enforced changes.** For a plan set planned
over sync paths of distinct keys: with no enforced change, a decline is one
step to idle, which returns `declined` where idle may follow, and touches
neither the files nor the server; otherwise it applies the enforced part of
the plans. That part downloads, makes and removes exactly what the enforced
plans do, in plan order, and commits only catalogs that the plan set holds
for enforced paths, none for an optional path. From an install at a plain
path, if no enforced download or directory lands in place on the snapshot
file or below it, the snapshot's catalog of every optional path reads as
before, whether the decline returns or fails. -/
theorem decline_applies_only_enforced {σ : Type} (r : Remote σ) (loc remote previous : CatalogSet)
    (specs : List SyncPathSpec) (opts : PlanOptions) (hkeys : (specs.map fun u => catalogKey u.path).Nodup) :
    let plans := planSync loc remote previous specs opts
    (plans.enforcedOnly.isEmpty = true → ∀ s, decline r plans s =
      if s.phase.canTransition .idle then .ok .declined (s.entering .idle)
      else .error (.invalidTransition s.phase .idle) s) ∧
    (plans.enforcedOnly.isEmpty = false → decline r plans = apply r plans.enforcedOnly) ∧
    plans.enforcedOnly.downloadPaths =
      (plans.plans.filter (·.spec.enforced)).flatMap (fun p => p.downloads.map (p, ·)) ∧
    plans.enforcedOnly.plans.flatMap (·.createdDirectories) =
      (plans.plans.filter (·.spec.enforced)).flatMap (·.createdDirectories) ∧
    plans.enforcedOnly.removedFiles = (plans.plans.filter (·.spec.enforced)).flatMap (·.removed) ∧
    (∀ q c, plans.enforcedOnly.remote.get q = some c →
      ∃ u ∈ specs, u.enforced = true ∧ catalogKey u.path = catalogKey q ∧ plans.remote.get u.path = some c) ∧
    (∀ u ∈ specs, u.enforced = false → plans.enforcedOnly.remote.get u.path = none) ∧
    (remote.WF → ∀ rs, (∀ n ∈ rs, PlainName n) →
      (∀ p ∈ plans.plans, p.spec.enforced = true → p.SparesSnapshot) →
      ∀ s, InstalledAt rs s → ∀ u ∈ specs, u.enforced = false →
        ((final (decline r plans s)).data.loadPrevious (final (decline r plans s)).tree).map (·.get u.path) =
          (s.data.loadPrevious s.tree).map (·.get u.path)) := by
  intro plans
  -- the plans' specs are the given ones, so no enforced plan has the key of an optional path
  have hoptional : ∀ u ∈ specs, u.enforced = false → plans.enforcedOnly.remote.get u.path = none := by
    intro u hu hopt
    refine plans.enforcedOnly_remote_get_of_optional fun p hp henf hk => ?_
    have hpu : p.spec = u := List.inj_on_of_nodup_map hkeys (mem_planSync hp).1 hu hk
    rw [hpu, hopt] at henf
    cases henf
  refine ⟨fun hempty s => ?_, fun hne => ?_, plans.flatMap_enforcedOnly _ fun _ => rfl,
    plans.flatMap_enforcedOnly _ fun _ => rfl, plans.flatMap_enforcedOnly _ fun _ => rfl, fun q c h => ?_,
    hoptional, fun hremote rs hrs hspare s hs u hu hopt => ?_⟩
  · -- nothing enforced: one step to idle
    unfold decline
    rw [if_pos hempty]
    cases hcan : s.phase.canTransition .idle
    · rw [estate_bind_error (transition_of_cannot hcan)]
      rfl
    · rw [estate_bind_ok (transition_of_can hcan)]
      rfl
  · unfold decline
    rw [if_neg (by simp [hne])]
  · obtain ⟨p, hp, henf, hk, hc⟩ := plans.enforcedOnly_remote_get_some h
    exact ⟨p.spec, (mem_planSync hp).1, henf, hk, hc⟩
  · exact decline_keeps_snapshot_outside hrs r (PlanSet.wf_enforcedOnly_remote (wf_planSync_remote hremote specs opts))
      (PlanSet.sparesSnapshot_enforcedOnly hspare) hs (hoptional u hu hopt)

/-- An enforced `mods`, applied in place, and an optional `opt`. -/
def modsAndOpt : List SyncPathSpec :=
  [{ path := "mods", enforced := true, restartRequired := false }, { path := "opt" }]

/-- The catalogs a server serves for them: one file each. -/
def modsAndOptCatalogs : CatalogSet :=
  (CatalogSet.empty.add "mods" (PathCatalog.empty.add "mods/a.dll" (.file "h"))).add "opt"
    (PathCatalog.empty.add "opt/b.dll" (.file "b"))

/-- A server with those sync paths and catalogs. -/
def modsAndOptServer : Remote Unit :=
  { version := fun u => (.ok "1", u), syncPaths := fun u => (.ok modsAndOpt, u), exclusions := fun u => (.ok [], u),
    hashes := fun u _ => (.ok modsAndOptCatalogs, u), fetch := fun u _ => (.ok .empty, u) }

theorem decline_applies_only_enforced_mods :
    (modsAndOpt.map fun u => catalogKey u.path).Nodup ∧ modsAndOptCatalogs.WF ∧ (∀ n ∈ ["game"], PlainName n) ∧
    (∀ p ∈ (planSync {} modsAndOptCatalogs {} modsAndOpt {}).plans, p.spec.enforced = true → p.SparesSnapshot) ∧
    ∀ s, SyncSession.InstalledAt ["game"] s →
      ((SyncSession.final (SyncSession.decline modsAndOptServer (planSync {} modsAndOptCatalogs {} modsAndOpt {}) s)).data.loadPrevious
          (SyncSession.final (SyncSession.decline modsAndOptServer (planSync {} modsAndOptCatalogs {} modsAndOpt {}) s)).tree).map
          (·.get "opt") =
        (s.data.loadPrevious s.tree).map (·.get "opt") := by
  have hkeys : (modsAndOpt.map fun u => catalogKey u.path).Nodup := by decide
  have hwf : modsAndOptCatalogs.WF :=
    (CatalogSet.wf_empty.add "mods" (PathCatalog.wf_empty.add "mods/a.dll" _)).add "opt"
      (PathCatalog.wf_empty.add "opt/b.dll" _)
  have hplain : ∀ n ∈ ["game"], PlainName n := by decide
  have hspare : ∀ p ∈ (planSync {} modsAndOptCatalogs {} modsAndOpt {}).plans, p.spec.enforced = true →
      p.SparesSnapshot := by
    intro p hp henf _ x hx clean hs
    obtain ⟨hmem, hpeq⟩ := mem_planSync hp
    simp only [modsAndOpt, List.mem_cons, List.not_mem_nil, or_false] at hmem
    rcases hmem with hmods | hopt
    · rw [hpeq, hmods] at hx
      have hdl :
          (planFor {} modsAndOptCatalogs {} {} { path := "mods", enforced := true, restartRequired := false }).downloads ++
            (planFor {} modsAndOptCatalogs {} {}
              { path := "mods", enforced := true, restartRequired := false }).createdDirectories =
          ["mods/a.dll"] := by decide
      rw [hdl, List.mem_singleton] at hx
      subst hx
      have hclean : Path.sanitize "mods/a.dll" = .ok "mods/a.dll" := by decide
      rw [hclean] at hs
      cases hs
      decide
    · rw [hopt] at henf
      cases henf
  refine ⟨hkeys, hwf, hplain, hspare, fun s hs => ?_⟩
  exact (decline_applies_only_enforced modsAndOptServer {} modsAndOptCatalogs {} modsAndOpt {} hkeys).2.2.2.2.2.2.2
    hwf ["game"] hplain hspare s hs { path := "opt" } (by simp [modsAndOpt]) rfl

/-- Declining from idle, where a session rests between syncs, is refused even
when nothing enforced is left to apply: idle is no legal step from idle. -/
theorem decline_refused_from_idle :
    SyncSession.decline modsAndOptServer (planSync {} {} {} modsAndOpt {}) freshClient =
      .error (.invalidTransition .idle .idle) freshClient := by
  have hempty : (planSync {} {} {} modsAndOpt {}).enforcedOnly.isEmpty = true := by decide
  unfold SyncSession.decline
  rw [if_pos hempty, estate_bind_error (SyncSession.transition_of_cannot (by decide))]
  rfl

/-- Catalogs whose enforced path lists the snapshot file itself. -/
def snapshotCatalogs : CatalogSet :=
  CatalogSet.empty.add "mods" (PathCatalog.empty.add "ModSync_Data/PreviousSync.json" (.file "x"))

/-- The snapshot an earlier sync left of the optional path. -/
def optSnapshot : CatalogSet := CatalogSet.empty.add "opt" (PathCatalog.empty.add "opt/a.dll" (.file "h"))

/-- Catalogs as the snapshot file holds them: their pretty JSON text. -/
def snapshotBytes (S : CatalogSet) : ByteArray := (Json.renderPretty (catalogSetCodec.toJson S)).toUTF8

/-- An install at the root that holds that snapshot and the lock file of the
earlier sync, waiting for a decision on a plan. -/
def snapshotClient : SyncSession Unit :=
  { root := ⟨nativeOf []⟩, settings := {}, remote := (), phase := .awaitingConfirmation,
    tree := ⟨[(["ModSync_Data"], .dir), (["ModSync_Data", "PreviousSync.json"], .file (snapshotBytes optSnapshot)),
      (["ModSync_Data", "sync.lock"], .file .empty)]⟩ }

/-- A server with those catalogs that serves every file as an empty snapshot. -/
def snapshotServer : Remote Unit :=
  { modsAndOptServer with
    hashes := fun u _ => (.ok snapshotCatalogs, u), fetch := fun u _ => (.ok (snapshotBytes .empty), u) }

theorem installed_snapshotClient : SyncSession.InstalledAt [] snapshotClient := ⟨rfl, by decide, rfl⟩

open SyncSession in
/-- An enforced download in place of the snapshot file replaces the snapshot
before the commit reads it back: declining then loses the snapshot's catalog
of the optional path, which no committed catalog restores. -/
theorem decline_loses_optional_snapshot :
    (modsAndOpt.map fun u => catalogKey u.path).Nodup ∧ snapshotCatalogs.WF ∧
      ¬ (∀ p ∈ (planSync {} snapshotCatalogs {} modsAndOpt {}).plans, p.spec.enforced = true → p.SparesSnapshot) ∧
      InstalledAt [] snapshotClient ∧
      ((final (decline snapshotServer (planSync {} snapshotCatalogs {} modsAndOpt {}) snapshotClient)).data.loadPrevious
          (final (decline snapshotServer (planSync {} snapshotCatalogs {} modsAndOpt {}) snapshotClient)).tree).map
          (·.get "opt") = .ok none ∧
      (snapshotClient.data.loadPrevious snapshotClient.tree).map (·.get "opt") =
        .ok (some (PathCatalog.empty.add "opt/a.dll" (.file "h"))) := by
  have hroot : ∀ n ∈ ([] : List String), PlainName n := by simp
  have hinst := installed_snapshotClient
  have hcat : snapshotCatalogs.WF :=
    CatalogSet.wf_empty.add "mods" (PathCatalog.wf_empty.add "ModSync_Data/PreviousSync.json" _)
  -- the enforced plan downloads the snapshot file in place
  have hunspared : ¬ (∀ p ∈ (planSync {} snapshotCatalogs {} modsAndOpt {}).plans, p.spec.enforced = true →
      p.SparesSnapshot) := fun h =>
    h _ (List.getElem_mem (by decide : 0 < (planSync {} snapshotCatalogs {} modsAndOpt {}).plans.length))
      (by decide) (by decide) "ModSync_Data/PreviousSync.json" (by decide) "ModSync_Data/PreviousSync.json"
      (by decide) (by decide)
  have hdecline : decline snapshotServer (planSync {} snapshotCatalogs {} modsAndOpt {}) snapshotClient =
      apply snapshotServer (planSync {} snapshotCatalogs {} modsAndOpt {}).enforcedOnly snapshotClient := by
    have hne : (planSync {} snapshotCatalogs {} modsAndOpt {}).enforcedOnly.isEmpty = false := by decide
    unfold decline
    rw [if_neg (by simp [hne])]
  have hlock : snapshotClient.data.acquireLock snapshotClient.tree = .ok snapshotClient.tree :=
    acquireLock_of_lockFile hroot hinst.tree (c := .empty) rfl
  have henter := enterTransfer_eq_ok (by decide) hlock (stagingExists_of_absent hroot hinst.tree rfl)
  have hunits : TransferManager.units
      { live := snapshotClient.root, staging := snapshotClient.data.staging,
        concurrency := snapshotClient.settings.downloadConcurrency, retry := snapshotClient.settings.retry }
      (planSync {} snapshotCatalogs {} modsAndOpt {}).enforcedOnly =
      .ok [{ relative := "ModSync_Data/PreviousSync.json", destination := "$ROOT/ModSync_Data/PreviousSync.json",
             staged := false }] := by
    decide
  have hdirs : ∀ p ∈ (planSync {} snapshotCatalogs {} modsAndOpt {}).enforcedOnly.plans,
      p.createdDirectories = [] := by
    decide
  have hwrite := hinst.tree.replaceFile_of_file
    (by decide : ∀ n ∈ ["ModSync_Data", "PreviousSync.json"], PlainName n) (by simp)
    (show snapshotClient.tree.find? ["ModSync_Data", "PreviousSync.json"] = some (.file (snapshotBytes optSnapshot))
      from rfl) (snapshotBytes .empty)
  rw [show nativeOf ["ModSync_Data", "PreviousSync.json"] = "$ROOT/ModSync_Data/PreviousSync.json" by decide]
    at hwrite
  obtain ⟨run, report, hrun, htree, hout⟩ := TransferManager.execute_single hunits hdirs
    (show snapshotServer.fetch () "ModSync_Data/PreviousSync.json" = (.ok (snapshotBytes .empty), ()) from rfl)
    hwrite
  have hwf : run.tree.WF := (TransferManager.execute_editsBelow (rootsBelow_session hroot rfl) hrun hinst.tree rfl).1
  have hwritten : run.tree.find? ([] ++ [dataDirName] ++ ["PreviousSync.json"]) =
      some (.file (Json.renderPretty (catalogSetCodec.toJson .empty)).toUTF8) := by
    rw [htree]
    exact FileTree.find?_put_self (by simp) _
  have hopt : (planSync {} snapshotCatalogs {} modsAndOpt {}).enforcedOnly.remote.get "opt" = none := by decide
  refine ⟨by decide, hcat, hunspared, hinst, ?_, ?_⟩
  · rw [hdecline, apply_reads_snapshot_as_downloaded hroot snapshotServer
      (PlanSet.wf_enforcedOnly_remote (wf_planSync_remote hcat _ _)) hinst henter hrun hout hopt]
    show Except.map _ ((DataDir.forRoot ⟨nativeOf []⟩).loadPrevious _) = _
    rw [loadPrevious_of_rendered hroot hwf hwritten, CatalogSet.ofJson_toJson CatalogSet.wf_empty]
    rfl
  · have hstored : snapshotClient.tree.find? ([] ++ [dataDirName] ++ ["PreviousSync.json"]) =
        some (.file (Json.renderPretty (catalogSetCodec.toJson optSnapshot)).toUTF8) := rfl
    show Except.map _ ((DataDir.forRoot ⟨nativeOf []⟩).loadPrevious _) = _
    rw [loadPrevious_of_rendered hroot hinst.tree hstored, CatalogSet.ofJson_toJson (s := optSnapshot)
      (CatalogSet.wf_empty.add "opt" (PathCatalog.wf_empty.add "opt/a.dll" _))]
    decide

/-- A decline is not always what it is said to be: from idle it is refused,
and an enforced download in place of the snapshot file loses the snapshot of
an optional path. -/
theorem decline_refused_from_idle_and_loses_optional_snapshot :
    SyncSession.decline modsAndOptServer (planSync {} {} {} modsAndOpt {}) freshClient =
        .error (.invalidTransition .idle .idle) freshClient ∧
      ((modsAndOpt.map fun u => catalogKey u.path).Nodup ∧ snapshotCatalogs.WF ∧
        ¬ (∀ p ∈ (planSync {} snapshotCatalogs {} modsAndOpt {}).plans, p.spec.enforced = true → p.SparesSnapshot) ∧
        SyncSession.InstalledAt [] snapshotClient ∧
        ((SyncSession.final (SyncSession.decline snapshotServer (planSync {} snapshotCatalogs {} modsAndOpt {})
            snapshotClient)).data.loadPrevious
            (SyncSession.final (SyncSession.decline snapshotServer (planSync {} snapshotCatalogs {} modsAndOpt {})
              snapshotClient)).tree).map (·.get "opt") = .ok none ∧
        (snapshotClient.data.loadPrevious snapshotClient.tree).map (·.get "opt") =
          .ok (some (PathCatalog.empty.add "opt/a.dll" (.file "h")))) :=
  ⟨decline_refused_from_idle, decline_loses_optional_snapshot⟩

end ModMirror
