import Mathlib
import ModMirror.Proofs.Containment
import ModMirror.Proofs.CommitEffect

/-!
# An apply that goes through

Conditions under which each step of an apply succeeds, and the session it
leaves. Where an earlier sync left its lock file, taking the lock changes
nothing; a batch of one unit whose fetch answers writes that unit's file and
ends with the token down; a transfer whose downloads complete goes on to
finish the plans; an apply that has entered the transfer phase is its
transfer with the lock let go after it. A snapshot file that holds the pretty
JSON text of catalogs loads as them.

With these equations a sync on a given install runs one step after another,
each file operation taken from a lemma about well-formed trees rather than
evaluated.
-/

namespace ModMirror

namespace FileTree

section Success

variable {t : FileTree} (ht : t.WF) {D : List String} (hD : ∀ n ∈ D, PlainName n)
include ht hD

theorem WF.createDirAll_of_dir (h : t.find? D = some .dir) : t.createDirAll (nativeOf D) = .ok t := by
  have hres := ht.resolve_nativeOf_of_find? hD h
  have hcreate : t.createDir (nativeOf D) = .error (.os EEXIST) := by
    simp [createDir, hres false, h, bind, Except.bind, throw, throwThe, MonadExceptOf.throw]
  have hdir : t.isDir (nativeOf D) = true := by
    simp [isDir, metadata, hres true, h, bind, Except.bind, pure, Except.pure]
  unfold createDirAll
  rw [createDirAll.go]
  simp [hcreate, hdir, show EEXIST ≠ ENOENT by decide]

theorem WF.replaceFile_of_file (hne : D ≠ []) {c₀ : ByteArray} (h : t.find? D = some (.file c₀)) (c : ByteArray) :
    replaceFile t (nativeOf D) c = .ok (t.put D (.file c)) := by
  obtain ⟨D', m, rfl⟩ := (List.eq_nil_or_concat D).resolve_left hne
  rw [List.concat_eq_append] at hD h ⊢
  have hD' : ∀ x ∈ D', PlainName x := fun x hx => hD x (List.mem_append_left _ hx)
  have hpar : t.find? D' = some .dir := ht.find?_dir_of_prefix (mem_of_find? (by simp) h) (by simp)
  unfold replaceFile ensureParent
  rw [parentText_nativeOf_snoc hD' (hD m (by simp))]
  simp [ht.createDirAll_of_dir hD' hpar, Except.mapError, bind, Except.bind, replaceContent,
    ht.resolve_nativeOf_of_find? hD h false, h, pure, Except.pure]

theorem WF.touch_of_file {c : ByteArray} (h : t.find? D = some (.file c)) : touch t (nativeOf D) = .ok t := by
  unfold touch
  simp [metadata, ht.resolve_nativeOf_of_find? hD h true, h, bind, Except.bind, pure, Except.pure]

end Success

end FileTree

section DataSuccess

variable {bs : List String} (hbs : ∀ n ∈ bs, PlainName n) {t : FileTree} (ht : t.WF)
include hbs ht

/-- With the lock file of an earlier sync still there, taking the lock
changes nothing. -/
theorem acquireLock_of_lockFile {c : ByteArray} (h : t.find? (bs ++ [dataDirName] ++ ["sync.lock"]) = some (.file c)) :
    (DataDir.forRoot ⟨nativeOf bs⟩).acquireLock t = .ok t := by
  have hD := plain_dataDir hbs
  -- the data directory holds the lock file, so it is a directory already
  have hdir : t.find? (bs ++ [dataDirName]) = some .dir :=
    ht.find?_dir_of_prefix (FileTree.mem_of_find? (by simp) h) (by simp)
  exact (acquireLock_eq_ok_iff hbs).mpr
    ⟨t, ht.createDirAll_of_dir hD hdir, ht.touch_of_file (plain_append hD (by simpa using plainName_syncLock)) h⟩

theorem stagingExists_of_absent (h : t.find? (bs ++ [dataDirName] ++ ["PendingUpdates"]) = none) :
    (DataDir.forRoot ⟨nativeOf bs⟩).stagingExists t = false := by
  unfold DataDir.stagingExists
  rw [forRoot_staging hbs]
  exact ht.pathExists_of_find?_none (plain_staging hbs) h

theorem loadPrevious_of_rendered {S : CatalogSet}
    (h : t.find? (bs ++ [dataDirName] ++ ["PreviousSync.json"]) =
      some (.file (Json.renderPretty (catalogSetCodec.toJson S)).toUTF8)) :
    (DataDir.forRoot ⟨nativeOf bs⟩).loadPrevious t = .ok (CatalogSet.ofJson S.toJson) := by
  obtain ⟨rest, hstart⟩ : ∃ rest, (Json.renderPretty (catalogSetCodec.toJson S)).toList = '{' :: rest :=
    toList_renderAt_obj 0 _
  have hp := forRoot_join hbs DataDir.plainName_previousSync
  have hjson : ConfigFormat.ofPath ((DataDir.forRoot ⟨nativeOf bs⟩).dir.join "PreviousSync.json") = .ok .json := by
    rw [hp, ofPath_nativeOf (plain_dataDir hbs) DataDir.plainName_previousSync]
    decide
  unfold DataDir.loadPrevious DataDir.readState DataDir.previousSync
  rw [ht.loadIfExists_of_file (plain_append (plain_dataDir hbs) (by simpa using DataDir.plainName_previousSync))
    (congrArg NormalPath.text hp) h, hjson]
  simp only [bind, Except.bind, Codec.parse_json_of_readText catalogSetCodec _ (by decide) hstart
    (Json.readText_renderPretty (readsBack_catalogSet S (by norm_num) 0)), Except.map, Except.mapError]
  rfl

end DataSuccess

namespace TransferBatch

variable {σ : Type} {m : TransferManager} {fetch : Fetch σ}

theorem run_advance_written {b : TransferBatch σ} {i : Nat} {k : UnitTask} {bytes : ByteArray}
    (hk : b.tasks[i]? = some k) (hw : k.stage = .written bytes) (n : Nat) :
    b.run m fetch (List.replicate n (.advance i)) = b := by
  induction n with
  | zero => rfl
  | succ n ih =>
    rw [List.replicate_succ, run_cons]
    have hstep : b.step m fetch (.advance i) = b := by
      simp only [step, advance, hk, hw]
    rw [hstep, ih]

end TransferBatch

namespace TransferManager

variable {σ : Type} {m : TransferManager} {fetch : Fetch σ}

/-- A batch of one unit whose fetch answers and whose write succeeds writes
the unit's file and ends with the token down. -/
theorem runBatch_single {u : TransferUnit} {source source' : σ} {bytes : ByteArray} {t t' : FileTree}
    (hfetch : fetch source u.relative = (.ok bytes, source')) (hwrite : replaceFile t u.destination bytes = .ok t') :
    (m.runBatch fetch [u] source false [] t).cancelled = false ∧
      (m.runBatch fetch [u] source false [] t).tree = t' := by
  let b₀ : TransferBatch σ := { tree := t, source, cancelled := false, progress := { total := 1 }, waiting := [u] }
  -- the unit starts, then fetches, then writes; its remaining steps find it written
  have hevents : b₀.finishing m.retry =
      .start :: .advance 0 :: .advance 0 :: List.replicate (2 * m.retry.maxRetries) (.advance 0) := by
    have hsteps : 2 * (m.retry.maxRetries + 1) = 2 * m.retry.maxRetries + 1 + 1 := by ring
    simp [b₀, TransferBatch.finishing, TransferBatch.advanceEach, TransferBatch.startEach, hsteps,
      List.replicate_succ]
  let b₁ : TransferBatch σ := { b₀ with waiting := [], tasks := [{ unit := u }] }
  let b₂ : TransferBatch σ := { b₁ with source := source', tasks := [{ unit := u, stage := .fetched bytes }] }
  let b₃ : TransferBatch σ :=
    { b₂ with tree := t', tasks := [{ unit := u, stage := .written bytes }],
              progress := { total := 1, completed := 1 } }
  have hstart : b₀.step m fetch .start = b₁ :=
    TransferBatch.start_of_free (b := b₀) rfl rfl (by simp [b₀, capacity])
  have hfetched : b₁.step m fetch (.advance 0) = b₂ := by
    simp [b₀, b₁, b₂, TransferBatch.step, TransferBatch.advance, hfetch]
  have hwritten : b₂.step m fetch (.advance 0) = b₃ := by
    simp [b₀, b₁, b₂, b₃, TransferBatch.step, TransferBatch.advance, hwrite]
  have hrun : m.runBatch fetch [u] source false [] t = b₀.run m fetch (b₀.finishing m.retry) := rfl
  rw [hrun, hevents, TransferBatch.run_cons, hstart, TransferBatch.run_cons, hfetched, TransferBatch.run_cons,
    hwritten, TransferBatch.run_advance_written (k := { unit := u, stage := .written bytes }) rfl rfl]
  exact ⟨rfl, rfl⟩

theorem createDirectories_of_none {plans : PlanSet} (h : ∀ p ∈ plans.plans, p.createdDirectories = [])
    (t : FileTree) : m.createDirectories plans t = (0, t) := by
  unfold createDirectories
  rw [List.foldl_ext _ (fun acc _ => acc) (0, t) fun acc p hp => by rw [h p hp]; rfl]
  exact List.foldl_fixed' (fun _ => rfl) _

/-- A plan set of one download and no directory, whose fetch answers and
whose write succeeds, completes with that file written. -/
theorem execute_single {plans : PlanSet} {u : TransferUnit} (hunits : m.units plans = .ok [u])
    (hdirs : ∀ p ∈ plans.plans, p.createdDirectories = []) {source source' : σ} {bytes : ByteArray}
    {t t' : FileTree}
    (hfetch : fetch source u.relative = (.ok bytes, source')) (hwrite : replaceFile t u.destination bytes = .ok t') :
    ∃ run report, m.execute plans fetch source false [] t = .ok run ∧ run.tree = t' ∧
      run.outcome = .completed report := by
  obtain ⟨hc, htree⟩ := runBatch_single (m := m) hfetch hwrite
  simp [execute, hunits, createDirectories_of_none hdirs, bind, Except.bind, pure, Except.pure, hc, htree]

end TransferManager

namespace SyncSession

variable {σ : Type}

/-- From a phase that may move to the transfer, with the lock taken and no
staging directory left, the transfer phase is entered holding the lock. -/
theorem enterTransfer_eq_ok {s : SyncSession σ} {t₁ : FileTree} (hcan : s.phase.canTransition .transferring = true)
    (hlock : s.data.acquireLock s.tree = .ok t₁) (hstaging : s.data.stagingExists t₁ = false) :
    (enterTransfer : SessionM σ Unit) s = .ok () ({ s with tree := t₁, locked := true }.entering .transferring) := by
  unfold enterTransfer
  simp only [bind, EStateM.bind, get, getThe, MonadStateOf.get, EStateM.get, hcan, if_true, orAbort,
    MonadExcept.tryCatch, tryCatchThe, MonadExceptOf.tryCatch, EStateM.tryCatch, onTree_of_ok hlock, modify,
    modifyGet, MonadStateOf.modifyGet, EStateM.modifyGet, hstaging, Bool.false_eq_true, if_false]
  rw [transition_of_can (s := { s with tree := t₁, locked := true }) hcan]

/-- A transfer whose downloads complete goes on to finish the plans, from
the session holding what the downloads left. -/
theorem transfer_of_completed {r : Remote σ} {plans : PlanSet} {s : SyncSession σ} {run : TransferRun σ}
    {report : TransferReport}
    (hrun : TransferManager.execute
      { live := s.root, staging := s.data.staging, concurrency := s.settings.downloadConcurrency,
        retry := s.settings.retry } plans r.fetch s.remote s.cancelled s.schedule s.tree = .ok run)
    (hout : run.outcome = .completed report) :
    transfer r plans s = finish plans report
      { s with tree := run.tree, remote := run.source, cancelled := run.cancelled, progress := run.progress } := by
  unfold transfer
  simp only [bind, EStateM.bind, get, getThe, MonadStateOf.get, EStateM.get, set, MonadStateOf.set, EStateM.set,
    hrun, modify, modifyGet, MonadStateOf.modifyGet, EStateM.modifyGet, hout]

/-- Once the transfer phase is entered, an apply is its transfer, with the
lock let go after it however it ends. -/
theorem apply_of_enterTransfer {r : Remote σ} {plans : PlanSet} {s s₁ : SyncSession σ}
    (h : (enterTransfer : SessionM σ Unit) s = .ok () s₁) :
    apply r plans s = (do
      let outcome ← tryCatch (transfer r plans) fun e => do releaseLock; throw e
      releaseLock
      pure outcome) s₁ := by
  unfold apply
  rw [estate_bind_ok h]

theorem releasing_congr {x y : SessionM σ SyncOutcome} {s s' : SyncSession σ} (h : x s = y s') :
    (do
      let outcome ← tryCatch x fun e => do releaseLock; throw e
      releaseLock
      pure outcome) s =
    (do
      let outcome ← tryCatch y fun e => do releaseLock; throw e
      releaseLock
      pure outcome) s' := by
  simp only [bind, EStateM.bind, MonadExcept.tryCatch, tryCatchThe, MonadExceptOf.tryCatch, EStateM.tryCatch, h]

end SyncSession

end ModMirror
