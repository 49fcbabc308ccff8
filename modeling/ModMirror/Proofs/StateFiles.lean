import ModMirror.Proofs.Decline

/-!
# Only a commit writes the state files

The snapshot and the removal manifest are the state files of an install. A
session writes them by a commit and by nothing else, and it commits in two
places only: in a check whose plan is empty, and after a transfer that
completed. Fetching, planning, taking the lock, refused and failed steps, a
transfer that fails or is cancelled, and clearing the staging directory leave
both files byte for byte as they were. That asks of the server that its
downloads do not land on them (`SyncPlan.SparesDataFile`): a download is
written in place wherever its path says.

For one call on an install at the plain path `rs`:

    StateFilesAs rs s.tree (afterCall r c s).tree
      ∨ c is a check whose plan is empty, and the files differ from the ones
        the check found only as its commit left them
      ∨ c applies plans whose transfer completed, and the files differ from
        the downloaded ones only as the commit left them
                                                          (afterCall_state_files)

and over a run of calls the state files stay as they were unless one of the
calls commits (`afterCalls_state_files`).
-/

namespace ModMirror

/-! ## The state files of an install -/

/-- The files a commit writes, by name in the data directory. -/
def stateFileNames : List String := ["PreviousSync.json", "RemovedFiles.json"]

/-- `t` holds at the state files of the install at `rs` what `t₀` held there. -/
def StateFilesAs (rs : List String) (t₀ t : FileTree) : Prop :=
  ∀ n ∈ stateFileNames, t.find? (rs ++ [dataDirName] ++ [n]) = t₀.find? (rs ++ [dataDirName] ++ [n])

namespace StateFilesAs

variable {rs : List String} {t₁ t₂ t₃ : FileTree}

theorem refl (rs : List String) (t : FileTree) : StateFilesAs rs t t := fun _ _ => rfl

theorem trans (h₁₂ : StateFilesAs rs t₁ t₂) (h₂₃ : StateFilesAs rs t₂ t₃) : StateFilesAs rs t₁ t₃ :=
  fun n hn => (h₂₃ n hn).trans (h₁₂ n hn)

end StateFilesAs

theorem mem_stateFileNames {n : String} : n ∈ stateFileNames ↔ n = "PreviousSync.json" ∨ n = "RemovedFiles.json" := by
  simp [stateFileNames]

section Frames

variable {bs : List String} (hbs : ∀ n ∈ bs, PlainName n) {t t' : FileTree} (ht : t.WF)
include hbs ht

theorem stateFilesAs_acquireLock (h : (DataDir.forRoot ⟨nativeOf bs⟩).acquireLock t = .ok t') :
    StateFilesAs bs t t' := by
  intro n hn
  refine acquireLock_frame hbs ht h (fun hpre => ?_) ?_
  · -- a state file lies below the data directory, not above it
    simpa using hpre.length_le
  · rcases mem_stateFileNames.mp hn with rfl | rfl <;> simp

theorem stateFilesAs_clearStaging
    (h : ((DataDir.forRoot ⟨nativeOf bs⟩).clearStaging t).map Prod.snd = .ok t') : StateFilesAs bs t t' := by
  intro n hn
  refine clearStaging_frame hbs ht h ?_
  rw [List.prefix_append_right_inj]
  rcases mem_stateFileNames.mp hn with rfl | rfl <;> simp

/-- Saving a file of the data directory that is neither a state file nor the
lock of one keeps the state files. -/
theorem stateFilesAs_save {α : Type} {codec : Codec α} {m : String} (hm : PlainName m)
    (hne : ∀ n ∈ stateFileNames, n ≠ m ∧ n ≠ m ++ ".lock") {v : α}
    (h : codec.save t ((DataDir.forRoot ⟨nativeOf bs⟩).dir.join m) v = .ok t') : StateFilesAs bs t t' := by
  obtain ⟨-, -, -, -, -, -, hframe⟩ :=
    ht.save_spec (plain_dataDir hbs) hm (congrArg NormalPath.text (forRoot_join hbs hm)) h
  intro n hn
  obtain ⟨hnm, hnl⟩ := hne n hn
  exact hframe _ (fun hpre => by simpa using hpre.length_le) (by simpa using hnm) (by simpa using hnl)

theorem stateFilesAs_saveLocalHashes {loc : CatalogSet}
    (h : (DataDir.forRoot ⟨nativeOf bs⟩).saveLocalHashes t loc = .ok t') : StateFilesAs bs t t' :=
  stateFilesAs_save hbs ht (by decide) (by decide) (mapError_eq_ok.mp h)

theorem stateFilesAs_loadLocalExclusions {headless : Bool} {patterns : List String}
    (h : (DataDir.forRoot ⟨nativeOf bs⟩).loadLocalExclusions t headless = .ok (patterns, t')) :
    StateFilesAs bs t t' := by
  rcases DataDir.loadLocalExclusions_cases h with hl | rfl
  · rcases Codec.loadOrInit_eq_ok hl with ⟨-, rfl⟩ | ⟨-, -, hs⟩
    · exact .refl bs _
    · exact stateFilesAs_save hbs ht (by decide) (by decide) hs
  · exact .refl bs _

end Frames

/-! ## Downloads that spare the state files -/

namespace SessionCall

/-- The plans a call applies, if it applies any: an apply its plans, a
decline the enforced part of its plans when that is not empty. -/
def applied : SessionCall → Option PlanSet
  | apply plans => some plans
  | decline plans => if plans.enforcedOnly.isEmpty then none else some plans.enforcedOnly
  | check | cancel => none

/-- No plan the call applies downloads onto a state file. -/
def SparesStateFiles (c : SessionCall) : Prop :=
  ∀ plans, c.applied = some plans → ∀ p ∈ plans.plans, ∀ n ∈ stateFileNames, p.SparesDataFile n

end SessionCall

namespace SyncSession

variable {σ : Type}

/-! ## Where a session commits -/

/-- The first part of a check: the server's state is fetched and a plan is
made. -/
def checkPlans (r : Remote σ) : SessionM σ (RemoteState × PlanSet) := do
  transition .fetchingRemoteState
  modify fun s => { s with cancelled := false }
  let fetched ← orAbort (fetchRemoteState r)
  transition .diffing
  let plans ← orAbort (diff fetched)
  pure (fetched, plans)

/-- The rest of a check: an empty plan is committed at once, any other waits
to be confirmed. -/
def settle (fetched : RemoteState) (plans : PlanSet) : SessionM σ SyncCheck := do
  if plans.isEmpty then
    transition .noChanges
    let d := (← get).data
    orAbort (onFiles (d.commit plans.remote []))
    transition .idle
  else
    transition .planReady
    let headless := (← get).settings.headless
    transition (if plans.isSilent headless then .silentApply else .awaitingConfirmation)
  pure ⟨fetched.version, plans⟩

theorem check_eq (r : Remote σ) : check r = checkPlans r >>= fun fp => settle fp.1 fp.2 := by
  simp only [check, checkPlans, settle, bind_assoc, pure_bind]

/-- The downloads of plans, run by a session in the transfer phase. -/
def download (s : SyncSession σ) (r : Remote σ) (plans : PlanSet) : Except SyncError (TransferRun σ) :=
  TransferManager.execute
    { live := s.root, staging := s.data.staging, concurrency := s.settings.downloadConcurrency,
      retry := s.settings.retry } plans r.fetch s.remote s.cancelled s.schedule s.tree

theorem transfer_of_failed {r : Remote σ} {plans : PlanSet} {s : SyncSession σ} {e : SyncError}
    (hrun : s.download r plans = .error e) : transfer r plans s = abort e { s with progress := {} } := by
  unfold transfer
  unfold download at hrun
  simp only [bind, EStateM.bind, get, getThe, MonadStateOf.get, EStateM.get, set, MonadStateOf.set, EStateM.set,
    hrun]

theorem transfer_of_cancelled {r : Remote σ} {plans : PlanSet} {s : SyncSession σ} {run : TransferRun σ}
    {completed inPlace : Nat} {failures : List TransferFailure} (hrun : s.download r plans = .ok run)
    (hout : run.outcome = .cancelled completed inPlace failures) :
    transfer r plans s = rollBack completed inPlace failures
      { s with tree := run.tree, remote := run.source, cancelled := run.cancelled, progress := run.progress } := by
  unfold transfer
  unfold download at hrun
  simp only [bind, EStateM.bind, get, getThe, MonadStateOf.get, EStateM.get, set, MonadStateOf.set, EStateM.set,
    hrun, modify, modifyGet, MonadStateOf.modifyGet, EStateM.modifyGet, hout]

/-- A step after a transition: refused, it leaves the session as it was;
otherwise the step runs in the phase entered. -/
theorem final_transition_bind {β : Type} (next : SyncPhase) (k : Unit → SessionM σ β) (s : SyncSession σ) :
    final ((transition next >>= k) s) = s ∨ final ((transition next >>= k) s) = final (k () (s.entering next)) := by
  cases hcan : s.phase.canTransition next with
  | false => exact .inl (by rw [estate_bind_error (transition_of_cannot hcan)]; rfl)
  | true => exact .inr (by rw [estate_bind_ok (transition_of_can hcan)])

/-- Letting the lock go after a step keeps the files the step ended with. -/
theorem final_releasing (x : SessionM σ SyncOutcome) (s : SyncSession σ) :
    (final ((do
      let outcome ← tryCatch x fun e => do releaseLock; throw e
      releaseLock
      pure outcome) s)).tree = (final (x s)).tree := by
  simp only [releaseLock, bind, EStateM.bind, MonadExcept.tryCatch, tryCatchThe, MonadExceptOf.tryCatch,
    EStateM.tryCatch, modify, modifyGet, MonadStateOf.modifyGet, EStateM.modifyGet]
  cases x s <;> rfl

/-! ## Steps read at the session they start from -/

section At

variable {α β : Type} {I : NormalPath → FileTree → Prop} {s : SyncSession σ}

theorem ends_get_bind {f : SyncSession σ → SessionM σ α} (h : I (final (f s s)).root (final (f s s)).tree) :
    I (final ((get >>= f) s)).root (final ((get >>= f) s)).tree := h

theorem ends_lift_bind {r : Except SyncError α} {k : α → SessionM σ β} (hs : I s.root s.tree)
    (hk : ∀ a, r = .ok a → I (final (k a s)).root (final (k a s)).tree) :
    I (final ((lift r >>= k) s)).root (final ((lift r >>= k) s)).tree := by
  cases r with
  | ok a => exact hk a rfl
  | error e => exact hs

theorem ends_modify_bind {f : SyncSession σ → SyncSession σ} {k : Unit → SessionM σ β}
    (hf : I (f s).root (f s).tree) (hk : Maintains I (k ())) :
    I (final ((modify f >>= k) s)).root (final ((modify f >>= k) s)).tree :=
  hk.ends (f s) hf

end At

/-! ## Steps that keep the state files -/

/-- The install at `rs`, holding at its state files what `t₀` held. -/
structure StateKept (rs : List String) (t₀ : FileTree) (home : NormalPath) (t : FileTree) : Prop where
  root : home = ⟨nativeOf rs⟩
  tree : t.WF
  dir : t.find? rs = some .dir
  files : StateFilesAs rs t₀ t

section Kept

variable {rs : List String} (hrs : ∀ n ∈ rs, PlainName n) {t₀ : FileTree} {home : NormalPath} {t t' : FileTree}
include hrs

omit hrs in
theorem InstalledAt.stateKept {s : SyncSession σ} (hs : InstalledAt rs s) : StateKept rs s.tree s.root s.tree :=
  ⟨hs.root, hs.tree, hs.dir, .refl rs s.tree⟩

omit hrs in
theorem StateKept.of_edit (h : StateKept rs t₀ home t) (ht' : t'.WF) (hedit : t.EditsBelow rs t')
    (hf : StateFilesAs rs t t') : StateKept rs t₀ home t' :=
  ⟨h.root, ht', hedit.find?_root.trans h.dir, h.files.trans hf⟩

theorem StateKept.acquireLock (h : StateKept rs t₀ home t)
    (hl : (DataDir.forRoot ⟨nativeOf rs⟩).acquireLock t = .ok t') : StateKept rs t₀ home t' := by
  obtain ⟨ht', hedit⟩ := acquireLock_editsBelow hrs h.tree h.dir hl
  exact h.of_edit ht' hedit (stateFilesAs_acquireLock hrs h.tree hl)

theorem StateKept.clearStaging (h : StateKept rs t₀ home t)
    (hc : ((DataDir.forRoot ⟨nativeOf rs⟩).clearStaging t).map Prod.snd = .ok t') : StateKept rs t₀ home t' := by
  obtain ⟨ht', hedit⟩ := clearStaging_editsBelow hrs h.tree hc
  exact h.of_edit ht' hedit (stateFilesAs_clearStaging hrs h.tree hc)

theorem StateKept.loadLocalExclusions (h : StateKept rs t₀ home t) {headless : Bool} {patterns : List String}
    (hl : (DataDir.forRoot ⟨nativeOf rs⟩).loadLocalExclusions t headless = .ok (patterns, t')) :
    StateKept rs t₀ home t' := by
  obtain ⟨ht', hedit⟩ := loadLocalExclusions_editsBelow hrs h.tree h.dir hl
  exact h.of_edit ht' hedit (stateFilesAs_loadLocalExclusions hrs h.tree hl)

theorem StateKept.saveLocalHashes (h : StateKept rs t₀ home t) {loc : CatalogSet}
    (hs : (DataDir.forRoot ⟨nativeOf rs⟩).saveLocalHashes t loc = .ok t') : StateKept rs t₀ home t' := by
  obtain ⟨ht', hedit⟩ := saveLocalHashes_editsBelow hrs h.tree h.dir hs
  exact h.of_edit ht' hedit (stateFilesAs_saveLocalHashes hrs h.tree hs)

/-- Downloads that spare the state files keep them. -/
theorem StateKept.download {s : SyncSession σ} (h : StateKept rs t₀ s.root s.tree) {r : Remote σ} {plans : PlanSet}
    (hsp : ∀ p ∈ plans.plans, ∀ n ∈ stateFileNames, p.SparesDataFile n) {run : TransferRun σ}
    (hrun : s.download r plans = .ok run) : StateKept rs t₀ s.root run.tree := by
  obtain ⟨ht', hedit⟩ := TransferManager.execute_editsBelow (rootsBelow_session hrs h.root) hrun h.tree h.dir
  refine h.of_edit ht' hedit fun n hn => ?_
  have hstaging : n ≠ "PendingUpdates" := by rcases mem_stateFileNames.mp hn with rfl | rfl <;> decide
  exact TransferManager.execute_frame (spares_session_dataFile hrs hstaging h.root fun p hp => hsp p hp n hn)
    hrun h.tree

theorem StateKept.commit (h : StateKept rs t₀ home t) (remote : CatalogSet) (removed : List String) :
    StateKept rs (treeAfter ((DataDir.forRoot ⟨nativeOf rs⟩).commit remote removed t)) home
      (treeAfter ((DataDir.forRoot ⟨nativeOf rs⟩).commit remote removed t)) := by
  obtain ⟨ht', hedit⟩ := commit_editsOnlyBelow hrs remote removed t h.tree h.dir
  exact ⟨h.root, ht', hedit.find?_root.trans h.dir, .refl rs _⟩

theorem maintains_diff (fetched : RemoteState) : Maintains (StateKept rs t₀) (diff fetched : SessionM σ PlanSet) := by
  unfold diff
  refine ⟨fun s₀ hs₀ => ends_get_bind ?_⟩
  have hdata : s₀.data = DataDir.forRoot ⟨nativeOf rs⟩ := congrArg DataDir.forRoot hs₀.root
  refine ends_lift_bind hs₀ fun _ _ => ends_lift_bind hs₀ fun loaded hload => ?_
  obtain ⟨patterns, t⟩ := loaded
  rw [hdata] at hload
  -- the exclusion file may be seeded; then only the local catalog is written
  refine ends_modify_bind (hs₀.loadLocalExclusions hrs hload) ?_
  refine (maintains_lift _).bind fun _ => (maintains_lift _).bind fun _ => ?_
  refine (maintains_onTree fun home t t' hI h => ?_).bind fun _ => maintains_pure _
  rw [hdata] at h
  exact hI.saveLocalHashes hrs h

theorem maintains_checkPlans (r : Remote σ) : Maintains (StateKept rs t₀) (checkPlans r) := by
  unfold checkPlans
  refine (maintains_transition _).bind fun _ => (maintains_modify fun _ h => by exact h).bind fun _ => ?_
  refine (maintains_fetchRemoteState r).orAbort.bind fun fetched => (maintains_transition _).bind fun _ => ?_
  exact (maintains_diff hrs fetched).orAbort.bind fun plans => maintains_pure _

omit hrs in
theorem maintains_settle_of_nonempty (fetched : RemoteState) {plans : PlanSet} (hne : plans.isEmpty = false) :
    Maintains (StateKept rs t₀) (settle fetched plans : SessionM σ SyncCheck) := by
  unfold settle
  rw [hne, if_neg Bool.false_ne_true]
  refine (maintains_transition _).bind fun _ => maintains_get.bind fun _ => ?_
  exact (maintains_transition _).bind fun _ => maintains_pure _

/-- An empty plan is committed, unless the session may not enter the phase in
which it commits: the files end as they were, or as the commit left them. -/
theorem settle_of_empty (fetched : RemoteState) {plans : PlanSet} (hempty : plans.isEmpty = true)
    {s : SyncSession σ} (hs : StateKept rs t₀ s.root s.tree) :
    StateFilesAs rs t₀ (final (settle fetched plans s)).tree ∨
      StateKept rs (treeAfter (s.data.commit plans.remote [] s.tree)) (final (settle fetched plans s)).root
        (final (settle fetched plans s)).tree := by
  unfold settle
  rw [hempty, if_pos rfl]
  rcases final_transition_bind .noChanges _ s with h | h
  · rw [h]
    exact .inl hs.files
  rw [h]
  have hdata : s.data = DataDir.forRoot ⟨nativeOf rs⟩ := congrArg DataDir.forRoot hs.root
  refine .inr (ends_get_bind (Maintains.after_orAbort_onFiles
    (fun _ => (maintains_transition _).bind fun _ => maintains_pure _) ?_))
  rw [entering_data, entering_tree, hdata]
  exact hs.commit hrs _ _

/-- A finished transfer commits, unless the session may not enter the phases
in which it commits: the files end as they were, or as the commit left them,
with the staging directory cleared. -/
theorem finish_state_files {s : SyncSession σ} (hs : StateKept rs t₀ s.root s.tree) (plans : PlanSet)
    (report : TransferReport) :
    StateFilesAs rs t₀ (final (finish plans report s)).tree ∨
      StateKept rs (treeAfter (s.data.commit plans.remote plans.removedFiles s.tree))
        (final (finish plans report s)).root (final (finish plans report s)).tree := by
  unfold finish
  rcases final_transition_bind .success _ s with h | h
  · rw [h]
    exact .inl hs.files
  rw [h]
  rcases final_transition_bind .commitAndMaybeRestart _ (s.entering .success) with h' | h'
  · rw [h']
    exact .inl hs.files
  rw [h']
  have hdata : s.data = DataDir.forRoot ⟨nativeOf rs⟩ := congrArg DataDir.forRoot hs.root
  refine .inr (ends_get_bind (Maintains.after_orAbort_onFiles (fun _ => ?_) ?_))
  · -- the staging directory is cleared beside the state files
    dsimp only
    split
    · exact (maintains_transition _).bind fun _ => maintains_pure _
    · refine (maintains_onTree fun home t t' hI hc => ?_).orAbort.bind fun _ =>
        (maintains_transition _).bind fun _ => maintains_pure _
      rw [entering_data, entering_data, hdata] at hc
      exact hI.clearStaging hrs hc
  · rw [entering_data, entering_data, entering_tree, entering_tree, hdata]
    exact hs.commit hrs _ _

/-- A check keeps the state files, unless its plan is empty: then the files
end as its commit left them. -/
theorem check_state_files (r : Remote σ) {s : SyncSession σ} (hs : InstalledAt rs s) :
    StateFilesAs rs s.tree (final (check r s)).tree ∨
      ∃ fetched plans s₁, checkPlans r s = .ok (fetched, plans) s₁ ∧ plans.isEmpty = true ∧
        StateFilesAs rs s.tree s₁.tree ∧
        StateFilesAs rs (treeAfter (s.data.commit plans.remote [] s₁.tree)) (final (check r s)).tree := by
  rw [check_eq]
  cases hp : checkPlans r s with
  | error e s₁ =>
    have h₁ : StateKept rs s.tree s₁.root s₁.tree := (maintains_checkPlans hrs r).ends_of_eq hs.stateKept hp
    rw [estate_bind_error hp]
    exact .inl h₁.files
  | ok fp s₁ =>
    obtain ⟨fetched, plans⟩ := fp
    have h₁ : StateKept rs s.tree s₁.root s₁.tree := (maintains_checkPlans hrs r).ends_of_eq hs.stateKept hp
    rw [estate_bind_ok hp]
    cases hempty : plans.isEmpty
    · exact .inl ((maintains_settle_of_nonempty fetched hempty).ends s₁ h₁).files
    · -- nothing to do: the remote catalogs are committed at once
      have hdata : s₁.data = s.data := data_eq_of_root (h₁.root.trans hs.root.symm)
      rcases settle_of_empty hrs fetched hempty h₁ with h | h
      · exact .inl h
      · refine .inr ⟨fetched, plans, s₁, rfl, hempty, h₁.files, ?_⟩
        rw [← hdata]
        exact h.files

/-- An apply keeps the state files, unless its transfer completes: then the
files end as the commit left the downloaded ones. -/
theorem apply_state_files (r : Remote σ) {plans : PlanSet}
    (hsp : ∀ p ∈ plans.plans, ∀ n ∈ stateFileNames, p.SparesDataFile n) {s : SyncSession σ} (hs : InstalledAt rs s) :
    StateFilesAs rs s.tree (final (apply r plans s)).tree ∨
      ∃ s₁ run report, (enterTransfer : SessionM σ Unit) s = .ok () s₁ ∧ s₁.download r plans = .ok run ∧
        run.outcome = .completed report ∧ StateFilesAs rs s.tree run.tree ∧
        StateFilesAs rs (treeAfter (s.data.commit plans.remote plans.removedFiles run.tree))
          (final (apply r plans s)).tree := by
  have hkept : Maintains (StateKept rs s.tree) (enterTransfer : SessionM σ Unit) :=
    maintains_enterTransfer_of (fun _ _ h => h.root) fun _ _ _ hI h => hI.acquireLock hrs h
  cases he : (enterTransfer : SessionM σ Unit) s with
  | error e s₁ =>
    have h₁ : StateKept rs s.tree s₁.root s₁.tree := hkept.ends_of_eq hs.stateKept he
    unfold apply
    rw [estate_bind_error he]
    exact .inl h₁.files
  | ok u s₁ =>
    have h₁ : StateKept rs s.tree s₁.root s₁.tree := hkept.ends_of_eq hs.stateKept he
    have hdata : s₁.data = s.data := data_eq_of_root (h₁.root.trans hs.root.symm)
    rw [apply_of_enterTransfer he]
    cases hrun : s₁.download r plans with
    | error e =>
      rw [releasing_congr (transfer_of_failed hrun)]
      exact .inl ((maintains_releasing (maintains_abort e)).ends { s₁ with progress := {} } h₁).files
    | ok run =>
      have h₂ : StateKept rs s.tree s₁.root run.tree := h₁.download hrs hsp hrun
      cases hout : run.outcome with
      | cancelled completed inPlace failures =>
        rw [releasing_congr (transfer_of_cancelled hrun hout)]
        exact .inl ((maintains_releasing (maintains_rollBack_of (I := StateKept rs s.tree) (fun _ _ h => h.root)
          (fun _ _ _ hI h => hI.clearStaging hrs h) completed inPlace failures)).ends _ h₂).files
      | completed report =>
        rw [releasing_congr (transfer_of_completed hrun hout), final_releasing]
        rcases finish_state_files hrs
          (s := { s₁ with tree := run.tree, remote := run.source, cancelled := run.cancelled, progress := run.progress })
          h₂ plans report with h | h
        · exact .inl h
        · refine .inr ⟨s₁, run, report, rfl, hrun, hout, h₂.files, ?_⟩
          rw [← hdata]
          exact h.files

end Kept

end SyncSession

/-! ## Calls and runs of calls -/

/-- Making call `c` on `s` reaches a commit: `c` is a check whose plan is
empty, or it applies plans and their transfer completes. -/
def SessionCall.Commits {σ : Type} (r : Remote σ) (s : SyncSession σ) (c : SessionCall) : Prop :=
  (c = .check ∧ ∃ fetched plans s₁, SyncSession.checkPlans r s = .ok (fetched, plans) s₁ ∧ plans.isEmpty = true) ∨
    ∃ plans s₁ run report, c.applied = some plans ∧ (SyncSession.enterTransfer : SessionM σ Unit) s = .ok () s₁ ∧
      s₁.download r plans = .ok run ∧ run.outcome = .completed report

namespace SyncSession

variable {σ : Type} {rs : List String} (hrs : ∀ n ∈ rs, PlainName n)
include hrs

/-- Only a commit writes the state files. A call on an install keeps them
byte for byte, unless it is a check whose plan is empty, whose commit then
leaves them as they end, or it applies plans whose transfer completes, whose
commit leaves them as they end; so long as no download lands on them. -/
theorem afterCall_state_files (r : Remote σ) (c : SessionCall) {s : SyncSession σ} (hs : InstalledAt rs s)
    (hsp : c.SparesStateFiles) :
    StateFilesAs rs s.tree (afterCall r c s).tree ∨
      (c = .check ∧ ∃ fetched plans s₁, checkPlans r s = .ok (fetched, plans) s₁ ∧ plans.isEmpty = true ∧
        StateFilesAs rs s.tree s₁.tree ∧
        StateFilesAs rs (treeAfter (s.data.commit plans.remote [] s₁.tree)) (afterCall r c s).tree) ∨
      ∃ plans s₁ run report, c.applied = some plans ∧ (enterTransfer : SessionM σ Unit) s = .ok () s₁ ∧
        s₁.download r plans = .ok run ∧ run.outcome = .completed report ∧ StateFilesAs rs s.tree run.tree ∧
        StateFilesAs rs (treeAfter (s.data.commit plans.remote plans.removedFiles run.tree))
          (afterCall r c s).tree := by
  cases c with
  | check =>
    rw [afterCall, SessionCall.run, final_bind_pure]
    rcases check_state_files hrs r hs with h | h
    · exact .inl h
    · exact .inr (.inl ⟨rfl, h⟩)
  | apply plans =>
    rw [afterCall, SessionCall.run, final_bind_pure]
    rcases apply_state_files hrs r (hsp plans rfl) hs with h | ⟨s₁, run, report, h⟩
    · exact .inl h
    · exact .inr (.inr ⟨plans, s₁, run, report, rfl, h⟩)
  | decline plans =>
    rw [afterCall, SessionCall.run, final_bind_pure]
    unfold decline
    split
    · -- nothing enforced: at most the phase moves
      exact .inl (((maintains_transition .idle).bind fun _ => maintains_pure _).ends
        (I := fun _ t => StateFilesAs rs s.tree t) s (.refl rs s.tree))
    · rename_i hne
      have happlied : (SessionCall.decline plans).applied = some plans.enforcedOnly := by
        simp [SessionCall.applied, hne]
      rcases apply_state_files hrs r (hsp _ happlied) hs with h | ⟨s₁, run, report, h⟩
      · exact .inl h
      · exact .inr (.inr ⟨_, s₁, run, report, happlied, h⟩)
  | cancel => exact .inl (.refl rs s.tree)

theorem installedAt_afterCall (r : Remote σ) (c : SessionCall) {s : SyncSession σ} (hs : InstalledAt rs s) :
    InstalledAt rs (afterCall r c s) := by
  cases c with
  | check =>
    rw [afterCall, SessionCall.run, final_bind_pure]
    exact ((confined_check hrs r).ends s hs).installedAt hs
  | apply plans =>
    rw [afterCall, SessionCall.run, final_bind_pure]
    exact ((confined_apply hrs r plans).ends s hs).installedAt hs
  | decline plans =>
    rw [afterCall, SessionCall.run, final_bind_pure]
    exact ((confined_decline hrs r plans).ends s hs).installedAt hs
  | cancel => exact ⟨hs.root, hs.tree, hs.dir⟩

/-- A call that reaches no commit keeps the state files byte for byte:
declined with nothing enforced, refused, failed, or cancelled. -/
theorem afterCall_keeps_state_files (r : Remote σ) (c : SessionCall) {s : SyncSession σ} (hs : InstalledAt rs s)
    (hsp : c.SparesStateFiles) (hnc : ¬ c.Commits r s) : StateFilesAs rs s.tree (afterCall r c s).tree := by
  rcases afterCall_state_files hrs r c hs hsp with h | ⟨hc, fetched, plans, s₁, hp, hempty, -⟩ |
      ⟨plans, s₁, run, report, happ, he, hrun, hout, -⟩
  · exact h
  · exact absurd (.inl ⟨hc, fetched, plans, s₁, hp, hempty⟩) hnc
  · exact absurd (.inr ⟨plans, s₁, run, report, happ, he, hrun, hout⟩) hnc

/-- Over any run of calls on an install, the state files end byte for byte as
they began, unless one of the calls reaches a commit. -/
theorem afterCalls_state_files (r : Remote σ) (calls : List SessionCall) {s : SyncSession σ}
    (hs : InstalledAt rs s) (hsp : ∀ c ∈ calls, c.SparesStateFiles) :
    StateFilesAs rs s.tree (afterCalls r calls s).tree ∨
      ∃ pre c post, calls = pre ++ c :: post ∧ c.Commits r (afterCalls r pre s) := by
  induction calls generalizing s with
  | nil => exact .inl (.refl rs s.tree)
  | cons c calls ih =>
    rw [afterCalls_cons]
    by_cases hc : c.Commits r s
    · exact .inr ⟨[], c, calls, rfl, hc⟩
    -- the first call kept them: the rest of the run decides
    have hkept := afterCall_keeps_state_files hrs r c hs (hsp c (by simp)) hc
    rcases ih (installedAt_afterCall hrs r c hs) fun c' hc' => hsp c' (by simp [hc']) with
      h | ⟨pre, c', post, rfl, hcommit⟩
    · exact .inl (hkept.trans h)
    · exact .inr ⟨c :: pre, c', post, rfl, hcommit⟩

end SyncSession

end ModMirror
