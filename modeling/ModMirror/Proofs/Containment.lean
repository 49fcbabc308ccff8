import ModMirror.Proofs.Commit
import ModMirror.Proofs.Frame
import ModMirror.Proofs.Phases
import ModMirror.Proofs.Session

/-!
# A server cannot reach outside the install

The server decides the sync paths, the exclusions, every key of its catalogs
and every byte a download fetches. None of it lets a sync change anything
outside the install. From an install at the plain path `rs`, whose files hold
no links and in which `rs` is a directory (`InstalledAt`), a check, and an
apply or a decline of any plan set, end with the same root and with nothing
changed outside `rs`, whether they return or fail (`Confined`):

    Confined rs (check r) ∧ ∀ plans, Confined rs (apply r plans) ∧ Confined rs (decline r plans)

Steps are put together by one rule for each kind of step. Bookkeeping keeps
the files; the state files and the staging directory lie in the data
directory below the root; a download joins a sanitized path to the root or to
the staging directory. Two more facts complete the picture. Every removal a
check plans, which the manifest records when the plan is applied, is a path
the check's own walk found at or below an enabled sync path, not a key the
server sent. A sync path that `sanitize` refuses fails the check before any
file is written.

A link in the tree would carry a write elsewhere, so trees with links are
left out.
-/

namespace ModMirror

namespace SyncSession

variable {σ α β : Type} {rs : List String}

/-! ## Sessions that stay below the root -/

/-- A session installed at the plain path `rs`: its root is there, its files
are well formed and `rs` is a directory of them. -/
structure InstalledAt (rs : List String) (s : SyncSession σ) : Prop where
  root : s.root = ⟨nativeOf rs⟩
  tree : s.tree.WF
  dir : s.tree.find? rs = some .dir

/-- `s'` keeps the root of `s`, and its files are well formed and changed
only strictly below `rs`. -/
structure StaysBelow (rs : List String) (s s' : SyncSession σ) : Prop where
  root : s'.root = s.root
  tree : s'.tree.WF
  edits : s.tree.EditsBelow rs s'.tree

theorem StaysBelow.refl {s : SyncSession σ} (hs : InstalledAt rs s) : StaysBelow rs s s :=
  ⟨rfl, hs.tree, .refl rs s.tree⟩

theorem StaysBelow.trans {s₁ s₂ s₃ : SyncSession σ} (h₁ : StaysBelow rs s₁ s₂) (h₂ : StaysBelow rs s₂ s₃) :
    StaysBelow rs s₁ s₃ :=
  ⟨h₂.root.trans h₁.root, h₂.tree, h₁.edits.trans h₂.edits⟩

theorem StaysBelow.installedAt {s s' : SyncSession σ} (hs : InstalledAt rs s) (h : StaysBelow rs s s') :
    InstalledAt rs s' :=
  ⟨h.root.trans hs.root, h.tree, h.edits.find?_root.trans hs.dir⟩

theorem staysBelow_of_same {s s' : SyncSession σ} (hs : InstalledAt rs s) (hroot : s'.root = s.root)
    (htree : s'.tree = s.tree) : StaysBelow rs s s' :=
  ⟨hroot, htree ▸ hs.tree, by rw [htree]; exact .refl rs s.tree⟩

/-- Run from any session installed at `rs`, the step ends, returning or
failing, in a session that stays below `rs`. -/
structure Confined (rs : List String) (m : SessionM σ α) : Prop where
  ends : ∀ s, InstalledAt rs s → StaysBelow rs s (final (m s))

/-! ## One rule for each kind of step -/

theorem Confined.bind {m : SessionM σ α} {f : α → SessionM σ β} (hm : Confined rs m)
    (hf : ∀ a, Confined rs (f a)) : Confined rs (m >>= f) := by
  refine ⟨fun s hs => ?_⟩
  have h₁ := hm.ends s hs
  show StaysBelow rs s (final (EStateM.bind m f s))
  unfold EStateM.bind
  revert h₁
  cases m s with
  | ok a s₁ => exact fun h₁ => h₁.trans ((hf a).ends s₁ (h₁.installedAt hs))
  | error e s₁ => exact id

theorem Confined.tryCatch {m : SessionM σ α} {handler : SyncError → SessionM σ α} (hm : Confined rs m)
    (hh : ∀ e, Confined rs (handler e)) : Confined rs (tryCatch m handler) := by
  refine ⟨fun s hs => ?_⟩
  have h₁ := hm.ends s hs
  simp only [MonadExcept.tryCatch, tryCatchThe, MonadExceptOf.tryCatch, EStateM.tryCatch]
  revert h₁
  cases m s with
  | ok a s₁ => exact id
  | error e s₁ => exact fun h₁ => h₁.trans ((hh e).ends s₁ (h₁.installedAt hs))

theorem confined_of_keeps {m : SessionM σ α}
    (h : ∀ s, (final (m s)).root = s.root ∧ (final (m s)).tree = s.tree) : Confined rs m :=
  ⟨fun s hs => staysBelow_of_same hs (h s).1 (h s).2⟩

theorem confined_pure (a : α) : Confined rs (pure a : SessionM σ α) := confined_of_keeps fun _ => ⟨rfl, rfl⟩

theorem confined_get : Confined rs (get : SessionM σ (SyncSession σ)) := confined_of_keeps fun _ => ⟨rfl, rfl⟩

theorem confined_throw (e : SyncError) : Confined rs (throw e : SessionM σ α) :=
  confined_of_keeps fun _ => ⟨rfl, rfl⟩

theorem confined_lift (r : Except SyncError α) : Confined rs (lift r : SessionM σ α) := by
  refine confined_of_keeps fun s => ?_
  cases r <;> exact ⟨rfl, rfl⟩

theorem confined_modify {f : SyncSession σ → SyncSession σ} (hf : ∀ s, (f s).root = s.root ∧ (f s).tree = s.tree) :
    Confined rs (modify f) :=
  confined_of_keeps hf

theorem confined_call (f : σ → Except SyncError α × σ) : Confined rs (call f) := by
  unfold call
  refine confined_get.bind fun s => ?_
  obtain ⟨r, remote⟩ := f s.remote
  dsimp only
  exact (confined_modify fun _ => ⟨by rfl, by rfl⟩).bind fun _ => confined_lift r

theorem confined_transition (next : SyncPhase) : Confined rs (transition next : SessionM σ Unit) := by
  unfold transition enter
  refine confined_get.bind fun s => ?_
  split
  · exact confined_modify fun _ => ⟨by rfl, by rfl⟩
  · exact confined_throw _

theorem confined_abort (e : SyncError) : Confined rs (abort e : SessionM σ α) := by
  unfold abort enter
  -- the report and the way back to idle only change the phase
  have hback : Confined rs (modify (fun s : SyncSession σ => s.entering .reportAndAbort) >>= fun _ =>
      modify (fun s : SyncSession σ => s.entering .idle) >>= fun _ => (throw e : SessionM σ α)) :=
    (confined_modify fun _ => ⟨by rfl, by rfl⟩).bind fun _ =>
      (confined_modify fun _ => ⟨by rfl, by rfl⟩).bind fun _ => confined_throw e
  refine confined_get.bind fun s => ?_
  dsimp only
  split
  · exact (confined_modify fun _ => ⟨by rfl, by rfl⟩).bind fun _ => hback
  · exact hback

theorem Confined.orAbort {m : SessionM σ α} (hm : Confined rs m) : Confined rs (orAbort m) :=
  hm.tryCatch confined_abort

theorem confined_forM {γ : Type} {l : List γ} {f : γ → SessionM σ Unit} (hf : ∀ x, Confined rs (f x)) :
    Confined rs (l.forM f) := by
  induction l with
  | nil => exact confined_pure ()
  | cons x l ih => exact (hf x).bind fun _ => ih

/-- A change of the files that, on a well-formed tree in which `rs` is a
directory, changes only what lies strictly below `rs`. -/
theorem confined_onTree {f : FileTree → Except SyncError FileTree}
    (hf : ∀ t t', t.WF → t.find? rs = some .dir → f t = .ok t' → t'.WF ∧ t.EditsBelow rs t') :
    Confined rs (onTree f : SessionM σ Unit) := by
  refine ⟨fun s hs => ?_⟩
  cases hft : f s.tree with
  | ok t =>
    rw [onTree_of_ok hft]
    obtain ⟨ht, he⟩ := hf s.tree t hs.tree hs.dir hft
    exact ⟨rfl, ht, he⟩
  | error e =>
    rw [onTree_of_error hft]
    exact .refl hs

theorem confined_onFiles {m : EStateM SyncError FileTree α} (hm : EditsOnlyBelow rs m) :
    Confined rs (onFiles m : SessionM σ α) := by
  refine ⟨fun s hs => ?_⟩
  have h := hm s.tree hs.tree hs.dir
  show StaysBelow rs s (final (onFiles m s))
  unfold onFiles
  revert h
  cases m s.tree with
  | ok a t => exact fun ⟨ht, he⟩ => ⟨rfl, ht, he⟩
  | error e t => exact fun ⟨ht, he⟩ => ⟨rfl, ht, he⟩

/-! ### Steps that read the session they start from -/

theorem confined_get_bind {f : SyncSession σ → SessionM σ α}
    (hf : ∀ s, InstalledAt rs s → StaysBelow rs s (final (f s s))) : Confined rs (get >>= f) :=
  ⟨fun s hs => hf s hs⟩

theorem confined_get_bind_data {f : SyncSession σ → SessionM σ α}
    (hf : ∀ s₀, s₀.data = DataDir.forRoot ⟨nativeOf rs⟩ → Confined rs (f s₀)) : Confined rs (get >>= f) :=
  confined_get_bind fun s hs => (hf s (congrArg DataDir.forRoot hs.root)).ends s hs

theorem staysBelow_lift_bind {r : Except SyncError α} {k : α → SessionM σ β} {s : SyncSession σ}
    (hs : InstalledAt rs s) (hk : ∀ a, r = .ok a → StaysBelow rs s (final (k a s))) :
    StaysBelow rs s (final ((lift r >>= k) s)) := by
  cases r with
  | ok a => exact hk a rfl
  | error e => exact .refl hs

theorem staysBelow_modify_bind {f : SyncSession σ → SyncSession σ} {k : Unit → SessionM σ β} {s : SyncSession σ}
    (hs : InstalledAt rs s) (hf : StaysBelow rs s (f s)) (hk : Confined rs (k ())) :
    StaysBelow rs s (final ((modify f >>= k) s)) :=
  hf.trans (hk.ends (f s) (hf.installedAt hs))

theorem staysBelow_set_bind {s' : SyncSession σ} {k : Unit → SessionM σ β} {s : SyncSession σ}
    (h : StaysBelow rs s s') (hk : StaysBelow rs s' (final (k () s'))) :
    StaysBelow rs s (final ((set s' >>= k) s)) :=
  h.trans hk

/-! ## The calls of a session -/

theorem confined_fetchRemoteState (r : Remote σ) : Confined rs (fetchRemoteState r) := by
  unfold fetchRemoteState
  refine (confined_call _).bind fun _ => (confined_call _).bind fun _ => ?_
  refine (confined_forM fun _ => (confined_lift _).bind fun _ => confined_pure _).bind fun _ => ?_
  refine (confined_call _).bind fun _ => (confined_lift _).bind fun _ => confined_get.bind fun _ => ?_
  exact (confined_call _).bind fun _ => confined_pure _

section Calls

variable (hrs : ∀ n ∈ rs, PlainName n)
include hrs

theorem confined_diff (fetched : RemoteState) : Confined rs (diff fetched : SessionM σ PlanSet) := by
  unfold diff
  refine confined_get_bind fun s₀ hs₀ => ?_
  have hdata : s₀.data = DataDir.forRoot ⟨nativeOf rs⟩ := by rw [data, hs₀.root]
  refine staysBelow_lift_bind hs₀ fun _ _ => staysBelow_lift_bind hs₀ fun loaded hload => ?_
  obtain ⟨patterns, t⟩ := loaded
  rw [hdata] at hload
  obtain ⟨ht, he⟩ := loadLocalExclusions_editsBelow hrs hs₀.tree hs₀.dir hload
  refine staysBelow_modify_bind hs₀ ⟨rfl, ht, he⟩ ?_
  refine (confined_lift _).bind fun _ => (confined_lift _).bind fun _ => ?_
  refine (confined_onTree fun t t' ht hR h => ?_).bind fun _ => confined_pure _
  rw [hdata] at h
  exact saveLocalHashes_editsBelow hrs ht hR h

theorem confined_check (r : Remote σ) : Confined rs (check r) := by
  unfold check
  refine (confined_transition _).bind fun _ => (confined_modify fun _ => ⟨by rfl, by rfl⟩).bind fun _ => ?_
  refine (confined_fetchRemoteState r).orAbort.bind fun fetched => (confined_transition _).bind fun _ => ?_
  refine (confined_diff hrs fetched).orAbort.bind fun plans => ?_
  dsimp only
  split
  · -- nothing to do: the remote catalogs are committed at once
    refine (confined_transition _).bind fun _ => confined_get_bind_data fun s₀ hdata => ?_
    refine (confined_onFiles ?_).orAbort.bind fun _ => (confined_transition _).bind fun _ => confined_pure _
    rw [hdata]
    exact commit_editsOnlyBelow hrs _ _
  · refine (confined_transition _).bind fun _ => confined_get.bind fun _ => ?_
    exact (confined_transition _).bind fun _ => confined_pure _

theorem confined_enterTransfer : Confined rs (enterTransfer : SessionM σ Unit) := by
  unfold enterTransfer releaseLock
  refine confined_get_bind_data fun s₀ hdata => ?_
  dsimp only
  -- a refused step fails before the lock; otherwise the lock is taken
  split
  on_goal 2 => refine (confined_throw _).bind fun _ => ?_
  all_goals
    refine Confined.orAbort ((confined_onTree fun t t' ht hR h => ?_).bind fun _ => ?_)
    · rw [hdata] at h
      exact acquireLock_editsBelow hrs ht hR h
    refine (confined_modify fun _ => ⟨by rfl, by rfl⟩).bind fun _ => confined_get.bind fun _ => ?_
    split
    · exact (confined_modify fun _ => ⟨by rfl, by rfl⟩).bind fun _ => (confined_throw _).bind fun _ =>
        confined_transition _
    · exact confined_transition _

theorem confined_finish (plans : PlanSet) (report : TransferReport) :
    Confined rs (finish plans report : SessionM σ SyncOutcome) := by
  unfold finish
  refine (confined_transition _).bind fun _ => (confined_transition _).bind fun _ => ?_
  refine confined_get_bind_data fun s₀ hdata => ?_
  refine (confined_onFiles ?_).orAbort.bind fun _ => ?_
  · rw [hdata]
    exact commit_editsOnlyBelow hrs _ _
  dsimp only
  split
  · exact (confined_transition _).bind fun _ => confined_pure _
  · refine (confined_onTree fun t t' ht hR h => ?_).orAbort.bind fun _ =>
      (confined_transition _).bind fun _ => confined_pure _
    rw [hdata] at h
    exact clearStaging_editsBelow hrs ht h

theorem confined_rollBack (completed inPlace : Nat) (failures : List TransferFailure) :
    Confined rs (rollBack completed inPlace failures : SessionM σ SyncOutcome) := by
  unfold rollBack
  refine (confined_transition _).bind fun _ => (confined_transition _).bind fun _ => ?_
  refine confined_get_bind_data fun s₀ hdata => ?_
  refine (confined_onTree fun t t' ht hR h => ?_).orAbort.bind fun _ =>
    (confined_transition _).bind fun _ => confined_pure _
  rw [hdata] at h
  exact clearStaging_editsBelow hrs ht h

/-- The two roots of a session's transfer: the root itself and the staging
directory in its data directory. -/
theorem rootsBelow_session {s : SyncSession σ} (hroot : s.root = ⟨nativeOf rs⟩) :
    TransferManager.RootsBelow rs
      { live := s.root, staging := s.data.staging, concurrency := s.settings.downloadConcurrency,
        retry := s.settings.retry } := by
  refine ⟨⟨rs, hrs, List.prefix_refl rs, hroot⟩, ⟨rs ++ [dataDirName] ++ ["PendingUpdates"], ?_, ?_, ?_⟩⟩
  · exact plain_staging hrs
  · rw [List.append_assoc]
    exact List.prefix_append rs _
  · show (DataDir.forRoot s.root).staging = _
    rw [hroot]
    exact forRoot_staging hrs

theorem confined_transfer (r : Remote σ) (plans : PlanSet) : Confined rs (transfer r plans) := by
  unfold transfer
  refine confined_get_bind fun s₀ hs₀ => ?_
  have hset : StaysBelow rs s₀ { s₀ with progress := {} } := staysBelow_of_same hs₀ rfl rfl
  refine staysBelow_set_bind hset ?_
  have hs₁ := hset.installedAt hs₀
  -- a refused destination fails before anything is written
  cases hrun : TransferManager.execute
      { live := s₀.root, staging := s₀.data.staging, concurrency := s₀.settings.downloadConcurrency,
        retry := s₀.settings.retry } plans r.fetch s₀.remote s₀.cancelled s₀.schedule s₀.tree with
  | error e => exact (confined_abort e).ends _ hs₁
  | ok run =>
    obtain ⟨ht, he⟩ := TransferManager.execute_editsBelow (rootsBelow_session hrs hs₀.root) hrun hs₀.tree hs₀.dir
    refine staysBelow_modify_bind hs₁ ⟨rfl, ht, he⟩ ?_
    split
    · exact confined_finish hrs plans _
    · exact confined_rollBack hrs _ _ _

theorem confined_apply (r : Remote σ) (plans : PlanSet) : Confined rs (apply r plans) := by
  unfold apply releaseLock
  refine (confined_enterTransfer hrs).bind fun _ => Confined.bind ?_ fun _ =>
    (confined_modify fun _ => ⟨by rfl, by rfl⟩).bind fun _ => confined_pure _
  exact (confined_transfer hrs r plans).tryCatch fun e =>
    (confined_modify fun _ => ⟨by rfl, by rfl⟩).bind fun _ => confined_throw e

theorem confined_decline (r : Remote σ) (plans : PlanSet) : Confined rs (decline r plans) := by
  unfold decline
  dsimp only
  split
  · exact (confined_transition _).bind fun _ => confined_pure _
  · exact confined_apply hrs r _

end Calls

/-! ## The removals a check plans -/

theorem fetchRemoteState_enabled {r : Remote σ} {s s' : SyncSession σ} {fetched : RemoteState}
    (h : fetchRemoteState r s = .ok fetched s') : ∀ spec ∈ fetched.enabled, s.settings.isEnabled spec = true := by
  unfold fetchRemoteState at h
  obtain ⟨_, s1, h1, h⟩ := bind_eq_ok h
  obtain ⟨specs, s2, h2, h⟩ := bind_eq_ok h
  obtain ⟨_, s3, h3, h⟩ := bind_eq_ok h
  obtain ⟨_, s4, h4, h⟩ := bind_eq_ok h
  obtain ⟨_, s5, h5, h⟩ := bind_eq_ok h
  obtain ⟨s₀, s6, h6, h⟩ := bind_eq_ok h
  obtain ⟨hs₀, -⟩ := get_eq_ok h6
  obtain ⟨_, s7, -, h⟩ := bind_eq_ok h
  cases h
  have hinst : install s5 = install s :=
    calc install s5 = install s4 := keeps_lift _ _ _ _ h5
      _ = install s3 := keeps_call _ _ _ _ h4
      _ = install s2 := keeps_forM (fun _ => (keeps_lift _).bind fun _ => keeps_pure _) _ _ _ h3
      _ = install s1 := keeps_call _ _ _ _ h2
      _ = install s := keeps_call _ _ _ _ h1
  simp only [install, Prod.mk.injEq] at hinst
  intro spec hspec
  rw [← hinst.2.1, ← hs₀]
  exact (List.mem_filter.mp hspec).2

end SyncSession

/-- A reported entry names, in clean form, a path that the walk found at or
below the sync path. -/
theorem ScannedAt.found {t : FileTree} (ht : t.WF) {m : ExclusionMatcher} {bs ls : List String} {e : ScannedEntry}
    (hne : ls ≠ []) (h : ScannedAt t m bs ls e) :
    ∃ rest node, cleanKeyPath e.relative = keyOf (ls ++ rest) ∧ (bs ++ ls ++ rest, node) ∈ t.entries := by
  obtain ⟨rest, -, hcase⟩ := h
  have hkey : cleanKeyPath (keyOf (ls ++ rest)) = keyOf (ls ++ rest) :=
    cleanKeyPath_keyOf (by simp [hne]) (ScannedAt.plain ht hcase)
  rcases hcase with ⟨d, hmem, rfl⟩ | ⟨hmem, -, rfl⟩
  · exact ⟨rest, _, hkey, hmem⟩
  · exact ⟨rest, _, hkey, hmem⟩

theorem checkTarget_matcher_base {root : NormalPath} {server excluded : ExclusionSet} {spec : SyncPathSpec} :
    (checkTarget root server excluded spec).matcher.base = root := by
  unfold checkTarget
  split <;> rfl

theorem mem_removedFiles_planSync {loc remote previous : CatalogSet} {specs : List SyncPathSpec}
    {opts : PlanOptions} {x : String} (hx : x ∈ (planSync loc remote previous specs opts).removedFiles) :
    ∃ spec ∈ specs, ∃ e ∈ (loc.getOrEmpty spec.path).toList, x = e.1 := by
  obtain ⟨p, hp, hxp⟩ := List.mem_flatMap.mp hx
  obtain ⟨hmem, hpeq⟩ := mem_planSync hp
  rw [hpeq, planFor_removed] at hxp
  split at hxp
  · obtain ⟨e, he, rfl⟩ := List.mem_map.mp hxp
    exact ⟨p.spec, hmem, e, (List.mem_filter.mp he).1, rfl⟩
  · simp at hxp

/-- Every path of a local catalog a check builds is one that the scan of an
enabled spec found at or below the spec's sanitized location: the catalog of
a key is built for the last spec under it. -/
theorem localCatalog_found {bs : List String} (hbs : ∀ n ∈ bs, PlainName n) {b : CatalogBuilder}
    (hb : b.base = ⟨nativeOf bs⟩) {t : FileTree} (ht : t.WF) {server ex : ExclusionSet} {specs : List SyncPathSpec}
    {loc : CatalogSet} (hbuild : b.build t (specs.map (checkTarget b.base server ex)) = .ok loc) (p : String) :
    ∀ x ∈ (loc.getOrEmpty p).toList, ∃ u ∈ specs, ∃ logical rest node, Path.sanitize u.path = .ok logical ∧
      x.1 = keyOf (Path.segments logical ++ rest) ∧ (bs ++ Path.segments logical ++ rest, node) ∈ t.entries := by
  intro x hx
  obtain ⟨u, hu, entries, hscan, e, he, hxe⟩ := localCatalog_entry hbuild hx
  obtain ⟨logical, hsan, hrule⟩ := scan_ok_followsRule ht hbs hb checkTarget_matcher_base hscan
  obtain ⟨hne, -, -⟩ := sanitize_segments hsan
  obtain ⟨rest, node, hkey, hmem⟩ := ScannedAt.found ht hne ((hrule.2 e).mp he)
  exact ⟨u, List.mem_of_mem_filter (List.mem_of_getLast? hu), logical, rest, node, hsan, hxe.trans hkey, hmem⟩

namespace SyncSession

variable {σ : Type} {rs : List String}

/-- Every removal a check plans is a path that the check's local walk found
at or below the sanitized location of an enabled sync path. -/
theorem check_removes_walked (hrs : ∀ n ∈ rs, PlainName n) {r : Remote σ} {s s' : SyncSession σ} {c : SyncCheck}
    (hs : InstalledAt rs s) (h : check r s = .ok c s') :
    ∃ patterns t, s.data.loadLocalExclusions s.tree s.settings.headless = .ok (patterns, t) ∧
      ∀ x ∈ c.plans.removedFiles, ∃ q ∈ c.plans.plans, s.settings.isEnabled q.spec = true ∧
        ∃ logical rest node, Path.sanitize q.spec.path = .ok logical ∧
          x = keyOf (Path.segments logical ++ rest) ∧ (rs ++ Path.segments logical ++ rest, node) ∈ t.entries := by
  obtain ⟨fetched, s0, s1, s2, s3, hfetch, hdiff, hinst0, hinst2⟩ := check_steps h
  obtain ⟨previous, patterns, t, ex, loc, hload, -, hbuild, hplans⟩ := diff_plans hdiff
  simp only [install, Prod.mk.injEq] at hinst0 hinst2
  rw [data_eq_of_root hinst2.1, hinst2.2.1, hinst2.2.2] at hload
  refine ⟨patterns, t, hload, fun x hx => ?_⟩
  have ht : t.WF := by
    rw [data, hs.root] at hload
    exact loadLocalExclusions_wf hrs hs.tree hload
  have hb : ({ base := s2.root, hasher := s2.hasher } : CatalogBuilder).base = ⟨nativeOf rs⟩ :=
    hinst2.1.trans hs.root
  rw [hplans] at hx
  obtain ⟨spec, -, e, he, rfl⟩ := mem_removedFiles_planSync hx
  obtain ⟨u, hu, logical, rest, node, hsan, hkey, hmem⟩ := localCatalog_found hrs hb ht hbuild _ e he
  have hspecs : c.plans.plans.map (·.spec) = fetched.enabled := by rw [hplans, planSync_specs]
  obtain ⟨q, hq, rfl⟩ := List.mem_map.mp (hspecs ▸ hu)
  have hon : s.settings.isEnabled q.spec = true := by
    rw [← hinst0.2.1]
    exact fetchRemoteState_enabled hfetch _ hu
  exact ⟨q, hq, hon, logical, rest, node, hsan, hkey, hmem⟩

end SyncSession

theorem PlanSet.removedFiles_enforcedOnly (plans : PlanSet) :
    plans.enforcedOnly.removedFiles ⊆ plans.removedFiles := by
  intro x hx
  simp only [PlanSet.removedFiles, PlanSet.enforcedOnly, List.mem_flatMap, List.mem_map] at hx ⊢
  obtain ⟨_, ⟨p, hp, rfl⟩, hx⟩ := hx
  refine ⟨p, hp, ?_⟩
  split at hx
  · exact hx
  · simp [SyncPlan.cleared] at hx

/-! ## A sync path that escapes the root -/

theorem SyncPathSpec.validateLocation_error {spec : SyncPathSpec} {e : FsError} (h : Path.sanitize spec.path = .error e) :
    ∃ e', spec.validateLocation = .error e' := by
  unfold SyncPathSpec.validateLocation
  rw [h]
  split
  · rename_i hok
    cases hok
  · exact ⟨_, rfl⟩
  · exact ⟨_, rfl⟩

namespace SyncSession

variable {σ α β : Type}

theorem call_apply (f : σ → Except SyncError α × σ) (s : SyncSession σ) :
    call f s = match (f s.remote).1 with
      | .ok a => .ok a { s with remote := (f s.remote).2 }
      | .error e => .error e { s with remote := (f s.remote).2 } := by
  simp only [call, bind, EStateM.bind, get, getThe, MonadStateOf.get, EStateM.get, modify, modifyGet,
    MonadStateOf.modifyGet, EStateM.modifyGet]
  cases (f s.remote).1 <;> rfl

theorem modify_bind_apply {f : SyncSession σ → SyncSession σ} {k : Unit → SessionM σ β} (s : SyncSession σ) :
    (modify f >>= k) s = k () (f s) := rfl

theorem orAbort_of_error {m : SessionM σ α} {s s₁ : SyncSession σ} {e : SyncError} (h : m s = .error e s₁) :
    orAbort m s = abort e s₁ := by
  simp only [orAbort, MonadExcept.tryCatch, tryCatchThe, MonadExceptOf.tryCatch, EStateM.tryCatch, h]
  rfl

theorem abort_keeps_tree (e : SyncError) (s : SyncSession σ) :
    ∃ s', (abort e : SessionM σ α) s = .error e s' ∧ s'.tree = s.tree := by
  simp only [abort, enter, bind, EStateM.bind, get, getThe, MonadStateOf.get, EStateM.get, modify, modifyGet,
    MonadStateOf.modifyGet]
  split <;> exact ⟨_, rfl, rfl⟩

theorem forM_checks_error {γ : Type} {l : List γ} {f : γ → SessionM σ Unit}
    (hf : ∀ x s, f x s = .ok () s ∨ ∃ e, f x s = .error e s) {x : γ} (hx : x ∈ l)
    (hfail : ∀ s, ∃ e, f x s = .error e s) (s : SyncSession σ) : ∃ e, l.forM f s = .error e s := by
  induction l with
  | nil => cases hx
  | cons y l ih =>
    show ∃ e, (f y >>= fun _ => l.forM f) s = _
    rcases List.mem_cons.mp hx with rfl | hx
    · obtain ⟨e, he⟩ := hfail s
      exact ⟨e, estate_bind_error he⟩
    · rcases hf y s with hy | ⟨e, hy⟩
      · rw [estate_bind_ok hy]
        exact ih hx
      · exact ⟨e, estate_bind_error hy⟩

/-- A fetch fails, before anything is written, when the server names a sync
path that `sanitize` refuses. -/
theorem fetchRemoteState_rejects {r : Remote σ} {s : SyncSession σ} {specs : List SyncPathSpec}
    (hspecs : (r.syncPaths (r.version s.remote).2).1 = .ok specs) {spec : SyncPathSpec} (hspec : spec ∈ specs)
    {e : FsError} (hbad : Path.sanitize spec.path = .error e) :
    ∃ e' s', fetchRemoteState r s = .error e' s' ∧ s'.tree = s.tree := by
  unfold fetchRemoteState
  have hver := call_apply r.version s
  cases hv : (r.version s.remote).1 with
  | error e' =>
    simp only [hv] at hver
    exact ⟨e', _, estate_bind_error hver, rfl⟩
  | ok v =>
    simp only [hv] at hver
    rw [estate_bind_ok hver]
    have hpaths := call_apply r.syncPaths { s with remote := (r.version s.remote).2 }
    simp only [hspecs] at hpaths
    rw [estate_bind_ok hpaths]
    -- every location is validated, and the refused one fails the fetch
    have hchecks : ∀ (x : SyncSession σ) (spec : SyncPathSpec),
        (lift spec.validateLocation >>= fun _ => pure () : SessionM σ Unit) x = .ok () x ∨
          ∃ e, (lift spec.validateLocation >>= fun _ => pure () : SessionM σ Unit) x = .error e x := by
      intro x spec
      cases spec.validateLocation with
      | ok a => exact .inl rfl
      | error e => exact .inr ⟨e, rfl⟩
    have hfails : ∀ x : SyncSession σ,
        ∃ e, (lift spec.validateLocation >>= fun _ => pure () : SessionM σ Unit) x = .error e x := by
      intro x
      obtain ⟨e', he'⟩ := SyncPathSpec.validateLocation_error hbad
      exact ⟨e', by rw [he']; rfl⟩
    obtain ⟨e', he'⟩ := forM_checks_error (fun spec x => hchecks x spec) hspec hfails _
    exact ⟨e', _, estate_bind_error he', rfl⟩

/-- A check fails, before anything is written, when the server names a sync
path that `sanitize` refuses. -/
theorem check_rejects_unsafe_path {r : Remote σ} {s : SyncSession σ} {specs : List SyncPathSpec}
    (hspecs : (r.syncPaths (r.version s.remote).2).1 = .ok specs) {spec : SyncPathSpec} (hspec : spec ∈ specs)
    {e : FsError} (hbad : Path.sanitize spec.path = .error e) :
    ∃ e' s', check r s = .error e' s' ∧ s'.tree = s.tree := by
  unfold check
  cases hcan : s.phase.canTransition .fetchingRemoteState with
  | false => exact ⟨_, _, estate_bind_error (transition_of_cannot hcan), rfl⟩
  | true =>
    rw [estate_bind_ok (transition_of_can hcan), modify_bind_apply]
    obtain ⟨e', s₃, hfetch, htree⟩ :=
      fetchRemoteState_rejects (s := { s.entering .fetchingRemoteState with cancelled := false }) hspecs hspec hbad
    obtain ⟨s₄, habort, htree'⟩ := abort_keeps_tree (α := RemoteState) e' s₃
    exact ⟨e', s₄, estate_bind_error ((orAbort_of_error hfetch).trans habort), htree'.trans htree⟩

end SyncSession

/-! ## The whole sync -/

open SyncSession in
/-- **A server cannot reach outside the install.** Whatever the server answers
(sync paths, exclusions, catalogs with any keys, any bytes), from an install
at the plain path `rs` in a tree without links: a check, and an apply or a
decline of any plan set, change nothing outside `rs`, whether they return or
fail; every removal a check plans, which an apply or a decline commits to the
removal manifest, is a path the check's local walk found at or below the
sanitized location of an enabled sync path; and a sync path that `sanitize`
refuses fails the check before any file is written. -/
theorem sync_confined_to_install {σ : Type} (r : Remote σ) (rs : List String) (hrs : ∀ n ∈ rs, PlainName n) :
    Confined rs (check r) ∧ (∀ plans, Confined rs (apply r plans) ∧ Confined rs (decline r plans)) ∧
    (∀ s c s', InstalledAt rs s → check r s = .ok c s' →
      c.plans.enforcedOnly.removedFiles ⊆ c.plans.removedFiles ∧
      ∃ patterns t, s.data.loadLocalExclusions s.tree s.settings.headless = .ok (patterns, t) ∧
        ∀ x ∈ c.plans.removedFiles, ∃ q ∈ c.plans.plans, s.settings.isEnabled q.spec = true ∧
          ∃ logical rest node, Path.sanitize q.spec.path = .ok logical ∧
            x = keyOf (Path.segments logical ++ rest) ∧ (rs ++ Path.segments logical ++ rest, node) ∈ t.entries) ∧
    (∀ s specs, (r.syncPaths (r.version s.remote).2).1 = .ok specs →
      ∀ spec ∈ specs, ∀ e, Path.sanitize spec.path = .error e →
        ∃ e' s', check r s = .error e' s' ∧ s'.tree = s.tree) :=
  ⟨confined_check hrs r, fun plans => ⟨confined_apply hrs r plans, confined_decline hrs r plans⟩,
    fun _ c _ hs h => ⟨c.plans.removedFiles_enforcedOnly, check_removes_walked hrs hs h⟩,
    fun _ _ hspecs _ hspec _ hbad => check_rejects_unsafe_path hspecs hspec hbad⟩

/-- A server whose one sync path climbs out of the root. -/
def escapingServer : Remote Unit :=
  { version := fun u => (.ok "1", u), syncPaths := fun u => (.ok [{ path := "../outside" }], u),
    exclusions := fun u => (.ok [], u), hashes := fun u _ => (.ok {}, u), fetch := fun u _ => (.ok .empty, u) }

/-- A client installed at `client`, with nothing in it yet. -/
def clientAtRoot : SyncSession Unit :=
  { root := ⟨nativeOf ["client"]⟩, settings := {}, tree := ⟨[(["client"], .dir)]⟩, remote := () }

theorem sync_confined_to_install_client :
    (∀ n ∈ ["client"], PlainName n) ∧ SyncSession.Confined ["client"] (SyncSession.check escapingServer) ∧
      ∃ e s', SyncSession.check escapingServer clientAtRoot = .error e s' ∧ s'.tree = clientAtRoot.tree := by
  have hplain : ∀ n ∈ ["client"], PlainName n := by
    simp only [List.mem_singleton, forall_eq]
    unfold PlainName PlainSeg
    decide
  obtain ⟨hcheck, -, -, hrefuse⟩ := sync_confined_to_install escapingServer ["client"] hplain
  have hs : Path.sanitize "../outside" = .error (.pathTraversal "../outside") := by decide
  exact ⟨hplain, hcheck, hrefuse clientAtRoot _ rfl _ (List.mem_singleton_self _) _ hs⟩

end ModMirror
