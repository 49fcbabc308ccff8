import Mathlib
import ModMirror.Proofs.Transfer
import ModMirror.Proofs.Write

/-!
# Where downloaded bytes land

A unit writes its bytes in one step: the missing parents of its destination
are made, then the content is put in place. In a tree without symbolic links
whose roots are plain paths, that write puts the bytes at the destination and
changes no file anywhere else (`WF.replaceFile_nativeOf`). So whatever the
interleaving, every task that wrote its file finds, at its destination, the
bytes that some task with that destination wrote there (`step_landed`).
With the transfer's accounting this gives its specification (`execute_spec`):

    t.WF → token down at the end → every unit's destination reads as bytes
      that its source answered

A symbolic link breaks this: a unit that replaces a link to a directory
takes away the files another unit wrote through it
(`execute_replacing_link_loses_file`).
-/

namespace ModMirror

namespace FileTree

section WF

variable {t t' : FileTree} (ht : t.WF)
include ht

theorem WF.readFile_nativeOf {D : List String} (hD : ∀ n ∈ D, PlainName n) {c : ByteArray}
    (h : t.find? D = some (.file c)) : t.readFile (nativeOf D) = .ok c := by
  -- every proper prefix of an entry is a directory, so no file stands above it
  have hnf : ∀ k < D.length, ∀ d, t.find? (D.take k) ≠ some (.file d) := by
    intro k hk d hf
    have hD0 : D ≠ [] := List.ne_nil_of_length_pos (by omega)
    have hmem : (D.take k ++ D.drop k, Node.file c) ∈ t.entries := by
      rw [List.take_append_drop]
      exact mem_of_find? hD0 h
    rw [ht.find?_dir_of_prefix hmem (by simpa using hk)] at hf
    cases hf
  simp [readFile, ht.resolve_nativeOf_of_some hD hnf true h, h, bind, Except.bind, pure, Except.pure]

/-- Writing a file at a plain path keeps the tree well formed, puts the bytes
there and leaves every other entry as it was. -/
theorem WF.replaceFile_nativeOf {D : List String} (hD : ∀ n ∈ D, PlainName n) (hne : D ≠ []) {c : ByteArray}
    (h : replaceFile t (nativeOf D) c = .ok t') :
    t'.WF ∧ t'.find? D = some (.file c) ∧ ∀ E n, E ≠ D → t.find? E = some n → t'.find? E = some n := by
  obtain ⟨D', m, rfl⟩ := (List.eq_nil_or_concat D).resolve_left hne
  rw [List.concat_eq_append] at hD ⊢ h
  have hD' : ∀ x ∈ D', PlainName x := fun x hx => hD x (List.mem_append_left _ hx)
  unfold replaceFile ensureParent at h
  rw [parentText_nativeOf_snoc hD' (hD m (by simp))] at h
  cases h1 : createDirAll t (nativeOf D') with
  | error e => simp [h1, Except.mapError, bind, Except.bind] at h
  | ok t1 =>
    obtain ⟨ht1, hdir1⟩ := ht.createDirAll_go hD' _ h1
    simp only [h1, Except.mapError, bind, Except.bind] at h
    obtain ⟨rfl, hne', hnd⟩ := ht1.replaceContent_nativeOf hD h
    refine ⟨ht1.put hne' hD (by simpa using hdir1) hnd (by simp), find?_put_self hne' _, fun E n hED hE => ?_⟩
    rw [find?_put_of_ne hED]
    exact (ht.createDirAll_go_spec hD' _ h1).keeps E n hE

end WF

end FileTree

theorem mem_set_of_ne {α : Type} {l : List α} {i : Nat} {a b c : α} (ha : a ∈ l) (hi : l[i]? = some c)
    (hne : a ≠ c) : a ∈ l.set i b := by
  obtain ⟨j, hj⟩ := List.mem_iff_getElem?.mp ha
  have hij : i ≠ j := by
    rintro rfl
    rw [hi] at hj
    exact hne (Option.some.inj hj).symm
  exact List.mem_iff_getElem?.mpr ⟨j, by rw [List.getElem?_set_ne hij]; exact hj⟩

/-! ## Destinations of plain names -/

/-- A unit whose destination is a path of plain names below the tree's root. -/
def TransferUnit.Native (u : TransferUnit) : Prop :=
  ∃ D, (∀ n ∈ D, PlainName n) ∧ D ≠ [] ∧ u.destination = nativeOf D

namespace TransferManager

variable {m : TransferManager}

/-- Both roots are paths of plain names below the tree's root. -/
structure PlainRoots (m : TransferManager) : Prop where
  live : ∃ L, (∀ n ∈ L, PlainName n) ∧ m.live = ⟨nativeOf L⟩
  staging : ∃ S, (∀ n ∈ S, PlainName n) ∧ m.staging = ⟨nativeOf S⟩

theorem PlainRoots.rootFor (hm : m.PlainRoots) (r : Bool) :
    ∃ R, (∀ n ∈ R, PlainName n) ∧ m.rootFor r = ⟨nativeOf R⟩ := by
  cases r
  · exact hm.live
  · exact hm.staging

theorem PlainRoots.join (hm : m.PlainRoots) (r : Bool) {rel clean : String} (hs : Path.sanitize rel = .ok clean) :
    ∃ D, (∀ n ∈ D, PlainName n) ∧ D ≠ [] ∧ ((m.rootFor r).join clean).text = nativeOf D := by
  obtain ⟨R, hR, hroot⟩ := hm.rootFor r
  obtain ⟨hne, hplain, hkey⟩ := sanitize_segments hs
  have hj := join_nativeOf hR hplain hne
  rw [hkey] at hj
  exact ⟨R ++ Path.segments clean, plain_append hR hplain, by simp [hne], by rw [hroot, hj]⟩

theorem MadeUnit.native (hm : m.PlainRoots) {x : SyncPlan × String} {u : TransferUnit} (h : m.MadeUnit x u) :
    u.Native := by
  obtain ⟨clean, hs, rfl⟩ := h
  exact hm.join _ hs

theorem units_native (hm : m.PlainRoots) {plans : PlanSet} {us : List TransferUnit} (h : m.units plans = .ok us) :
    ∀ u ∈ us, u.Native := by
  intro u hu
  obtain ⟨x, -, hx⟩ := mem_of_forall₂ (units_ok h) hu
  exact hx.native hm

theorem createDirectories_wf (hm : m.PlainRoots) (plans : PlanSet) {t : FileTree} (ht : t.WF) :
    (m.createDirectories plans t).2.WF := by
  unfold createDirectories
  refine List.foldlRecOn (motive := fun acc : Nat × FileTree => acc.2.WF) _ _ ht fun acc hacc p _ => ?_
  refine List.foldlRecOn (motive := fun acc : Nat × FileTree => acc.2.WF) _ _ hacc fun acc' hacc' dir _ => ?_
  obtain ⟨n, t'⟩ := acc'
  dsimp only
  unfold createDirectory
  -- a directory that could not be made leaves the tree as it was
  cases hs : Path.sanitize dir with
  | error e => exact hacc'
  | ok clean =>
    obtain ⟨D, hD, -, hjoin⟩ := hm.join p.spec.restartRequired hs
    dsimp only
    rw [hjoin]
    cases hc : t'.createDirAll (nativeOf D) with
    | error e => exact hacc'
    | ok t'' => exact (FileTree.WF.createDirAll_go hacc' hD _ hc).1

end TransferManager

/-! ## The files a batch wrote -/

theorem UnitTask.ended_of_wrote {k : UnitTask} (h : k.wrote = true) : k.ended = true := by
  unfold UnitTask.wrote at h
  unfold UnitTask.ended
  split <;> simp_all

namespace TransferBatch

variable {σ : Type} {fetch : Fetch σ} {retry : RetryPolicy} {m : TransferManager} {us : List TransferUnit}
  {b b' : TransferBatch σ} {i : Nat} {k k' k₁ : UnitTask}

/-- The tree is well formed, and at the destination of every task that wrote
its file lie the bytes that some task with that destination wrote. -/
structure Landed (b : TransferBatch σ) : Prop where
  tree : b.tree.WF
  holds : ∀ k ∈ b.tasks, k.wrote = true → ∀ D, (∀ n ∈ D, PlainName n) → k.unit.destination = nativeOf D →
    ∃ k₁ ∈ b.tasks, ∃ bytes, k₁.stage = .written bytes ∧ k₁.unit.destination = k.unit.destination ∧
      b.tree.find? D = some (.file bytes)

theorem Sound.unit_mem (hb : b.Sound retry us) (hk : k ∈ b.tasks) : k.unit ∈ us := by
  obtain ⟨rest, happ, -⟩ := hb.started
  rw [← happ]
  exact List.mem_append_left _ (List.mem_map_of_mem hk)

theorem Moves.mem_of_wrote (hm : Moves retry b b' i k k') (hk : b.tasks[i]? = some k) (h₁ : k₁ ∈ b.tasks)
    (hw : k₁.wrote = true) : k₁ ∈ b'.tasks := by
  rw [hm.tasks]
  by_cases he : k₁ = k
  · subst he
    rw [hm.stays (UnitTask.ended_of_wrote hw), set_eq_self_of_getElem? hk]
    exact h₁
  · exact mem_set_of_ne h₁ hk he

/-- A move keeps the files landed: a write puts the task's bytes at its own
destination and leaves every other file as it was. -/
theorem Moves.landed (hm : Moves retry b b' i k k') (hk : b.tasks[i]? = some k) (hnat : k.unit.Native)
    (hl : b.Landed) : b'.Landed := by
  rcases hm.writes with ⟨htree, hkw⟩ | ⟨bytes, -, rfl, hw⟩
  · -- nothing was written: a task that wrote its file wrote it before
    refine ⟨htree ▸ hl.tree, fun k₂ hk₂ hw₂ D hD hdest => ?_⟩
    have hk₂' : k₂ ∈ b.tasks := by
      rw [hm.tasks] at hk₂
      rcases List.mem_or_eq_of_mem_set hk₂ with h | rfl
      · exact h
      · rw [hkw hw₂]
        exact List.mem_of_getElem? hk
    obtain ⟨k₁, hk₁, bytes, hst₁, hd₁, hf⟩ := hl.holds k₂ hk₂' hw₂ D hD hdest
    exact ⟨k₁, hm.mem_of_wrote hk hk₁ (by simp [UnitTask.wrote, hst₁]), bytes, hst₁, hd₁, htree ▸ hf⟩
  · -- the task wrote its bytes at its destination `D'`
    obtain ⟨D', hD', hne', hdest'⟩ := hnat
    rw [hdest'] at hw
    obtain ⟨hwf, hself, hframe⟩ := hl.tree.replaceFile_nativeOf hD' hne' hw
    have hi : i < b.tasks.length := (List.getElem?_eq_some_iff.mp hk).1
    have hmem : { k with stage := .written bytes } ∈ b'.tasks := by
      rw [hm.tasks]
      exact List.mem_of_getElem? (List.getElem?_set_self hi)
    refine ⟨hwf, fun k₂ hk₂ hw₂ D hD hdest => ?_⟩
    by_cases hDD : D = D'
    · subst hDD
      exact ⟨_, hmem, bytes, rfl, by rw [hdest, ← hdest'], hself⟩
    · -- another destination: what lies there was written before
      have hk₂' : k₂ ∈ b.tasks := by
        rw [hm.tasks] at hk₂
        rcases List.mem_or_eq_of_mem_set hk₂ with h | rfl
        · exact h
        · exact absurd (nativeOf_injective hD hD' (hdest.symm.trans hdest')) hDD
      obtain ⟨k₁, hk₁, bytes₁, hst₁, hd₁, hf⟩ := hl.holds k₂ hk₂' hw₂ D hD hdest
      exact ⟨k₁, hm.mem_of_wrote hk hk₁ (by simp [UnitTask.wrote, hst₁]), bytes₁, hst₁, hd₁,
        hframe D _ hDD hf⟩

variable (hus : ∀ u ∈ us, u.Native)
include hus

theorem step_landed (hb : b.Sound m.retry us) (hl : b.Landed) (ev : TransferEvent) : (b.step m fetch ev).Landed := by
  cases ev with
  | start =>
    show (b.start m.capacity).Landed
    rcases start_cases m.capacity b with h | ⟨-, h⟩ | ⟨u, rest, -, -, -, h⟩ <;> rw [h]
    · exact hl
    · exact ⟨hl.tree, hl.holds⟩
    · -- a started task has written nothing yet
      refine ⟨hl.tree, fun k₂ hk₂ hw₂ D hD hdest => ?_⟩
      rcases List.mem_append.mp hk₂ with hk₂ | hk₂
      · obtain ⟨k₁, hk₁, rest₁⟩ := hl.holds k₂ hk₂ hw₂ D hD hdest
        exact ⟨k₁, List.mem_append_left _ hk₁, rest₁⟩
      · rw [List.mem_singleton.mp hk₂] at hw₂
        simp [UnitTask.wrote] at hw₂
  | advance i =>
    show (b.advance fetch m.retry i).Landed
    cases hk : b.tasks[i]? with
    | none =>
      unfold advance
      rw [hk]
      exact hl
    | some k =>
      have hmem := List.mem_of_getElem? hk
      obtain ⟨k', hm⟩ := advance_moves fetch hk (hb.tasks k hmem)
      exact hm.landed hk (hus _ (hb.unit_mem hmem)) hl
  | cancel => exact ⟨hl.tree, hl.holds⟩

/-- With the token down at the end, every unit's destination reads as bytes
that a task with that destination fetched and wrote. -/
theorem Landed.readFile_of_down (hb : b.Sound retry us) (hd : b.Done) (ha : b.Answered fetch) (hl : b.Landed)
    (hc : b.cancelled = false) :
    ∀ u ∈ us, ∃ k ∈ b.tasks, ∃ bytes, k.stage = .written bytes ∧ k.unit.destination = u.destination ∧
      (∃ s, (fetch s k.unit.relative).1 = .ok bytes) ∧ b.tree.readFile u.destination = .ok bytes := by
  intro u hu
  rw [← hd.units_of_down hb hc] at hu
  obtain ⟨k₀, hk₀, rfl⟩ := List.mem_map.mp hu
  obtain ⟨D, hD, -, hdest⟩ := hus _ (hb.unit_mem hk₀)
  obtain ⟨k₁, hk₁, bytes, hst, hd₁, hf⟩ := hl.holds k₀ hk₀ (hd.wrote_of_down hb hc k₀ hk₀) D hD hdest
  refine ⟨k₁, hk₁, bytes, hst, hd₁, ha k₁ hk₁ bytes (.inr hst), ?_⟩
  rw [hdest]
  exact hl.tree.readFile_nativeOf hD hf

end TransferBatch

namespace TransferManager

variable {σ : Type} {m : TransferManager} {fetch : Fetch σ}

theorem runBatch_landed {us : List TransferUnit} (hus : ∀ u ∈ us, u.Native) (source : σ) (cancelled : Bool)
    (schedule : List TransferEvent) {t : FileTree} (ht : t.WF) :
    (m.runBatch fetch us source cancelled schedule t).Landed :=
  runBatch_invariant TransferBatch.Landed (fun _ ev hc hl => TransferBatch.step_landed hus hc hl ev)
    source cancelled schedule t ⟨ht, by simp⟩

theorem units_length {plans : PlanSet} {us : List TransferUnit} (h : m.units plans = .ok us) :
    us.length = plans.downloadCount := by
  rw [← (units_ok h).length_eq, PlanSet.length_downloadPaths]

/-- What a transfer does, over every source, every retry policy, every moment
the token is raised and every interleaving of the units. It is refused
exactly when a download path is not clean. Otherwise there is one unit per
download path, below the root its plan asks for; a unit fetches at most once
more than the retries allow, and tries again only after passing errors. The
outcome is the full report exactly when the token is down at the end: then
every unit was started and wrote its file, the report counts every download
path, and in a tree without links under plain roots every destination reads
as bytes that its source answered. With the token up, the report counts at
most what was written and failed. -/
theorem execute_spec (m : TransferManager) (plans : PlanSet) (fetch : Fetch σ) (source : σ) (cancelled : Bool)
    (schedule : List TransferEvent) (t : FileTree) :
    ((∃ e, m.execute plans fetch source cancelled schedule t = .error e) ↔
      ∃ x ∈ plans.downloadPaths, ∃ e, Path.sanitize x.2 = .error e) ∧
    ∀ us, m.units plans = .ok us →
      List.Forall₂ m.MadeUnit plans.downloadPaths us ∧
      ∃ run, m.execute plans fetch source cancelled schedule t = .ok run ∧
        (∀ k ∈ run.tasks, k.fetches ≤ m.retry.maxRetries + 1 ∧ ∀ e ∈ k.retried, e.transient = true) ∧
        (run.outcome.isCompleted = true ↔ run.cancelled = false) ∧
        (run.cancelled = false →
          run.tasks.map UnitTask.unit = us ∧
          (∃ r, run.outcome = .completed r ∧ r.downloaded = plans.downloadCount ∧
            r.staged + r.inPlace = plans.downloadCount) ∧
          (m.PlainRoots → t.WF → ∀ u ∈ us, ∃ k ∈ run.tasks, ∃ bytes, k.stage = .written bytes ∧
            k.unit.destination = u.destination ∧ (∃ s, (fetch s k.unit.relative).1 = .ok bytes) ∧
            run.tree.readFile u.destination = .ok bytes)) ∧
        (run.cancelled = true → ∃ c i fs, run.outcome = .cancelled c i fs ∧ i ≤ c ∧
          c + fs.length ≤ plans.downloadCount) := by
  refine ⟨⟨fun ⟨e, h⟩ => ?_, fun h => ?_⟩, fun us hus => ?_⟩
  · -- a refused transfer is refused by its units
    apply units_error_iff.mp
    cases hu : m.units plans with
    | error e' => exact ⟨e', rfl⟩
    | ok us =>
      rw [execute_of_units hu] at h
      cases h
  · obtain ⟨e, he⟩ := units_error_iff (m := m).mpr h
    exact ⟨e, by simp [execute, he, bind, Except.bind]⟩
  · obtain ⟨hb, hd, ha⟩ := runBatch_sound_done (m := m) fetch us source cancelled schedule
      (m.createDirectories plans t).2
    have hlen := units_length hus
    refine ⟨units_ok hus, _, execute_of_units hus source cancelled schedule t, ?_⟩
    dsimp only
    set b := m.runBatch fetch us source cancelled schedule (m.createDirectories plans t).2
    refine ⟨fun k hk => ⟨(hb.tasks k hk).fetches_le, (hb.tasks k hk).transient⟩, ?_, fun hc => ?_, fun hc => ?_⟩
    · cases b.cancelled <;> simp [TransferOutcome.isCompleted]
    · -- the token is down: every unit wrote its file
      have hunits := hd.units_of_down hb hc
      have hcompleted : b.completed = us.length := by
        rw [TransferBatch.completed_of_wrote (hd.wrote_of_down hb hc), ← hunits, List.length_map]
      have hstaged := List.length_filter_le (·.staged) us
      rw [if_neg (by simp [hc])]
      refine ⟨hunits, ⟨_, rfl, hcompleted.trans hlen, by dsimp only; omega⟩, fun hm ht => ?_⟩
      exact TransferBatch.Landed.readFile_of_down (units_native hm hus) hb hd ha
        (runBatch_landed (units_native hm hus) source cancelled schedule (createDirectories_wf hm plans ht)) hc
    · -- the token is up: the report counts what the tasks did
      rw [if_pos hc]
      refine ⟨_, _, _, rfl, TransferBatch.inPlace_le_completed b, ?_⟩
      have := TransferBatch.completed_add_failures_le b
      have := hb.length_le
      omega

end TransferManager

/-! ## Two runs over fixed trees -/

/-- Downloads into `live`, or into `staging` for paths that wait for a
restart, one unit at a time. -/
def liveAndStaging : TransferManager :=
  { live := ⟨nativeOf ["live"]⟩, staging := ⟨nativeOf ["staging"]⟩, concurrency := 1 }

/-- A source that answers `B` for `q/b` and `Q` for any other path. -/
def pathAnswers : Fetch Unit := fun s p => (.ok (if p = "q/b" then ByteArray.mk #[66] else ByteArray.mk #[81]), s)

/-- A file of the live tree, and one of a path that waits for a restart. -/
def liveAndStagedPlans : PlanSet :=
  { plans := [{ spec := { path := "q", restartRequired := false }, added := ["q"] },
              { spec := { path := "mods/x.dll" }, updated := ["mods/x.dll"] }] }

/-- Over a tree that holds only the live root, both files land, the staged
one below a staging root that the write makes. -/
theorem execute_spec_live_and_staged :
    ∃ us run, liveAndStaging.units liveAndStagedPlans = .ok us ∧
      liveAndStaging.execute liveAndStagedPlans pathAnswers () false [] ⟨[(["live"], .dir)]⟩ = .ok run ∧
      ∀ u ∈ us, ∃ k ∈ run.tasks, ∃ bytes, k.stage = .written bytes ∧ k.unit.destination = u.destination ∧
        (∃ s, (pathAnswers s k.unit.relative).1 = .ok bytes) ∧ run.tree.readFile u.destination = .ok bytes := by
  let live : TransferUnit := { relative := "q", destination := nativeOf ["live", "q"], staged := false }
  let staged : TransferUnit :=
    { relative := "mods/x.dll", destination := nativeOf ["staging", "mods", "x.dll"], staged := true }
  have hu : liveAndStaging.units liveAndStagedPlans = .ok [live, staged] := by decide
  have ht : (FileTree.mk [(["live"], .dir)]).WF := by
    refine ⟨by decide, ?_, by simp [FileTree.find?], by simp⟩
    unfold PlainName PlainSeg
    decide
  have hroots : liveAndStaging.PlainRoots :=
    ⟨⟨["live"], by unfold PlainName PlainSeg; decide, rfl⟩, ⟨["staging"], by unfold PlainName PlainSeg; decide, rfl⟩⟩
  obtain ⟨-, run, hrun, -, -, hdown, -⟩ :=
    (TransferManager.execute_spec liveAndStaging liveAndStagedPlans pathAnswers () false [] ⟨[(["live"], .dir)]⟩).2
      [live, staged] hu
  have hc : run.cancelled = false := by
    rw [TransferManager.execute_of_units hu] at hrun
    cases hrun
    cbv
  exact ⟨[live, staged], run, hu, hrun, (hdown hc).2.2 hroots ht⟩

/-! ## A link replaced under a file written through it -/

/-- A live tree in which `q` is a link to the directory `a`. -/
def linkedTree : FileTree := { entries := [(["live"], .dir), (["live", "a"], .dir), (["live", "q"], .link "a")] }

/-- Two paths of the live tree: `q/b`, below the link, then `q`, the link itself. -/
def throughLinkPlans : PlanSet :=
  { plans := [{ spec := { path := "q/b", restartRequired := false }, added := ["q/b"] },
              { spec := { path := "q", restartRequired := false }, added := ["q"] }] }

/-- The unit of `q/b` writes through the link into `a/b`; the unit of `q`
then replaces the link by a file. The transfer completes, yet `q/b` is no
longer there. -/
theorem execute_replacing_link_loses_file :
    ∃ us run, liveAndStaging.units throughLinkPlans = .ok us ∧
      liveAndStaging.execute throughLinkPlans pathAnswers () false [] linkedTree = .ok run ∧
      run.outcome.isCompleted = true ∧ ∃ u ∈ us, ∀ bytes, run.tree.readFile u.destination ≠ .ok bytes := by
  let below : TransferUnit := { relative := "q/b", destination := nativeOf ["live", "q", "b"], staged := false }
  let link : TransferUnit := { relative := "q", destination := nativeOf ["live", "q"], staged := false }
  have hu : liveAndStaging.units throughLinkPlans = .ok [below, link] := by decide
  have hdirs : liveAndStaging.createDirectories throughLinkPlans linkedTree = (0, linkedTree) := rfl
  have hdown : (liveAndStaging.runBatch pathAnswers [below, link] () false [] linkedTree).cancelled = false := by
    cbv
  have hread : (liveAndStaging.runBatch pathAnswers [below, link] () false [] linkedTree).tree.readFile
      below.destination = .error (.os ENOTDIR) := by
    cbv
  refine ⟨_, _, hu, TransferManager.execute_of_units hu () false [] linkedTree, ?_, below, by simp, fun bytes => ?_⟩
  all_goals rw [hdirs]
  · simp [hdown, TransferOutcome.isCompleted]
  · simp [hread]

end ModMirror
