import ModMirror.Proofs.Plan

/-!
# One sync reaches a fixed point

Once a sync has landed, the downloads are on disk with the records the server
gave them, the new directories exist, and the snapshot of each planned sync
path is the remote catalog it was planned against. Planning again against the
same server then finds nothing to do: every remote file has a local entry with
its own fingerprint, every remote directory has an entry or something below
it, and nothing can be both in the snapshot and missing from the server. The
removed paths are left in place, as they are until the external updater runs.

    P = planSync loc remote previous specs opts →
      (planSync (P.land loc) remote (previous.merge P.remote) specs opts).isEmpty
                                                          (planSync_land_isEmpty)

The argument is per sync path (`diffCatalogs_land`). A landing writes under
each download's key the record the remote catalog has there, leaves every
other key alone and takes nothing out; so a remote entry that had a verdict
has none left, and one that had none still has none.
-/

namespace ModMirror

/-! ## Landing a plan -/

/-- What a plan writes into its sync path's local catalog: each download with
the record the remote catalog gives it, then each new directory as a marker. -/
def SyncPlan.landing (p : SyncPlan) (remote : PathCatalog) : List (String × FileRecord) :=
  p.downloads.filterMap (fun x => (remote.get x).map fun r => (x, r)) ++
    p.createdDirectories.map fun d => (d, FileRecord.directory)

/-- The local catalog of a sync path once its plan has landed. Removals wait
for the external updater, so nothing is taken out. -/
def SyncPlan.land (p : SyncPlan) (remote loc : PathCatalog) : PathCatalog :=
  (p.landing remote).foldl (fun c e => c.add e.1 e.2) loc

/-- The local catalogs once a plan set has landed: each plan lands on the
local catalog of its sync path, with the remote catalog recorded for it. -/
def PlanSet.land (ps : PlanSet) (loc : CatalogSet) : CatalogSet :=
  ps.plans.foldl (fun acc p =>
    acc.add p.spec.path (p.land (ps.remote.getOrEmpty p.spec.path) (loc.getOrEmpty p.spec.path))) loc

namespace SyncPlan

variable {p : SyncPlan} {remote loc : PathCatalog}

theorem mem_landing {e : String × FileRecord} :
    e ∈ p.landing remote ↔
      (e.1 ∈ p.downloads ∧ remote.get e.1 = some e.2) ∨ (e.1 ∈ p.createdDirectories ∧ e.2 = .directory) := by
  obtain ⟨x, r⟩ := e
  simp only [landing, List.mem_append, List.mem_filterMap, Option.map_eq_some_iff, List.mem_map, Prod.mk.injEq]
  constructor
  · rintro (⟨y, hy, r', hr', rfl, rfl⟩ | ⟨d, hd, rfl, rfl⟩)
    · exact .inl ⟨hy, hr'⟩
    · exact .inr ⟨hd, rfl⟩
  · rintro (⟨hx, hr⟩ | ⟨hx, rfl⟩)
    · exact .inl ⟨x, hx, r, hr, rfl, rfl⟩
    · exact .inr ⟨x, hx, rfl, rfl⟩

theorem get_land_of_untouched {q : String}
    (hq : ∀ x ∈ p.downloads ++ p.createdDirectories, catalogKey x ≠ catalogKey q) :
    (p.land remote loc).get q = loc.get q := by
  have hnil : (p.landing remote).filter (fun e => catalogKey e.1 = catalogKey q) = [] := by
    rw [List.filter_eq_nil_iff]
    intro e he hkey
    have hx : e.1 ∈ p.downloads ++ p.createdDirectories := by
      rcases mem_landing.mp he with ⟨hx, -⟩ | ⟨hx, -⟩
      · exact List.mem_append_left _ hx
      · exact List.mem_append_right _ hx
    exact hq e.1 hx (of_decide_eq_true hkey)
  rw [land, PathCatalog.get_foldl_add, hnil]
  rfl

theorem hasDescendant_land {dir : String} (h : loc.hasDescendant dir = true) :
    (p.land remote loc).hasDescendant dir = true :=
  PathCatalog.hasDescendant_foldl_add h _

theorem isSome_get_land_created {d : String} (hd : d ∈ p.createdDirectories) :
    ((p.land remote loc).get d).isSome := by
  have hmem : (d, FileRecord.directory) ∈ (p.landing remote).filter fun e => catalogKey e.1 = catalogKey d :=
    List.mem_filter.mpr ⟨mem_landing.mpr (.inr ⟨hd, rfl⟩), decide_eq_true rfl⟩
  rw [land, PathCatalog.get_foldl_add, Option.isSome_or, Option.isSome_map,
    List.getLast?_isSome.mpr (List.ne_nil_of_mem hmem), Bool.true_or]

/-- A download lands with its remote record when every write under its key
carries that record. -/
theorem get_land_of_download {x : String} {r : FileRecord} (hx : x ∈ p.downloads) (hr : remote.get x = some r)
    (hagree : ∀ e ∈ p.landing remote, catalogKey e.1 = catalogKey x → e.2 = r) :
    (p.land remote loc).get x = some r := by
  have hmem : (x, r) ∈ (p.landing remote).filter fun e => catalogKey e.1 = catalogKey x :=
    List.mem_filter.mpr ⟨mem_landing.mpr (.inl ⟨hx, hr⟩), decide_eq_true rfl⟩
  obtain ⟨e, he⟩ := Option.isSome_iff_exists.mp (List.getLast?_isSome.mpr (List.ne_nil_of_mem hmem))
  have hemem := List.mem_filter.mp (List.mem_of_getLast? he)
  rw [land, PathCatalog.get_foldl_add, he, Option.map_some, Option.some_or,
    hagree e hemem.1 (of_decide_eq_true hemem.2)]

end SyncPlan

/-! ## Replanning a landed sync path -/

section Replan

variable {spec : SyncPathSpec} {loc remote previous : PathCatalog} {rem : Bool}

theorem mem_downloads_diffCatalogs {x : String} :
    x ∈ (diffCatalogs spec loc remote previous rem).downloads ↔
      ∃ e ∈ remote.toList, (addsFile loc e = true ∨ updatesFile loc e = true) ∧ e.1 = x := by
  simp only [SyncPlan.downloads, diffCatalogs_eq, List.mem_append, List.mem_map, List.mem_filter]
  constructor
  · rintro (⟨e, ⟨he, hv⟩, rfl⟩ | ⟨e, ⟨he, hv⟩, rfl⟩)
    · exact ⟨e, he, .inl hv, rfl⟩
    · exact ⟨e, he, .inr hv, rfl⟩
  · rintro ⟨e, he, hv | hv, rfl⟩
    · exact .inl ⟨e, ⟨he, hv⟩, rfl⟩
    · exact .inr ⟨e, ⟨he, hv⟩, rfl⟩

theorem mem_createdDirectories_diffCatalogs {x : String} :
    x ∈ (diffCatalogs spec loc remote previous rem).createdDirectories ↔
      ∃ e ∈ remote.toList, createsDir loc e = true ∧ e.1 = x := by
  simp only [diffCatalogs_eq, List.mem_map, List.mem_filter, and_assoc]

variable (hr : remote.WF)
include hr

/-- Every write of a landing under a download's key carries the download's
remote record: a new directory never shares a key with a download. -/
theorem landing_agrees {x : String} {r : FileRecord} (hx : x ∈ (diffCatalogs spec loc remote previous rem).downloads)
    (hxr : remote.get x = some r) :
    ∀ e ∈ (diffCatalogs spec loc remote previous rem).landing remote, catalogKey e.1 = catalogKey x → e.2 = r := by
  intro e he hkey
  rcases SyncPlan.mem_landing.mp he with ⟨-, hget⟩ | ⟨hd, -⟩
  · -- a download under the same key reads the same remote record
    rw [remote.get_congr hkey, hxr] at hget
    exact (Option.some.inj hget).symm
  · -- a directory and a download under one key would be one remote entry with two verdicts
    obtain ⟨d, hdmem, hdv, hde⟩ := mem_createdDirectories_diffCatalogs.mp hd
    obtain ⟨f, hfmem, hfv, hfx⟩ := mem_downloads_diffCatalogs.mp hx
    have hsame : d = f := hr.eq_of_catalogKey_eq hdmem hfmem (by rw [hde, hfx, hkey])
    subst hsame
    rcases hfv with hv | hv
    · rw [((addsFile_exclusive d).1 hv).2] at hdv
      cases hdv
    · rw [(addsFile_exclusive d).2 hv] at hdv
      cases hdv

theorem verdicts_land {e : String × FileRecord} (he : e ∈ remote.toList) :
    addsFile ((diffCatalogs spec loc remote previous rem).land remote loc) e = false ∧
      updatesFile ((diffCatalogs spec loc remote previous rem).land remote loc) e = false ∧
      createsDir ((diffCatalogs spec loc remote previous rem).land remote loc) e = false := by
  set p := diffCatalogs spec loc remote previous rem
  by_cases hdl : addsFile loc e = true ∨ updatesFile loc e = true
  · -- a download lands with its own remote record
    have hx : e.1 ∈ p.downloads := mem_downloads_diffCatalogs.mpr ⟨e, he, hdl, rfl⟩
    have hget : (p.land remote loc).get e.1 = some e.2 :=
      SyncPlan.get_land_of_download hx (hr.get_of_mem he) (landing_agrees hr hx (hr.get_of_mem he))
    simp [addsFile, updatesFile, createsDir, hget]
  by_cases hcd : createsDir loc e = true
  · -- a new directory lands as a marker
    have hd : e.1 ∈ p.createdDirectories := mem_createdDirectories_diffCatalogs.mpr ⟨e, he, hcd, rfl⟩
    have hsome : ((p.land remote loc).get e.1).isSome := SyncPlan.isSome_get_land_created hd
    have hdir : e.2.isDirectory = true := by
      simp only [createsDir, Bool.and_eq_true] at hcd
      exact hcd.1.2
    obtain ⟨l, hl⟩ := Option.isSome_iff_exists.mp hsome
    simp [addsFile, updatesFile, createsDir, hl, hdir]
  -- an entry without a verdict: no write has its key, so the verdicts read the old lookup
  have huntouched : ∀ x ∈ p.downloads ++ p.createdDirectories, catalogKey x ≠ catalogKey e.1 := by
    intro x hx hkey
    rcases List.mem_append.mp hx with hx | hx
    · obtain ⟨f, hf, hfv, rfl⟩ := mem_downloads_diffCatalogs.mp hx
      rw [hr.eq_of_catalogKey_eq hf he hkey] at hfv
      exact hdl hfv
    · obtain ⟨f, hf, hfv, rfl⟩ := mem_createdDirectories_diffCatalogs.mp hx
      rw [hr.eq_of_catalogKey_eq hf he hkey] at hfv
      exact hcd hfv
  have hget : (p.land remote loc).get e.1 = loc.get e.1 := SyncPlan.get_land_of_untouched huntouched
  obtain ⟨hadd, hupd⟩ : addsFile loc e = false ∧ updatesFile loc e = false := by
    simpa only [not_or, Bool.not_eq_true] using hdl
  have hcreate : createsDir loc e = false := by simpa only [Bool.not_eq_true] using hcd
  refine ⟨?_, ?_, ?_⟩
  · rw [← hadd]
    simp only [addsFile, hget]
  · rw [← hupd]
    simp only [updatesFile, hget]
  · -- what lay below the directory still does
    unfold createsDir at hcreate ⊢
    rw [hget]
    cases hdesc : loc.hasDescendant e.1
    · rw [hdesc, Bool.not_false, Bool.and_true] at hcreate
      rw [hcreate, Bool.false_and]
    · rw [SyncPlan.hasDescendant_land hdesc, Bool.not_true, Bool.and_false]

/-- **A landed sync path plans nothing.** With its remote catalog as the
snapshot, a sync path whose plan has landed is planned with no change, whether
removals are active or not. -/
theorem diffCatalogs_land (rem' : Bool) :
    (diffCatalogs spec ((diffCatalogs spec loc remote previous rem).land remote loc) remote remote rem').changeCount
      = 0 := by
  have hnone : ∀ (f : String × FileRecord → Bool), (∀ e ∈ remote.toList, f e = false) →
      (remote.toList.filter f).map Prod.fst = [] := by
    intro f hf
    rw [List.filter_eq_nil_iff.mpr fun e he h => by rw [hf e he] at h; cases h]
    rfl
  have hadd : ∀ e ∈ remote.toList,
      addsFile ((diffCatalogs spec loc remote previous rem).land remote loc) e = false :=
    fun e he => (verdicts_land hr he).1
  have hupd : ∀ e ∈ remote.toList,
      updatesFile ((diffCatalogs spec loc remote previous rem).land remote loc) e = false :=
    fun e he => (verdicts_land hr he).2.1
  have hcreate : ∀ e ∈ remote.toList,
      createsDir ((diffCatalogs spec loc remote previous rem).land remote loc) e = false :=
    fun e he => (verdicts_land hr he).2.2
  -- nothing is both in the snapshot and missing from the server, since the snapshot is the server's
  have hremove : ∀ c : PathCatalog, c.toList.filter (removesEntry remote remote) = [] := by
    intro c
    rw [List.filter_eq_nil_iff]
    intro e _
    simp [removesEntry]
  rw [diffCatalogs_eq, SyncPlan.changeCount]
  simp only [hnone _ hadd, hnone _ hupd, hnone _ hcreate, hremove, List.map_nil, ite_self, List.length_nil]

end Replan

/-! ## Replanning a landed plan set -/

theorem filter_key_eq_singleton {α β : Type} [DecidableEq β] {k : α → β} {l : List α} (hl : (l.map k).Nodup)
    {a : α} (ha : a ∈ l) : l.filter (fun x => k x = k a) = [a] := by
  induction l with
  | nil => cases ha
  | cons x l ih =>
    obtain ⟨hx, hl'⟩ := List.nodup_cons.mp hl
    rcases List.mem_cons.mp ha with rfl | ha
    · have hnil : l.filter (fun y => k y = k a) = [] := by
        rw [List.filter_eq_nil_iff]
        intro y hy hky
        exact hx (of_decide_eq_true hky ▸ List.mem_map_of_mem hy)
      simp [hnil]
    · have hne : k x ≠ k a := fun h => hx (h ▸ List.mem_map_of_mem ha)
      simp [hne, ih hl' ha]

section PlanSet

variable (loc remote previous : CatalogSet) (specs : List SyncPathSpec) (opts : PlanOptions)

theorem planSync_remote_wf (hremote : remote.WF) : (planSync loc remote previous specs opts).remote.WF := by
  rw [planSync_eq]
  suffices ∀ acc : CatalogSet, acc.WF →
      (specs.foldl (fun acc s => acc.add s.path (effectiveRemote (remote.getOrEmpty s.path) s opts)) acc).WF from
    this _ CatalogSet.wf_empty
  induction specs with
  | nil => exact fun acc h => h
  | cons s specs ih => exact fun acc h => ih _ (h.add _ (effectiveRemote_wf (hremote.getOrEmpty _) s opts))

variable {loc remote previous specs opts} (hkeys : (specs.map fun s => catalogKey s.path).Nodup)
  {s : SyncPathSpec} (hs : s ∈ specs)
include hkeys hs

theorem planSync_remote_get :
    (planSync loc remote previous specs opts).remote.get s.path =
      some (effectiveRemote (remote.getOrEmpty s.path) s opts) := by
  rw [planSync_eq]
  dsimp only
  rw [CatalogSet.get_foldl_add, filter_key_eq_singleton hkeys hs]
  rfl

theorem land_getOrEmpty :
    ((planSync loc remote previous specs opts).land loc).getOrEmpty s.path =
      (planFor loc remote previous opts s).land (effectiveRemote (remote.getOrEmpty s.path) s opts)
        (loc.getOrEmpty s.path) := by
  have hplans : ((planSync loc remote previous specs opts).plans.filter fun p =>
      catalogKey p.spec.path = catalogKey s.path) = [planFor loc remote previous opts s] := by
    rw [planSync_eq]
    dsimp only
    rw [List.filter_map]
    simp only [Function.comp_def, planFor_spec]
    rw [filter_key_eq_singleton hkeys hs, List.map_singleton]
  rw [CatalogSet.getOrEmpty, PlanSet.land, CatalogSet.get_foldl_add, hplans, List.getLast?_singleton,
    Option.map_some, Option.some_or, Option.getD_some, planFor_spec, CatalogSet.getOrEmpty,
    planSync_remote_get hkeys hs, Option.getD_some]

/-- With distinct keys, merging a plan set's remote catalogs makes each sync
path's snapshot its effective remote catalog. -/
theorem merge_getOrEmpty (hremote : remote.WF) :
    (previous.merge (planSync loc remote previous specs opts).remote).getOrEmpty s.path =
      effectiveRemote (remote.getOrEmpty s.path) s opts := by
  rw [CatalogSet.getOrEmpty, CatalogSet.get_merge _ (planSync_remote_wf _ _ _ _ _ hremote),
    planSync_remote_get hkeys hs, Option.some_or, Option.getD_some]

end PlanSet

theorem PlanSet.isEmpty_of_changeCount {ps : PlanSet} (h : ∀ p ∈ ps.plans, p.changeCount = 0) :
    ps.isEmpty = true := by
  have hsum : (ps.plans.map SyncPlan.changeCount).sum = 0 := by
    rw [List.sum_eq_zero_iff_forall_eq_nat]
    intro n hn
    obtain ⟨p, hp, rfl⟩ := List.mem_map.mp hn
    exact h p hp
  unfold PlanSet.isEmpty PlanSet.updateCount
  rw [beq_iff_eq]
  exact hsum

/-- **One sync reaches a fixed point.** For specs with distinct keys, once a
plan set has landed on the local catalogs (downloads with their remote
records, new directories as markers, removals left in place) and its remote
catalogs are merged into the snapshot, planning again against the same server
finds nothing to do. -/
theorem planSync_land_isEmpty (loc remote previous : CatalogSet) (specs : List SyncPathSpec) (opts : PlanOptions)
    (hremote : remote.WF) (hkeys : (specs.map fun s => catalogKey s.path).Nodup) :
    (planSync ((planSync loc remote previous specs opts).land loc) remote
      (previous.merge (planSync loc remote previous specs opts).remote) specs opts).isEmpty = true := by
  apply PlanSet.isEmpty_of_changeCount
  intro p hp
  rw [planSync_eq] at hp
  obtain ⟨s, hs, rfl⟩ := List.mem_map.mp hp
  rw [planFor, land_getOrEmpty hkeys hs, merge_getOrEmpty hkeys hs hremote, planFor]
  exact diffCatalogs_land (effectiveRemote_wf (hremote.getOrEmpty _) s opts) _

/-! ## Two sync paths in a second sync

The optional `mods` holds a file renamed by case on disk, a stale file and a
file the server dropped since the last sync; the enforced `cfg` gains an
empty directory. -/

/-- The server's catalogs. -/
def twoPathsRemote : CatalogSet :=
  (CatalogSet.empty.add "mods" ((PathCatalog.empty.add "mods/A.dll" (.file "a1")).add "mods/b.dll" (.file "b2"))).add
    "cfg" (PathCatalog.empty.add "cfg/empty" .directory)

/-- The install's catalogs. -/
def twoPathsLocal : CatalogSet :=
  CatalogSet.empty.add "mods" (((PathCatalog.empty.add "Mods/a.dll" (.file "a1")).add "mods/b.dll" (.file "b1")).add
    "mods/gone.dll" (.file "g"))

def twoPathsPrevious : CatalogSet :=
  CatalogSet.empty.add "mods" (PathCatalog.empty.add "mods/gone.dll" (.file "g"))

def twoPathsSpecs : List SyncPathSpec := [{ path := "mods" }, { path := "cfg", enforced := true }]

/-- After the second sync of the two paths lands, a third plans nothing. -/
theorem planSync_land_isEmpty_two_paths :
    twoPathsRemote.WF ∧ (twoPathsSpecs.map fun s => catalogKey s.path).Nodup ∧
      (planSync ((planSync twoPathsLocal twoPathsRemote twoPathsPrevious twoPathsSpecs {}).land twoPathsLocal)
        twoPathsRemote (twoPathsPrevious.merge (planSync twoPathsLocal twoPathsRemote twoPathsPrevious twoPathsSpecs
          {}).remote) twoPathsSpecs {}).isEmpty = true := by
  have hremote : twoPathsRemote.WF :=
    (CatalogSet.wf_empty.add "mods" ((PathCatalog.wf_empty.add "mods/A.dll" (.file "a1")).add "mods/b.dll"
      (.file "b2"))).add "cfg" (PathCatalog.wf_empty.add "cfg/empty" .directory)
  have hkeys : (twoPathsSpecs.map fun s => catalogKey s.path).Nodup := by decide
  exact ⟨hremote, hkeys, planSync_land_isEmpty _ _ _ _ _ hremote hkeys⟩

end ModMirror
