import ModMirror.Sync.Plan
import ModMirror.Proofs.Catalog

/-!
# The three-way plan of each sync path

Planning a sync path decides every catalog entry on its own. Walking the
remote catalog `R`, an entry is added, updated or created as a directory
according to the local catalog `L`; walking `L`, an entry is removed
according to `R` and to the previous snapshot `P`. So the four lists of a
plan are filters of `R` and of `L`, in their order and spelling
(`diffCatalogs_eq`), and a plan set is one such plan per spec
(`planSync_eq`).

Under the catalog invariant the verdicts read as facts about spellings
compared through their keys:

    added    = files of R that L does not hold
    updated  = files of R whose L entry is a directory or has another hash
    created  = directories of R with neither an L entry nor anything of L below
    removed  = entries of L that P holds and R does not, except directories R has filled
-/

namespace ModMirror

open PathCatalog

/-! ## The verdict on one entry -/

/-- A remote file with no local entry under its key: downloaded as new. -/
def addsFile (loc : PathCatalog) (e : String × FileRecord) : Bool :=
  (loc.get e.1).isNone && !e.2.isDirectory

/-- A remote file whose local entry is a directory or has other content: downloaded again. -/
def updatesFile (loc : PathCatalog) (e : String × FileRecord) : Bool :=
  match loc.get e.1 with
  | some l => !e.2.isDirectory && (l.isDirectory || l.hash != e.2.hash)
  | none => false

/-- A remote directory with no local entry and nothing local below it: created. -/
def createsDir (loc : PathCatalog) (e : String × FileRecord) : Bool :=
  (loc.get e.1).isNone && e.2.isDirectory && !loc.hasDescendant e.1

/-- A local entry the server dropped since the last sync, unless it is a
directory the server has since filled: removed. -/
def removesEntry (remote previous : PathCatalog) (e : String × FileRecord) : Bool :=
  !remote.contains e.1 && previous.contains e.1 && !(e.2.isDirectory && remote.hasDescendant e.1)

/-- The plan of one sync path within a plan set. -/
def planFor (loc remote previous : CatalogSet) (opts : PlanOptions) (s : SyncPathSpec) : SyncPlan :=
  diffCatalogs s (loc.getOrEmpty s.path) (effectiveRemote (remote.getOrEmpty s.path) s opts)
    (previous.getOrEmpty s.path) (s.enforced || opts.deleteRemovedFiles)

/-! ## Plans as filters -/

section Walks

variable (loc remote previous : PathCatalog)

theorem foldl_remote_walk {f : SyncPlan → String × FileRecord → SyncPlan}
    (hf : ∀ plan e, f plan e =
      { plan with
        added := plan.added ++ if addsFile loc e then [e.1] else [],
        updated := plan.updated ++ if updatesFile loc e then [e.1] else [],
        createdDirectories := plan.createdDirectories ++ if createsDir loc e then [e.1] else [] })
    (xs : List (String × FileRecord)) (plan : SyncPlan) :
    xs.foldl f plan =
      { plan with
        added := plan.added ++ (xs.filter (addsFile loc)).map Prod.fst,
        updated := plan.updated ++ (xs.filter (updatesFile loc)).map Prod.fst,
        createdDirectories := plan.createdDirectories ++ (xs.filter (createsDir loc)).map Prod.fst } := by
  induction xs generalizing plan with
  | nil => simp
  | cons e xs ih =>
    rw [List.foldl_cons, ih, hf]
    simp only [List.filter_cons]
    split_ifs <;> simp

theorem foldl_local_walk {f : SyncPlan → String × FileRecord → SyncPlan}
    (hf : ∀ plan e, f plan e =
      { plan with removed := plan.removed ++ if removesEntry remote previous e then [e.1] else [] })
    (xs : List (String × FileRecord)) (plan : SyncPlan) :
    xs.foldl f plan =
      { plan with removed := plan.removed ++ (xs.filter (removesEntry remote previous)).map Prod.fst } := by
  induction xs generalizing plan with
  | nil => simp
  | cons e xs ih =>
    rw [List.foldl_cons, ih, hf]
    simp only [List.filter_cons]
    split_ifs <;> simp

/-- The plan of a sync path: three filters of the remote catalog and, when
removals are active, one of the local catalog. -/
theorem diffCatalogs_eq (spec : SyncPathSpec) (removals : Bool) :
    diffCatalogs spec loc remote previous removals =
      { spec,
        added := (remote.toList.filter (addsFile loc)).map Prod.fst,
        updated := (remote.toList.filter (updatesFile loc)).map Prod.fst,
        removed := if removals then (loc.toList.filter (removesEntry remote previous)).map Prod.fst else [],
        createdDirectories := (remote.toList.filter (createsDir loc)).map Prod.fst } := by
  unfold diffCatalogs
  rw [foldl_remote_walk loc ?walk]
  case walk =>
    rintro plan ⟨path, hash, isDir⟩
    simp only [addsFile, updatesFile, createsDir]
    rcases Option.eq_none_or_eq_some (loc.get path) with hget | ⟨⟨lhash, ldir⟩, hget⟩
    · by_cases hd : loc.hasDescendant path <;> cases isDir <;> simp [hget, hd]
    · cases isDir <;> cases ldir <;> simp [hget]
      -- a local file under a remote file: updated exactly when the fingerprints differ
      split_ifs <;> simp
  cases removals with
  | false => rfl
  | true =>
    simp only [if_true]
    rw [foldl_local_walk remote previous ?walk]
    case walk =>
      rintro plan ⟨path, l⟩
      simp only [removesEntry]
      by_cases hin : remote.contains path <;> by_cases hprev : previous.contains path <;>
        by_cases hdir : l.isDirectory && remote.hasDescendant path <;> simp [hin, hprev, hdir]
    rfl

end Walks

/-- A plan set holds the plan of each spec in order, and the effective
remote catalogs inserted one spec after the other. -/
theorem planSync_eq (loc remote previous : CatalogSet) (specs : List SyncPathSpec) (opts : PlanOptions) :
    planSync loc remote previous specs opts =
      { plans := specs.map (planFor loc remote previous opts),
        remote := specs.foldl (fun acc s => acc.add s.path (effectiveRemote (remote.getOrEmpty s.path) s opts)) {} } := by
  unfold planSync
  suffices ∀ (set : PlanSet), specs.foldl (fun (set : PlanSet) spec =>
      let r := effectiveRemote (remote.getOrEmpty spec.path) spec opts
      { plans := set.plans ++ [diffCatalogs spec (loc.getOrEmpty spec.path) r (previous.getOrEmpty spec.path)
          (spec.enforced || opts.deleteRemovedFiles)], remote := set.remote.add spec.path r }) set =
      { plans := set.plans ++ specs.map (planFor loc remote previous opts),
        remote := specs.foldl (fun acc s => acc.add s.path (effectiveRemote (remote.getOrEmpty s.path) s opts))
          set.remote } by
    simpa using this {}
  induction specs with
  | nil => simp
  | cons s specs ih =>
    intro set
    rw [List.foldl_cons, ih]
    simp [planFor]

theorem diffCatalogs_spec (spec : SyncPathSpec) (loc remote previous : PathCatalog) (removals : Bool) :
    (diffCatalogs spec loc remote previous removals).spec = spec := by
  rw [diffCatalogs_eq]

theorem planSync_specs (loc remote previous : CatalogSet) (specs : List SyncPathSpec) (opts : PlanOptions) :
    (planSync loc remote previous specs opts).plans.map (·.spec) = specs := by
  rw [planSync_eq, List.map_map]
  conv_rhs => rw [← List.map_id specs]
  exact List.map_congr_left fun s _ => diffCatalogs_spec _ _ _ _ _

theorem mem_planSync {loc remote previous : CatalogSet} {specs : List SyncPathSpec} {opts : PlanOptions}
    {p : SyncPlan} (hp : p ∈ (planSync loc remote previous specs opts).plans) :
    p.spec ∈ specs ∧ p = planFor loc remote previous opts p.spec := by
  rw [planSync_eq, List.mem_map] at hp
  obtain ⟨s, hs, rfl⟩ := hp
  rw [planFor, diffCatalogs_spec]
  exact ⟨hs, rfl⟩

/-! ## Verdicts under the catalog invariant -/

section Verdicts

variable {loc remote previous : PathCatalog}

theorem addsFile_eq (hl : loc.WF) (e : String × FileRecord) :
    addsFile loc e = decide (e.2.isDirectory = false ∧ ¬ loc.Holds e.1) := by
  have hnone := hl.get_eq_none_iff e.1
  unfold addsFile
  cases hget : loc.get e.1 <;> cases e.2.isDirectory <;> simp_all

theorem updatesFile_eq (hl : loc.WF) (e : String × FileRecord) :
    updatesFile loc e = decide (e.2.isDirectory = false ∧ ∃ l ∈ loc.toList,
      catalogKey l.1 = catalogKey e.1 ∧ (l.2.isDirectory = true ∨ l.2.hash ≠ e.2.hash)) := by
  unfold updatesFile
  cases hget : loc.get e.1 with
  | none =>
    -- no local entry under the key, so no stored spelling has it
    have hno := (hl.get_eq_none_iff e.1).mp hget
    simp only [Bool.false_eq, decide_eq_false_iff_not, not_and, not_exists]
    intro _ l hmem hkey _
    exact hno ⟨l, hmem, hkey⟩
  | some l =>
    obtain ⟨y, hy, hkey⟩ := (hl.get_eq_some_iff e.1 l).mp hget
    have hunique : ∀ z ∈ loc.toList, catalogKey z.1 = catalogKey e.1 → z.2 = l := by
      intro z hz hzkey
      have := (hl.get_eq_some_iff e.1 z.2).mpr ⟨z.1, hz, hzkey⟩
      rw [hget] at this
      exact (Option.some.inj this).symm
    apply Bool.eq_iff_iff.mpr
    simp only [Bool.and_eq_true, Bool.not_eq_true', Bool.or_eq_true, bne_iff_ne, ne_eq,
      decide_eq_true_eq]
    constructor
    · rintro ⟨hfile, hdiff⟩
      exact ⟨hfile, (y, l), hy, hkey, hdiff⟩
    · rintro ⟨hfile, z, hz, hzkey, hdiff⟩
      rw [hunique z hz hzkey] at hdiff
      exact ⟨hfile, hdiff⟩

theorem createsDir_eq (hl : loc.WF) (e : String × FileRecord) :
    createsDir loc e = decide (e.2.isDirectory = true ∧ ¬ loc.Holds e.1 ∧ ¬ loc.HoldsBelow e.1) := by
  have hnone := hl.get_eq_none_iff e.1
  have hbelow := hl.hasDescendant_iff e.1
  unfold createsDir
  cases hget : loc.get e.1 <;> cases e.2.isDirectory <;> cases hd : loc.hasDescendant e.1 <;> simp_all

theorem removesEntry_eq (hr : remote.WF) (hp : previous.WF) (e : String × FileRecord) :
    removesEntry remote previous e =
      decide (previous.Holds e.1 ∧ ¬ remote.Holds e.1 ∧ ¬ (e.2.isDirectory = true ∧ remote.HoldsBelow e.1)) := by
  have hin := hr.contains_iff e.1
  have hprev := hp.contains_iff e.1
  have hbelow := hr.hasDescendant_iff e.1
  unfold removesEntry
  cases hc : remote.contains e.1 <;> cases hpc : previous.contains e.1 <;> cases e.2.isDirectory <;>
    cases hd : remote.hasDescendant e.1 <;> simp_all

theorem addsFile_exclusive (e : String × FileRecord) :
    (addsFile loc e = true → updatesFile loc e = false ∧ createsDir loc e = false) ∧
      (updatesFile loc e = true → createsDir loc e = false) := by
  unfold addsFile updatesFile createsDir
  cases loc.get e.1 <;> cases e.2.isDirectory <;> simp

end Verdicts

/-! ## Lists without repeated keys -/

section Lists

variable {α β : Type}

/-- Two filters by exclusive tests take different entries, and entries of a
list with distinct keys differ in their keys. -/
theorem disjoint_map_filter {l : List α} (k : α → β) (hl : (l.map k).Nodup) (p q : α → Bool)
    (hpq : ∀ a ∈ l, p a = true → q a = false) :
    List.Disjoint ((l.filter p).map k) ((l.filter q).map k) := by
  intro b hb hb'
  obtain ⟨a, ha, rfl⟩ := List.mem_map.mp hb
  obtain ⟨a', ha', hkey⟩ := List.mem_map.mp hb'
  rw [List.mem_filter] at ha ha'
  have hsame : a' = a := List.inj_on_of_nodup_map hl ha'.1 ha.1 hkey
  subst hsame
  rw [hpq a' ha'.1 ha.2] at ha'
  exact Bool.false_ne_true ha'.2

theorem nodup_map_filter {l : List α} (k : α → β) (hl : (l.map k).Nodup) (p : α → Bool) :
    ((l.filter p).map k).Nodup :=
  hl.sublist ((List.filter_sublist).map k)

end Lists

/-! ## One plan per spec -/

theorem planFor_spec (loc remote previous : CatalogSet) (opts : PlanOptions) (s : SyncPathSpec) :
    (planFor loc remote previous opts s).spec = s :=
  diffCatalogs_spec _ _ _ _ _

theorem effectiveRemote_wf {c : PathCatalog} (hc : c.WF) (s : SyncPathSpec) (opts : PlanOptions) :
    (effectiveRemote c s opts).WF := by
  unfold effectiveRemote
  split
  · exact hc.retain _
  · exact hc

/-- An enforced path is planned alike under all options: nothing is filtered
from its remote catalog and its removals are always active. -/
theorem planFor_enforced (loc remote previous : CatalogSet) {s : SyncPathSpec} (hs : s.enforced = true)
    (opts opts' : PlanOptions) : planFor loc remote previous opts s = planFor loc remote previous opts' s := by
  simp [planFor, effectiveRemote, hs]

/-! ## The removal rule -/

theorem planFor_removed (loc remote previous : CatalogSet) (opts : PlanOptions) (s : SyncPathSpec) :
    (planFor loc remote previous opts s).removed =
      if s.enforced || opts.deleteRemovedFiles then
        ((loc.getOrEmpty s.path).toList.filter
          (removesEntry (effectiveRemote (remote.getOrEmpty s.path) s opts) (previous.getOrEmpty s.path))).map
            Prod.fst
      else [] := by
  rw [planFor, diffCatalogs_eq]

/-- The three-way removal rule over a plan set: every spec has its plan, in
order. A plan removes nothing unless its path is enforced or removals are
switched on; then it removes, once each, in the local catalog's order and
spelling, exactly the local entries the previous snapshot holds and the
effective remote catalog does not, except a local directory the remote has
filled. Nothing the previous snapshot lacks is ever removed. -/
def RemovalRule (loc remote previous : CatalogSet) (specs : List SyncPathSpec) (opts : PlanOptions)
    (plans : PlanSet) : Prop :=
  plans.plans.map (·.spec) = specs ∧
  ∀ p ∈ plans.plans,
    let L := loc.getOrEmpty p.spec.path
    let P := previous.getOrEmpty p.spec.path
    let R := if !p.spec.enforced && !opts.localExclusions.isEmpty then
        (remote.getOrEmpty p.spec.path).retain fun x _ => !opts.localExclusions.matchesPrefix x
      else remote.getOrEmpty p.spec.path
    p.removed = (if p.spec.enforced || opts.deleteRemovedFiles then
        (L.toList.filter fun e =>
          decide (P.Holds e.1 ∧ ¬ R.Holds e.1 ∧ ¬ (e.2.isDirectory = true ∧ R.HoldsBelow e.1))).map Prod.fst
      else []) ∧
    (p.removed.map Path.foldKey).Nodup ∧
    ∀ x ∈ p.removed, P.Holds x

/-- **Three-way removal rule.** Planning follows `RemovalRule` for all catalogs. -/
theorem planSync_removals (loc remote previous : CatalogSet) (specs : List SyncPathSpec) (opts : PlanOptions)
    (hloc : loc.WF) (hremote : remote.WF) (hprev : previous.WF) :
    RemovalRule loc remote previous specs opts (planSync loc remote previous specs opts) := by
  refine ⟨planSync_specs .., fun p hp => ?_⟩
  rw [planSync_eq, List.mem_map] at hp
  obtain ⟨s, -, rfl⟩ := hp
  simp -zeta only [planFor_spec]
  intro L P R
  have hL : L.WF := hloc.getOrEmpty _
  have hP : P.WF := hprev.getOrEmpty _
  have hR : R.WF := effectiveRemote_wf (hremote.getOrEmpty _) s opts
  have hfilter : L.toList.filter (removesEntry R P) = L.toList.filter fun e =>
      decide (P.Holds e.1 ∧ ¬ R.Holds e.1 ∧ ¬ (e.2.isDirectory = true ∧ R.HoldsBelow e.1)) :=
    List.filter_congr fun e _ => removesEntry_eq hR hP e
  have hremoved := planFor_removed loc remote previous opts s
  change _ = if _ then (L.toList.filter (removesEntry R P)).map Prod.fst else [] at hremoved
  rw [hfilter] at hremoved
  refine ⟨hremoved, ?_, ?_⟩
  · rw [hremoved]
    split
    · rw [List.map_map]
      exact nodup_map_filter (Path.foldKey ∘ Prod.fst) hL.nodup_foldKey _
    · simp
  · intro x hx
    rw [hremoved] at hx
    split at hx
    · obtain ⟨e, he, rfl⟩ := List.mem_map.mp hx
      exact (decide_eq_true_iff.mp (List.mem_filter.mp he).2).1
    · simp at hx

/-- A file renamed by case on disk, a directory the server has since filled,
and a file the server still serves: only the renamed file is removed. -/
theorem planSync_removals_mixed_case :
    (CatalogSet.empty.add "mods" (((PathCatalog.empty.add "Mods/Old.dll" (.file "h0")).add
      "mods/cfg" .directory).add "mods/keep.dll" (.file "h2"))).WF ∧
    (CatalogSet.empty.add "MODS" ((PathCatalog.empty.add "mods/cfg/new.ini" (.file "h1")).add
      "mods/KEEP.dll" (.file "h2"))).WF ∧
    (CatalogSet.empty.add "mods" (((PathCatalog.empty.add "mods/old.dll" (.file "h0")).add
      "mods/cfg" .directory).add "mods/keep.dll" (.file "h2"))).WF ∧
    RemovalRule
      (CatalogSet.empty.add "mods" (((PathCatalog.empty.add "Mods/Old.dll" (.file "h0")).add
        "mods/cfg" .directory).add "mods/keep.dll" (.file "h2")))
      (CatalogSet.empty.add "MODS" ((PathCatalog.empty.add "mods/cfg/new.ini" (.file "h1")).add
        "mods/KEEP.dll" (.file "h2")))
      (CatalogSet.empty.add "mods" (((PathCatalog.empty.add "mods/old.dll" (.file "h0")).add
        "mods/cfg" .directory).add "mods/keep.dll" (.file "h2")))
      [{ path := "mods" }] {}
      (planSync
        (CatalogSet.empty.add "mods" (((PathCatalog.empty.add "Mods/Old.dll" (.file "h0")).add
          "mods/cfg" .directory).add "mods/keep.dll" (.file "h2")))
        (CatalogSet.empty.add "MODS" ((PathCatalog.empty.add "mods/cfg/new.ini" (.file "h1")).add
          "mods/KEEP.dll" (.file "h2")))
        (CatalogSet.empty.add "mods" (((PathCatalog.empty.add "mods/old.dll" (.file "h0")).add
          "mods/cfg" .directory).add "mods/keep.dll" (.file "h2")))
        [{ path := "mods" }] {}) := by
  have hl := CatalogSet.wf_empty.add "mods" (((PathCatalog.wf_empty.add "Mods/Old.dll" (.file "h0")).add
    "mods/cfg" .directory).add "mods/keep.dll" (.file "h2"))
  have hr := CatalogSet.wf_empty.add "MODS" ((PathCatalog.wf_empty.add "mods/cfg/new.ini" (.file "h1")).add
    "mods/KEEP.dll" (.file "h2"))
  have hp := CatalogSet.wf_empty.add "mods" (((PathCatalog.wf_empty.add "mods/old.dll" (.file "h0")).add
    "mods/cfg" .directory).add "mods/keep.dll" (.file "h2"))
  exact ⟨hl, hr, hp, planSync_removals _ _ _ _ _ hl hr hp⟩

/-! ## The remote side -/

theorem planFor_remote_lists (loc remote previous : CatalogSet) (opts : PlanOptions) (s : SyncPathSpec) :
    let L := loc.getOrEmpty s.path
    let R := effectiveRemote (remote.getOrEmpty s.path) s opts
    let p := planFor loc remote previous opts s
    p.added = (R.toList.filter (addsFile L)).map Prod.fst ∧
      p.updated = (R.toList.filter (updatesFile L)).map Prod.fst ∧
      p.createdDirectories = (R.toList.filter (createsDir L)).map Prod.fst := by
  simp only [planFor, diffCatalogs_eq, and_self]

section RemoteSide

variable {loc remote previous : CatalogSet} (hloc : loc.WF) (hremote : remote.WF) (hprev : previous.WF)
  (opts : PlanOptions) (s : SyncPathSpec)

include hremote in
/-- A directory of the effective remote catalog is never downloaded. -/
theorem planFor_directory_not_downloaded {e : String × FileRecord}
    (he : e ∈ (effectiveRemote (remote.getOrEmpty s.path) s opts).toList) (hdir : e.2.isDirectory = true) :
    e.1 ∉ (planFor loc remote previous opts s).added ∧ e.1 ∉ (planFor loc remote previous opts s).updated := by
  obtain ⟨hadded, hupdated, -⟩ := planFor_remote_lists loc remote previous opts s
  have hR := effectiveRemote_wf (hremote.getOrEmpty s.path) s opts
  -- stored spellings are distinct, so a listed path is the entry `e` itself
  have hpaths := hR.nodup_paths
  have hsame : ∀ e' ∈ (effectiveRemote (remote.getOrEmpty s.path) s opts).toList, e'.1 = e.1 → e' = e :=
    fun e' he' hkey => List.inj_on_of_nodup_map hpaths he' he hkey
  rw [hadded, hupdated]
  constructor
  · intro hmem
    obtain ⟨e', he', hkey⟩ := List.mem_map.mp hmem
    rw [List.mem_filter] at he'
    rw [hsame e' he'.1 hkey, addsFile, hdir] at he'
    simp at he'
  · intro hmem
    obtain ⟨e', he', hkey⟩ := List.mem_map.mp hmem
    rw [List.mem_filter] at he'
    rw [hsame e' he'.1 hkey, updatesFile, hdir] at he'
    split at he' <;> simp at he'

include hloc hremote hprev in
theorem planFor_nodup :
    let p := planFor loc remote previous opts s
    ((p.added ++ p.updated ++ p.removed ++ p.createdDirectories).map Path.foldKey).Nodup := by
  intro p
  obtain ⟨hadded, hupdated, hcreated⟩ := planFor_remote_lists loc remote previous opts s
  have hL := hloc.getOrEmpty s.path
  have hP := hprev.getOrEmpty s.path
  have hR := effectiveRemote_wf (hremote.getOrEmpty s.path) s opts
  set L := loc.getOrEmpty s.path
  set R := effectiveRemote (remote.getOrEmpty s.path) s opts
  set P := previous.getOrEmpty s.path
  have hkeys : (R.toList.map (Path.foldKey ∘ Prod.fst)).Nodup := List.map_map ▸ hR.nodup_foldKey
  -- a removed path is one `R` does not hold, so its key is no key of `R`
  have hapart : ∀ q : String × FileRecord → Bool,
      List.Disjoint ((R.toList.filter q).map (Path.foldKey ∘ Prod.fst)) (p.removed.map Path.foldKey) := by
    intro q k hk hk'
    obtain ⟨e, he, rfl⟩ := List.mem_map.mp hk
    obtain ⟨x, hx, hxkey⟩ := List.mem_map.mp hk'
    rw [planFor_removed] at hx
    split at hx
    · obtain ⟨l, hl, rfl⟩ := List.mem_map.mp hx
      obtain ⟨hlmem, hrem⟩ := List.mem_filter.mp hl
      rw [removesEntry_eq hR hP, decide_eq_true_iff] at hrem
      have hemem := (List.mem_filter.mp he).1
      apply hrem.2.1
      refine ⟨e, hemem, ?_⟩
      rw [hR.catalogKey_eq_foldKey hemem, hL.catalogKey_eq_foldKey hlmem]
      exact hxkey.symm
    · simp at hx
  have hremoved : (p.removed.map Path.foldKey).Nodup := by
    show ((planFor loc remote previous opts s).removed.map Path.foldKey).Nodup
    rw [planFor_removed]
    split
    · rw [List.map_map]
      exact nodup_map_filter (Path.foldKey ∘ Prod.fst) hL.nodup_foldKey _
    · simp
  have hAU := disjoint_map_filter _ hkeys (addsFile L) (updatesFile L) fun e _ h => ((addsFile_exclusive e).1 h).1
  have hAC := disjoint_map_filter _ hkeys (addsFile L) (createsDir L) fun e _ h => ((addsFile_exclusive e).1 h).2
  have hUC := disjoint_map_filter _ hkeys (updatesFile L) (createsDir L) fun e _ h => (addsFile_exclusive e).2 h
  show ((p.added ++ p.updated ++ p.removed ++ p.createdDirectories).map Path.foldKey).Nodup
  rw [hadded, hupdated, hcreated]
  simp only [List.map_append, List.map_map]
  refine List.nodup_append'.mpr ⟨List.nodup_append'.mpr ⟨List.nodup_append'.mpr
    ⟨nodup_map_filter _ hkeys _, nodup_map_filter _ hkeys _, hAU⟩, hremoved, ?_⟩,
    nodup_map_filter _ hkeys _, ?_⟩
  · exact List.disjoint_append_left.mpr ⟨hapart _, hapart _⟩
  · refine List.disjoint_append_left.mpr ⟨List.disjoint_append_left.mpr ⟨hAC, hUC⟩, ?_⟩
    exact List.disjoint_comm.mp (hapart _)

end RemoteSide

/-- The remote side of a plan set: every spec has its plan, in order. A sync
path's recorded remote catalog is the effective remote catalog `R` of the
last spec with its key. Each plan adds the files of `R` that the local
catalog `L` does not hold, updates those whose `L` entry is a directory or
has another fingerprint, and creates the directories of `R` with neither an
`L` entry nor anything of `L` below, all in the order and spelling of `R`.
No directory of `R` is downloaded, no key repeats within or across the four
lists, and the plans of enforced specs are the same under all options. -/
def RemoteSideRule (loc remote previous : CatalogSet) (specs : List SyncPathSpec) (opts : PlanOptions)
    (plans : PlanSet) : Prop :=
  let R := fun s : SyncPathSpec => if !s.enforced && !opts.localExclusions.isEmpty then
      (remote.getOrEmpty s.path).retain fun x _ => !opts.localExclusions.matchesPrefix x
    else remote.getOrEmpty s.path
  plans.plans.map (·.spec) = specs ∧
  (∀ s ∈ specs, ∃ t, (specs.filter fun u => catalogKey u.path = catalogKey s.path).getLast? = some t ∧
    plans.remote.get s.path = some (R t)) ∧
  (∀ p ∈ plans.plans,
    let L := loc.getOrEmpty p.spec.path
    p.added = ((R p.spec).toList.filter fun e =>
      decide (e.2.isDirectory = false ∧ ¬ L.Holds e.1)).map Prod.fst ∧
    p.updated = ((R p.spec).toList.filter fun e =>
      decide (e.2.isDirectory = false ∧ ∃ l ∈ L.toList,
        catalogKey l.1 = catalogKey e.1 ∧ (l.2.isDirectory = true ∨ l.2.hash ≠ e.2.hash))).map Prod.fst ∧
    p.createdDirectories = ((R p.spec).toList.filter fun e =>
      decide (e.2.isDirectory = true ∧ ¬ L.Holds e.1 ∧ ¬ L.HoldsBelow e.1)).map Prod.fst ∧
    (∀ e ∈ (R p.spec).toList, e.2.isDirectory = true → e.1 ∉ p.added ∧ e.1 ∉ p.updated) ∧
    ((p.added ++ p.updated ++ p.removed ++ p.createdDirectories).map Path.foldKey).Nodup) ∧
  ∀ opts' : PlanOptions, plans.plans.filter (·.spec.enforced) =
    (planSync loc remote previous specs opts').plans.filter (·.spec.enforced)

/-- **Remote-side classification.** Planning follows `RemoteSideRule` for all catalogs. -/
theorem planSync_remote_side (loc remote previous : CatalogSet) (specs : List SyncPathSpec) (opts : PlanOptions)
    (hloc : loc.WF) (hremote : remote.WF) (hprev : previous.WF) :
    RemoteSideRule loc remote previous specs opts (planSync loc remote previous specs opts) := by
  unfold RemoteSideRule
  intro R
  refine ⟨planSync_specs .., ?_, ?_, ?_⟩
  · -- the recorded catalogs: the last insertion under a key wins
    intro s hs
    have hmem : s ∈ specs.filter fun u => catalogKey u.path = catalogKey s.path :=
      List.mem_filter.mpr ⟨hs, by simp⟩
    obtain ⟨t, ht⟩ := Option.isSome_iff_exists.mp (List.getLast?_isSome.mpr (List.ne_nil_of_mem hmem))
    refine ⟨t, ht, ?_⟩
    rw [planSync_eq]
    simp only
    rw [CatalogSet.get_foldl_add, ht]
    rfl
  · intro p hp
    rw [planSync_eq, List.mem_map] at hp
    obtain ⟨s, -, rfl⟩ := hp
    simp -zeta only [planFor_spec]
    intro L
    have hL : L.WF := hloc.getOrEmpty _
    obtain ⟨hadded, hupdated, hcreated⟩ := planFor_remote_lists loc remote previous opts s
    refine ⟨?_, ?_, ?_, fun e he hdir => planFor_directory_not_downloaded hremote opts s he hdir,
      planFor_nodup hloc hremote hprev opts s⟩
    · exact hadded.trans (congrArg _ (List.filter_congr fun e _ => addsFile_eq hL e))
    · exact hupdated.trans (congrArg _ (List.filter_congr fun e _ => updatesFile_eq hL e))
    · exact hcreated.trans (congrArg _ (List.filter_congr fun e _ => createsDir_eq hL e))
  · intro opts'
    rw [planSync_eq, planSync_eq]
    simp only [List.filter_map, Function.comp_def, planFor_spec]
    exact List.map_congr_left fun s hs => planFor_enforced loc remote previous (List.mem_filter.mp hs).2 opts opts'

/-- An optional file the server serves against a local directory of the same
key, with the local exclusions active: only the directory is updated. -/
theorem planSync_remote_side_shadowed :
    (CatalogSet.empty.add "mods" ((PathCatalog.empty.add "Mods/A" .directory).add "mods/b.log" (.file "h3"))).WF ∧
    (CatalogSet.empty.add "Mods" (((PathCatalog.empty.add "mods/a" (.file "h1")).add "mods/new" .directory).add
      "mods/x.log" (.file "h2"))).WF ∧
    CatalogSet.empty.WF ∧
    RemoteSideRule
      (CatalogSet.empty.add "mods" ((PathCatalog.empty.add "Mods/A" .directory).add "mods/b.log" (.file "h3")))
      (CatalogSet.empty.add "Mods" (((PathCatalog.empty.add "mods/a" (.file "h1")).add "mods/new" .directory).add
        "mods/x.log" (.file "h2")))
      CatalogSet.empty [{ path := "mods" }]
      { localExclusions := (ExclusionSet.compile ["**/*.log"]).toOption.getD {} }
      (planSync
        (CatalogSet.empty.add "mods" ((PathCatalog.empty.add "Mods/A" .directory).add "mods/b.log" (.file "h3")))
        (CatalogSet.empty.add "Mods" (((PathCatalog.empty.add "mods/a" (.file "h1")).add "mods/new" .directory).add
          "mods/x.log" (.file "h2")))
        CatalogSet.empty [{ path := "mods" }]
        { localExclusions := (ExclusionSet.compile ["**/*.log"]).toOption.getD {} }) := by
  have hl := CatalogSet.wf_empty.add "mods" ((PathCatalog.wf_empty.add "Mods/A" .directory).add
    "mods/b.log" (.file "h3"))
  have hr := CatalogSet.wf_empty.add "Mods" (((PathCatalog.wf_empty.add "mods/a" (.file "h1")).add
    "mods/new" .directory).add "mods/x.log" (.file "h2"))
  exact ⟨hl, hr, CatalogSet.wf_empty, planSync_remote_side _ _ _ _ _ hl hr CatalogSet.wf_empty⟩

/-- One path listed twice, optional and then enforced, with an exclusion
that only the optional listing applies: the recorded remote catalog is the
enforced listing's, so it is not the effective remote catalog of every
listed spec. -/
theorem planSync_remote_duplicate_path :
    ¬ ∀ s ∈ ([{ path := "a" }, { path := "a", enforced := true }] : List SyncPathSpec),
      (planSync {} (CatalogSet.empty.add "a" (PathCatalog.empty.add "a/x" (.file "h"))) {}
          [{ path := "a" }, { path := "a", enforced := true }]
          { localExclusions := (ExclusionSet.compile ["a/x"]).toOption.getD {} }).remote.get s.path =
        some (if !s.enforced && !((ExclusionSet.compile ["a/x"]).toOption.getD {}).isEmpty then
            ((CatalogSet.empty.add "a" (PathCatalog.empty.add "a/x" (.file "h"))).getOrEmpty s.path).retain
              fun x _ => !((ExclusionSet.compile ["a/x"]).toOption.getD {}).matchesPrefix x
          else (CatalogSet.empty.add "a" (PathCatalog.empty.add "a/x" (.file "h"))).getOrEmpty s.path) := by
  decide

end ModMirror
