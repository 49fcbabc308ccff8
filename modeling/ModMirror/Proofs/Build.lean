import ModMirror.Catalog.Builder
import ModMirror.Proofs.Catalog

/-!
# What a catalog build records

`build` scans every target in order, keeps the first entry of each folded
path across all of them, hashes the files, and records each target's
catalog under its sync path. A later target under the same key replaces an
earlier one, so the catalog recorded for a sync path is that of the last
target under its key, and it holds only entries that target's scan reported,
each file with the hash of the file the scan found:

    loc.get p = some c →
      c is recorded from the scan of the last target under catalogKey p

The scan phase and the hashing phase are folds in `Except`. `build_phases`
opens the build once into the two, one step of each named (`planStep`,
`hashPlan`); each fold is then read through one lemma saying what a
successful fold is made of (`foldlM_append_ok`, `forall₂_of_mapM_ok`).
-/

namespace ModMirror

/-! ## Successful folds in `Except` -/

section Folds

variable {ε α β σ : Type}

/-- A successful `mapM` gives each element's own result, in order. -/
theorem forall₂_of_mapM_ok {f : α → Except ε β} : ∀ {l : List α} {r : List β},
    l.mapM f = .ok r → List.Forall₂ (fun a b => f a = .ok b) l r
  | [], r, h => by
    simp only [List.mapM_nil, pure, Except.pure, Except.ok.injEq] at h
    subst h
    exact .nil
  | a :: l, r, h => by
    rw [List.mapM_cons] at h
    cases ha : f a with
    | error e => simp [ha, bind, Except.bind] at h
    | ok b =>
      cases hl : l.mapM f with
      | error e => simp [ha, hl, bind, Except.bind] at h
      | ok bs =>
        simp only [ha, hl, bind, Except.bind, pure, Except.pure, Except.ok.injEq] at h
        subst h
        exact .cons ha (forall₂_of_mapM_ok hl)

/-- A successful `foldlM` whose every step appends one item for its element
appends one item per element, in order. -/
theorem foldlM_append_ok {f : σ × List β → α → Except ε (σ × List β)} (R : α → β → Prop)
    (hf : ∀ st a st', f st a = .ok st' → ∃ y, st'.2 = st.2 ++ [y] ∧ R a y) :
    ∀ {l : List α} {st st' : σ × List β}, l.foldlM f st = .ok st' →
      ∃ ys, st'.2 = st.2 ++ ys ∧ List.Forall₂ R l ys
  | [], st, st', h => by
    simp only [List.foldlM_nil, pure, Except.pure, Except.ok.injEq] at h
    subst h
    exact ⟨[], by simp, .nil⟩
  | a :: l, st, st', h => by
    rw [List.foldlM_cons] at h
    cases h1 : f st a with
    | error e => simp [h1, bind, Except.bind] at h
    | ok st1 =>
      simp only [h1, bind, Except.bind] at h
      obtain ⟨y, hy, hR⟩ := hf st a st1 h1
      obtain ⟨ys, hys, hall⟩ := foldlM_append_ok R hf h
      exact ⟨y :: ys, by rw [hys, hy, List.append_assoc, List.singleton_append], .cons hR hall⟩

theorem foldlM_invariant {f : σ → α → Except ε σ} (I : σ → Prop) {l : List α}
    (hf : ∀ s a s', a ∈ l → I s → f s a = .ok s' → I s') :
    ∀ {s s' : σ}, I s → l.foldlM f s = .ok s' → I s' := by
  induction l with
  | nil =>
    intro s s' hs h
    simp only [List.foldlM_nil, pure, Except.pure, Except.ok.injEq] at h
    exact h ▸ hs
  | cons a l ih =>
    intro s s' hs h
    rw [List.foldlM_cons] at h
    cases h1 : f s a with
    | error e => simp [h1, bind, Except.bind] at h
    | ok s1 =>
      simp only [h1, bind, Except.bind] at h
      exact ih (fun s b s' hb => hf s b s' (List.mem_cons_of_mem _ hb)) (hf s a s1 List.mem_cons_self hs h1) h

end Folds

section Related

variable {α β γ : Type}

theorem forall₂_comp {R : α → β → Prop} {S : β → γ → Prop} {T : α → γ → Prop}
    (h : ∀ a b c, R a b → S b c → T a c) :
    ∀ {l₁ : List α} {l₂ : List β} {l₃ : List γ},
      List.Forall₂ R l₁ l₂ → List.Forall₂ S l₂ l₃ → List.Forall₂ T l₁ l₃
  | _, _, _, .nil, .nil => .nil
  | _, _, _, .cons hab hr, .cons hbc hs => .cons (h _ _ _ hab hbc) (forall₂_comp h hr hs)

theorem map_fst_of_forall₂ {R : α → α × γ → Prop} (hR : ∀ a y, R a y → y.1 = a) :
    ∀ {l : List α} {r : List (α × γ)}, List.Forall₂ R l r → r.map Prod.fst = l
  | _, _, .nil => rfl
  | _, _, .cons h hs => by rw [List.map_cons, hR _ _ h, map_fst_of_forall₂ hR hs]

theorem mem_of_forall₂ {R : α → β → Prop} {l : List α} {r : List β} (h : List.Forall₂ R l r) {y : β}
    (hy : y ∈ r) : ∃ a ∈ l, R a y := by
  induction h with
  | nil => cases hy
  | cons hab _ ih =>
    rcases List.mem_cons.mp hy with rfl | hy
    · exact ⟨_, List.mem_cons_self, hab⟩
    · obtain ⟨a, ha, hR⟩ := ih hy
      exact ⟨a, List.mem_cons_of_mem _ ha, hR⟩

end Related

namespace CatalogBuilder

/-! ## Catalogs made from scanned entries -/

/-- Every stored path of a catalog is the clean form of a listed entry's key. -/
def KeysFrom (entries : List ScannedEntry) (c : PathCatalog) : Prop :=
  ∀ x ∈ c.toList, ∃ e ∈ entries, x.1 = cleanKeyPath e.relative

/-- Every stored path of a catalog is the clean form of a listed entry's key,
and a file record holds the hash of that entry's file. -/
def RecordsFrom (b : CatalogBuilder) (t : FileTree) (entries : List ScannedEntry) (c : PathCatalog) : Prop :=
  ∀ x ∈ c.toList, ∃ e ∈ entries, x.1 = cleanKeyPath e.relative ∧
    (x.2.isDirectory = false → e.isDirectory = false ∧ b.hasher.hashFile t e.native = .ok x.2.hash)

section Records

variable {b : CatalogBuilder} {t : FileTree} {entries : List ScannedEntry}

theorem RecordsFrom.keysFrom {c : PathCatalog} (h : RecordsFrom b t entries c) : KeysFrom entries c :=
  fun x hx => (h x hx).imp fun _ he => ⟨he.1, he.2.1⟩

theorem recordsFrom_empty : RecordsFrom b t entries PathCatalog.empty := by
  intro x hx
  simp [PathCatalog.empty, PathCatalog.toList] at hx

/-- Adding the record of a listed entry: a directory marker for a directory,
the file's hash for a file. -/
theorem RecordsFrom.add {c : PathCatalog} (h : RecordsFrom b t entries c) {e : ScannedEntry} (he : e ∈ entries)
    {r : FileRecord} (hr : r.isDirectory = false → e.isDirectory = false ∧ b.hasher.hashFile t e.native = .ok r.hash) :
    RecordsFrom b t entries (c.add e.relative r) := by
  intro x hx
  obtain ⟨y, r'⟩ := x
  obtain ⟨k, hk⟩ := PathCatalog.mem_toList.mp hx
  rcases KeyMap.mem_insert hk with heq | hmem
  · simp only [Prod.mk.injEq, CatalogEntry.mk.injEq] at heq
    obtain ⟨-, rfl, rfl⟩ := heq
    exact ⟨e, he, rfl, hr⟩
  · exact h _ (PathCatalog.mem_toList.mpr ⟨k, hmem⟩)

theorem recordsFrom_foldl_dirs : ∀ (l : List ScannedEntry) {c : PathCatalog}, RecordsFrom b t entries c →
    (∀ e ∈ l, e ∈ entries) →
    RecordsFrom b t entries (l.foldl (fun (c : PathCatalog) (e : ScannedEntry) =>
      if e.isDirectory then c.add e.relative .directory else c) c)
  | [], _, h, _ => h
  | e :: l, c, h, hsub => by
    rw [List.foldl_cons]
    refine recordsFrom_foldl_dirs l ?_ fun x hx => hsub x (List.mem_cons_of_mem _ hx)
    split
    · exact h.add (hsub e List.mem_cons_self) (by simp [FileRecord.directory])
    · exact h

theorem recordsFrom_foldlM_files (l : List ScannedEntry) {c c' : PathCatalog}
    (h : RecordsFrom b t entries c) (hsub : ∀ e ∈ l, e ∈ entries)
    (hf : l.foldlM (fun (c : PathCatalog) (e : ScannedEntry) =>
      if e.isDirectory then pure c
      else do pure (c.add e.relative (FileRecord.file (← (b.hasher.hashFile t e.native).mapError SyncError.fs)))) c =
        .ok c') : RecordsFrom b t entries c' := by
  refine foldlM_invariant (RecordsFrom b t entries) ?_ h hf
  intro c e c₁ he hc hstep
  split at hstep
  · simp only [pure, Except.pure, Except.ok.injEq] at hstep
    exact hstep ▸ hc
  · rename_i hdir
    cases hh : b.hasher.hashFile t e.native with
    | error err => simp [hh, Except.mapError, bind, Except.bind] at hstep
    | ok hash =>
      simp only [hh, Except.mapError, bind, Except.bind, pure, Except.pure, Except.ok.injEq] at hstep
      subst hstep
      exact hc.add (hsub e he) fun _ => ⟨by simpa using hdir, by simp [hh, FileRecord.file]⟩

end Records

/-! ## The build -/

/-- The catalog a target gets: keys of entries its scan reported, some dropped, none added. -/
def CatalogedFrom (b : CatalogBuilder) (t : FileTree) (target : CatalogTarget) (c : PathCatalog) : Prop :=
  ∃ entries, (b.forTarget target).scan t target.syncPath target.matcher = .ok entries ∧ KeysFrom entries c

/-- The catalog a target gets, with the hash of each file it records. -/
def RecordedFrom (b : CatalogBuilder) (t : FileTree) (target : CatalogTarget) (c : PathCatalog) : Prop :=
  ∃ entries, (b.forTarget target).scan t target.syncPath target.matcher = .ok entries ∧ RecordsFrom b t entries c

theorem RecordedFrom.catalogedFrom {b : CatalogBuilder} {t : FileTree} {target : CatalogTarget} {c : PathCatalog}
    (h : RecordedFrom b t target c) : CatalogedFrom b t target c :=
  let ⟨entries, hscan, hrec⟩ := h
  ⟨entries, hscan, hrec.keysFrom⟩

/-- One step of the build's deduplication: an entry is kept unless an earlier
entry had its folded key. -/
def dedupeStep (x : List String × List ScannedEntry) (e : ScannedEntry) : List String × List ScannedEntry :=
  if x.1.contains (Path.foldKey e.relative) then (x.1, x.2) else (Path.foldKey e.relative :: x.1, x.2 ++ [e])

section Dedupe

variable (x : List String × List ScannedEntry)

/-- The folded keys seen after deduplicating a list: those seen before and
those of the list. -/
theorem mem_dedupe_seen (l : List ScannedEntry) (k : String) :
    k ∈ (l.foldl dedupeStep x).1 ↔ k ∈ x.1 ∨ ∃ e ∈ l, Path.foldKey e.relative = k := by
  induction l generalizing x with
  | nil => simp
  | cons y l ih =>
    rw [List.foldl_cons, ih]
    by_cases hc : x.1.contains (Path.foldKey y.relative)
    · have hy : Path.foldKey y.relative ∈ x.1 := by simpa using hc
      simp only [dedupeStep, hc, if_true, List.mem_cons, exists_eq_or_imp]
      grind
    · simp only [dedupeStep, hc, Bool.false_eq_true, if_false, List.mem_cons, exists_eq_or_imp]
      grind

/-- An entry is kept by deduplicating a list when it was kept before, or its
folded key was not seen and it is the first entry of the list with that key. -/
theorem mem_dedupe_fresh (l : List ScannedEntry) (e : ScannedEntry) :
    e ∈ (l.foldl dedupeStep x).2 ↔ e ∈ x.2 ∨
      (Path.foldKey e.relative ∉ x.1 ∧
        l.find? (fun e' => Path.foldKey e'.relative == Path.foldKey e.relative) = some e) := by
  induction l generalizing x with
  | nil => simp
  | cons y l ih =>
    rw [List.foldl_cons, ih, List.find?_cons]
    by_cases hc : x.1.contains (Path.foldKey y.relative)
    · have hy : Path.foldKey y.relative ∈ x.1 := by simpa using hc
      simp only [dedupeStep, hc, if_true]
      grind
    · have hy : Path.foldKey y.relative ∉ x.1 := by simpa using hc
      simp only [dedupeStep, hc, Bool.false_eq_true, if_false, List.mem_append, List.mem_cons]
      grind

theorem dedupe_fresh_nodup (l : List ScannedEntry) (hnd : (x.2.map fun e => Path.foldKey e.relative).Nodup)
    (hsub : ∀ e ∈ x.2, Path.foldKey e.relative ∈ x.1) :
    ((l.foldl dedupeStep x).2.map fun e => Path.foldKey e.relative).Nodup := by
  induction l generalizing x with
  | nil => exact hnd
  | cons y l ih =>
    rw [List.foldl_cons]
    by_cases hc : x.1.contains (Path.foldKey y.relative)
    · simp only [dedupeStep, hc, if_true]
      exact ih x hnd hsub
    · have hy : Path.foldKey y.relative ∉ x.1 := by simpa using hc
      simp only [dedupeStep, hc, Bool.false_eq_true, if_false]
      apply ih
      · rw [List.map_append, List.nodup_append]
        refine ⟨hnd, List.nodup_singleton _, ?_⟩
        simp only [List.map_cons, List.map_nil, List.mem_singleton, List.mem_map]
        rintro _ ⟨e, he, rfl⟩ _ rfl heq
        exact hy (heq ▸ hsub e he)
      · intro e he
        rcases List.mem_append.mp he with he | he
        · exact List.mem_cons_of_mem _ (hsub e he)
        · rw [List.mem_singleton.mp he]
          exact List.mem_cons_self

end Dedupe

/-- The scan phase of a build, one target: its scan, then the entries of it
whose folded keys were not seen. -/
def planStep (b : CatalogBuilder) (t : FileTree) (x : List String × List (CatalogTarget × List ScannedEntry))
    (target : CatalogTarget) : Except SyncError (List String × List (CatalogTarget × List ScannedEntry)) :=
  match (b.forTarget target).scan t target.syncPath target.matcher with
  | .error err => .error err
  | .ok v => pure ((v.foldl dedupeStep (x.1, [])).1, x.2 ++ [(target, (v.foldl dedupeStep (x.1, [])).2)])


/-- The hashing phase of a build, one plan: the directory markers go in at
once, then the files, each with its hash. -/
def hashPlan (b : CatalogBuilder) (t : FileTree) (plan : CatalogTarget × List ScannedEntry) :
    Except SyncError PathCatalog :=
  plan.2.foldlM (fun (c : PathCatalog) (e : ScannedEntry) =>
      if e.isDirectory then pure c
      else do pure (c.add e.relative (FileRecord.file (← (b.hasher.hashFile t e.native).mapError SyncError.fs))))
    (plan.2.foldl (fun (c : PathCatalog) (e : ScannedEntry) =>
      if e.isDirectory then c.add e.relative .directory else c) PathCatalog.empty)

/-- A successful build in its two phases: the scans, each deduplicated against
the keys seen before it, then one catalog per plan, recorded in order. -/
theorem build_phases {b : CatalogBuilder} {t : FileTree} {targets : List CatalogTarget} {loc : CatalogSet}
    (h : b.build t targets = .ok loc) :
    ∃ res catalogs, targets.foldlM (planStep b t) ([], []) = .ok res ∧
      List.Forall₂ (fun plan (y : CatalogTarget × PathCatalog) => y.1 = plan.1 ∧ hashPlan b t plan = .ok y.2)
        res.2 catalogs ∧
      loc = catalogs.foldl (fun s x => s.add x.1.syncPath x.2) CatalogSet.empty := by
  unfold build at h
  simp only [bind, Except.bind] at h
  split at h
  · cases h
  rename_i res hscan
  have hscan' : targets.foldlM (planStep b t) ([], []) = .ok res := by
    rw [← hscan]
    congr 1
    funext x target
    unfold planStep
    cases (b.forTarget target).scan t target.syncPath target.matcher <;> rfl
  split at h
  · cases h
  rename_i catalogs hcat
  simp only [pure, Except.pure, Except.ok.injEq] at h
  subst h
  have hmap := forall₂_of_mapM_ok hcat
  rw [List.forall₂_map_left_iff] at hmap
  refine ⟨res, catalogs, hscan', hmap.imp fun plan y hy => ?_, rfl⟩
  simp only [Except.map] at hy
  split at hy
  · cases hy
  · rename_i c hfold
    simp only [Except.ok.injEq] at hy
    subst hy
    exact ⟨rfl, hfold⟩

/-- A successful build records, in order, one catalog per target, made from
that target's scan, with the hash of each file. -/
theorem build_records {b : CatalogBuilder} {t : FileTree} {targets : List CatalogTarget} {loc : CatalogSet}
    (h : b.build t targets = .ok loc) :
    ∃ catalogs : List (CatalogTarget × PathCatalog),
      List.Forall₂ (fun target x => x.1 = target ∧ RecordedFrom b t target x.2) targets catalogs ∧
      loc = catalogs.foldl (fun s x => s.add x.1.syncPath x.2) CatalogSet.empty := by
  obtain ⟨res, catalogs, hscan, hhash, rfl⟩ := build_phases h
  -- the scan phase: one plan per target, holding entries its scan reported
  obtain ⟨ys, hys, hplans⟩ := foldlM_append_ok
    (fun target (y : CatalogTarget × List ScannedEntry) => y.1 = target ∧
      ∃ entries, (b.forTarget target).scan t target.syncPath target.matcher = .ok entries ∧
        ∀ e ∈ y.2, e ∈ entries)
    (by
      intro st target st' hst
      unfold planStep at hst
      cases hsc : (b.forTarget target).scan t target.syncPath target.matcher with
      | error e => simp [hsc] at hst
      | ok entries =>
        simp only [hsc, pure, Except.pure, Except.ok.injEq] at hst
        subst hst
        refine ⟨_, rfl, rfl, entries, rfl, fun e he => ?_⟩
        rcases (mem_dedupe_fresh _ entries e).mp he with he | ⟨-, hfind⟩
        · cases he
        · exact List.mem_of_find?_eq_some hfind)
    hscan
  simp only [List.nil_append] at hys
  rw [hys] at hhash
  refine ⟨catalogs, ?_, rfl⟩
  refine forall₂_comp ?_ hplans hhash
  rintro target plan x ⟨rfl, entries, hsc, hsub⟩ ⟨hx, hfold⟩
  exact ⟨hx, entries, hsc, recordsFrom_foldlM_files plan.2 (recordsFrom_foldl_dirs plan.2 recordsFrom_empty hsub) hsub hfold⟩

/-- A successful build records, in order, one catalog per target, made from
that target's scan. -/
theorem build_ok {b : CatalogBuilder} {t : FileTree} {targets : List CatalogTarget} {loc : CatalogSet}
    (h : b.build t targets = .ok loc) :
    ∃ catalogs : List (CatalogTarget × PathCatalog),
      List.Forall₂ (fun target x => x.1 = target ∧ CatalogedFrom b t target x.2) targets catalogs ∧
      loc = catalogs.foldl (fun s x => s.add x.1.syncPath x.2) CatalogSet.empty := by
  obtain ⟨catalogs, hrel, hloc⟩ := build_records h
  exact ⟨catalogs, hrel.imp fun _ _ hx => ⟨hx.1, hx.2.catalogedFrom⟩, hloc⟩

/-- The recorded catalog of a sync path comes from the last target under its
key, with the hash of each file that target's scan reported. -/
theorem build_get_recorded {b : CatalogBuilder} {t : FileTree} {targets : List CatalogTarget} {loc : CatalogSet}
    (h : b.build t targets = .ok loc) {p : String} {c : PathCatalog} (hp : loc.get p = some c) :
    ∃ target, (targets.filter fun u => catalogKey u.syncPath = catalogKey p).getLast? = some target ∧
      RecordedFrom b t target c := by
  obtain ⟨catalogs, hrel, rfl⟩ := build_records h
  rw [CatalogSet.get_foldl_add catalogs (fun x => x.1.syncPath) Prod.snd] at hp
  have hnone : CatalogSet.empty.get p = none := by simp [CatalogSet.empty, CatalogSet.get, KeyMap.find?]
  rw [hnone, Option.or_none] at hp
  obtain ⟨x, hx, rfl⟩ := Option.map_eq_some_iff.mp hp
  have hfst : catalogs.map Prod.fst = targets := map_fst_of_forall₂ (fun _ _ h => h.1) hrel
  refine ⟨x.1, ?_, ?_⟩
  · rw [← hfst, List.filter_map, List.getLast?_map]
    simp only [Function.comp_def]
    rw [hx]
    rfl
  · obtain ⟨target, -, rfl, hcat⟩ := mem_of_forall₂ hrel (List.mem_of_getLast? hx |> List.mem_of_mem_filter)
    exact hcat

/-- **The recorded catalog of a sync path comes from the last target under its
key.** It holds only keys of entries that target's scan reported. -/
theorem build_get {b : CatalogBuilder} {t : FileTree} {targets : List CatalogTarget} {loc : CatalogSet}
    (h : b.build t targets = .ok loc) {p : String} {c : PathCatalog} (hp : loc.get p = some c) :
    ∃ target, (targets.filter fun u => catalogKey u.syncPath = catalogKey p).getLast? = some target ∧
      CatalogedFrom b t target c := by
  obtain ⟨target, hlast, hrec⟩ := build_get_recorded h hp
  exact ⟨target, hlast, hrec.catalogedFrom⟩

end CatalogBuilder

end ModMirror
