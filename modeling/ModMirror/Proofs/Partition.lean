import Mathlib
import ModMirror.Proofs.Session
import ModMirror.Proofs.Wire

/-!
# How a build shares the keys among its targets

`build` scans every target in order and keeps, of each scan, the entries
whose folded key no earlier entry had, in this target's scan or an earlier
one's. In a tree whose names hold neither separator, every key a scan reports
is clean, so the key the build deduplicates on is the key its catalogs store
under; the targets' catalogs then split the reported keys among them, first
come, first served:

    x ∈ c.toList ↔ ∃ e, FirstCome b t pre scan e ∧ e.relative = x.1 ∧ b.recordOf t e = .ok x.2

for the catalog `c` of a target preceded by `pre`, whose scan is `scan`.
The scan phase, the deduplication and the hashing phase are each read through
one lemma (`plans_of_foldlM`, `mem_dedupe_fresh`, `catalog_of_fresh`), and
`build_partitions_keys` puts them together.
-/

namespace ModMirror

/-! ## The keys a scan reports -/

section Keys

/-- Every entry a walk meets lies below the walked directory, at names the
tree's entries hold. -/
theorem walkBelow_path {t : FileTree} {keep : String → Bool} :
    ∀ (fuel : Nat) (dirPath : String) (dirNames : List String) (i : WalkItem),
      i ∈ walkBelow t keep dirPath dirNames fuel →
      ∃ ns, ns ≠ [] ∧ (∀ n ∈ ns, ∃ x ∈ t.entries, n ∈ x.1) ∧ i.path = dirPath ++ "/" ++ keyOf ns
  | 0, _, _, _, h => by simp [walkBelow] at h
  | fuel + 1, dirPath, dirNames, i, h => by
    simp only [walkBelow, List.mem_flatMap] at h
    obtain ⟨name, hname, hi⟩ := h
    have hentry : ∃ x ∈ t.entries, name ∈ x.1 := by
      obtain ⟨node, hn⟩ := FileTree.mem_childNames.mp hname
      exact ⟨_, hn, by simp⟩
    have hhere : i.path = dirPath ++ "/" ++ name → ∃ ns, ns ≠ [] ∧ (∀ n ∈ ns, ∃ x ∈ t.entries, n ∈ x.1) ∧
        i.path = dirPath ++ "/" ++ keyOf ns :=
      fun hp => ⟨[name], List.cons_ne_nil _ _, by simpa using hentry, by rw [hp, keyOf_singleton]⟩
    split at hi
    · cases hi
    · split at hi
      · rcases List.mem_cons.mp hi with rfl | hi
        · exact hhere rfl
        · obtain ⟨ns, hne, hns, hpath⟩ := walkBelow_path fuel _ _ i hi
          refine ⟨name :: ns, List.cons_ne_nil _ _, ?_, ?_⟩
          · intro n hn
            rcases List.mem_cons.mp hn with rfl | hn
            · exact hentry
            · exact hns n hn
          · rw [hpath, ← List.singleton_append, keyOf_append (List.cons_ne_nil _ _) hne, keyOf_singleton]
            simp only [String.append_assoc]
      · rw [List.mem_singleton] at hi
        exact hhere (by rw [hi])
      · rw [List.mem_singleton] at hi
        exact hhere (by rw [hi])

/-- The key of a walked path below the root is the sync path, a separator, and
the names below the root. -/
theorem relativeKey_below (logical native : String) {ns : List String} (hplain : ∀ n ∈ ns, PlainName n) :
    relativeKey logical native (native ++ "/" ++ keyOf ns) = logical ++ "/" ++ keyOf ns := by
  have hchars : (native ++ "/" ++ keyOf ns).toList = native.toList ++ '/' :: keyChars ns := by
    simp [String.toList_append]
  unfold relativeKey
  rw [hchars, Text.stripPrefix?_append]
  simp only [unifySlashes_of_no_backslash (no_backslash_keyChars hplain)]
  rfl

/-- Every key a successful scan reports is the sync path itself or the key of
an entry met by the walk below it. -/
theorem scan_relative {t : FileTree} {b : CatalogBuilder} {s logical : String} {m : ExclusionMatcher}
    {entries : List ScannedEntry} (hs : Path.sanitize s = .ok logical) (h : b.scan t s m = .ok entries) :
    ∀ e ∈ entries, e.relative = logical ∨ ∃ names i,
      i ∈ walkBelow t (fun p => !m.matchesPath (NormalPath.ofString p)) (b.base.join logical).text names
        (t.entries.length + 1) ∧ e.relative = relativeKey logical (b.base.join logical).text i.path := by
  simp only [CatalogBuilder.scan, hs, Except.mapError, bind, Except.bind, pure, Except.pure] at h
  intro e he
  -- the cases of the scan: an excluded root, a missing root, a linked root,
  -- a listed directory, and a root that is a file
  split at h
  · simp only [Except.ok.injEq] at h
    subst h
    cases he
  split at h
  · split at h
    · simp only [Except.ok.injEq] at h
      subst h
      cases he
    · cases h
  · split at h
    · simp only [Except.ok.injEq] at h
      subst h
      rw [List.mem_singleton] at he
      exact .inl (by rw [he])
    split at h
    · cases h
    simp only [Except.ok.injEq] at h
    subst h
    simp only [List.mem_append, List.mem_map, List.mem_filter, List.mem_cons] at he
    rcases he with ⟨i, ⟨⟨hi, -⟩, -⟩, rfl⟩ | ⟨x, ⟨rfl | ⟨i, ⟨⟨hi, -⟩, -⟩, rfl⟩, -⟩, rfl⟩
    · exact .inr ⟨_, i, hi, by dsimp only⟩
    · exact .inl rfl
    · exact .inr ⟨_, i, hi, by dsimp only⟩
  · simp only [Except.ok.injEq] at h
    subst h
    rw [List.mem_singleton] at he
    exact .inl (by rw [he])

/-- In a tree of plain names, every key a successful scan reports is made of
plain names: those of the sync path, then those of the path below it. -/
theorem scan_keys_plain {t : FileTree} (hplain : ∀ x ∈ t.entries, ∀ n ∈ x.1, PlainName n) {b : CatalogBuilder}
    {s : String} {m : ExclusionMatcher} {entries : List ScannedEntry} (h : b.scan t s m = .ok entries) :
    ∃ logical, Path.sanitize s = .ok logical ∧
      ∀ e ∈ entries, ∃ ns, (∀ n ∈ ns, PlainName n) ∧ e.relative = keyOf (Path.segments logical ++ ns) := by
  cases hs : Path.sanitize s with
  | error err => simp [CatalogBuilder.scan, hs, Except.mapError, bind, Except.bind] at h
  | ok logical =>
    obtain ⟨hne, -, hkey⟩ := sanitize_segments hs
    refine ⟨logical, rfl, fun e he => ?_⟩
    rcases scan_relative hs h e he with hrel | ⟨names, i, hi, hrel⟩
    · exact ⟨[], by simp, by rw [List.append_nil, hkey, hrel]⟩
    · obtain ⟨ns, hns, hnames, hpath⟩ := walkBelow_path _ _ _ i hi
      have hpl : ∀ n ∈ ns, PlainName n := fun n hn => by
        obtain ⟨x, hx, hnx⟩ := hnames n hn
        exact hplain x hx n hnx
      refine ⟨ns, hpl, ?_⟩
      rw [hrel, hpath, relativeKey_below _ _ hpl, keyOf_append hne hns, hkey]

/-- A key of plain names below a sanitized sync path is clean, and is the sync
path or lies below it. -/
theorem keyOf_below_sanitized {s logical : String} (hs : Path.sanitize s = .ok logical) {ns : List String}
    (hns : ∀ n ∈ ns, PlainName n) :
    cleanKeyPath (keyOf (Path.segments logical ++ ns)) = keyOf (Path.segments logical ++ ns) ∧
      (keyOf (Path.segments logical ++ ns) = logical ∨
        (logical ++ "/").toList <+: (keyOf (Path.segments logical ++ ns)).toList) := by
  obtain ⟨hne, hsegs, hkey⟩ := sanitize_segments hs
  refine ⟨cleanKeyPath_keyOf (by simp [hne]) (plain_append hsegs hns), ?_⟩
  cases ns with
  | nil => exact .inl (by rw [List.append_nil, hkey])
  | cons n ns =>
    have hns' : n :: ns ≠ [] := List.cons_ne_nil n ns
    refine .inr ?_
    rw [keyOf_append hne hns', hkey]
    exact ⟨_, String.toList_append.symm⟩

end Keys

namespace CatalogSet

theorem get_foldl_add_of_nodup {β : Type} {l : List β} (path : β → String) (f : β → PathCatalog)
    (hnd : (l.map fun x => catalogKey (path x)).Nodup) {x : β} (hx : x ∈ l) :
    (l.foldl (fun s x => s.add (path x) (f x)) empty).get (path x) = some (f x) := by
  have hfilter := KeyMap.filter_eq_singleton_of_nodup (fun x => catalogKey (path x)) hnd hx
  rw [get_foldl_add, hfilter]
  rfl

theorem len_foldl_add_of_nodup {β : Type} {l : List β} (path : β → String) (f : β → PathCatalog)
    (hnd : (l.map fun x => catalogKey (path x)).Nodup) :
    (l.foldl (fun s x => s.add (path x) (f x)) empty).len = l.length := by
  have hpairs : l.foldl (fun s x => s.add (path x) (f x)) empty =
      (l.map fun x => (path x, f x)).foldl (fun s x => s.add x.1 x.2) empty := by
    rw [List.foldl_map]
  have hkeys : (((l.map fun x => (path x, f x)).map fun e =>
      (catalogKey e.1, slotLayout.make (cleanKeyPath e.1) e.2)).map Prod.fst).Nodup := by
    simpa [List.map_map, Function.comp_def] using hnd
  rw [hpairs, len, slots_foldl_add, KeyMap.Layout.putAll_eq]
  show (KeyMap.collect _).length = _
  rw [(KeyMap.collect_perm hkeys).length_eq]
  simp

end CatalogSet

namespace CatalogBuilder


section Plans

variable {b : CatalogBuilder} {t : FileTree}

/-- What the scan phase keeps for each target: every target's scan succeeds,
and of its entries the phase keeps exactly those whose folded key neither the
start nor an earlier target's scan had, each the first of its key in the scan. -/
theorem plans_of_foldlM : ∀ (targets : List CatalogTarget) (x res), targets.foldlM (planStep b t) x = .ok res →
    ∃ plans, res.2 = x.2 ++ plans ∧ plans.map Prod.fst = targets ∧
      ∀ pre u F post, plans = pre ++ (u, F) :: post → ∃ scan,
        (b.forTarget u).scan t u.syncPath u.matcher = .ok scan ∧
        (F.map fun e => Path.foldKey e.relative).Nodup ∧
        ∀ e, e ∈ F ↔ (Path.foldKey e.relative ∉ x.1 ∧
          (∀ v ∈ pre, ∀ es, (b.forTarget v.1).scan t v.1.syncPath v.1.matcher = .ok es →
            ∀ e' ∈ es, Path.foldKey e'.relative ≠ Path.foldKey e.relative) ∧
          scan.find? (fun e' => Path.foldKey e'.relative == Path.foldKey e.relative) = some e)
  | [], x, res, h => by
    simp only [List.foldlM_nil, pure, Except.pure, Except.ok.injEq] at h
    subst h
    refine ⟨[], by simp, rfl, ?_⟩
    intro pre u F post hsp
    simp at hsp
  | u :: rest, x, res, h => by
    rw [List.foldlM_cons] at h
    cases hsc : (b.forTarget u).scan t u.syncPath u.matcher with
    | error err => simp [planStep, hsc, bind, Except.bind] at h
    | ok es =>
      simp only [planStep, hsc, pure, Except.pure, bind, Except.bind] at h
      obtain ⟨plans, hres, hfst, hsplit⟩ := plans_of_foldlM rest _ res h
      refine ⟨(u, (es.foldl dedupeStep (x.1, [])).2) :: plans, by rw [hres]; simp, by simp [hfst], ?_⟩
      intro pre u' F post hsp
      cases pre with
      | nil =>
        simp only [List.nil_append, List.cons.injEq, Prod.mk.injEq] at hsp
        obtain ⟨⟨rfl, rfl⟩, rfl⟩ := hsp
        refine ⟨es, hsc, dedupe_fresh_nodup _ es (by simp) (by simp), fun e => ?_⟩
        rw [mem_dedupe_fresh]
        simp
      | cons p pre' =>
        simp only [List.cons_append, List.cons.injEq] at hsp
        obtain ⟨rfl, hsp⟩ := hsp
        obtain ⟨scan, hscan, hnd, hmem⟩ := hsplit pre' u' F post hsp
        refine ⟨scan, hscan, hnd, fun e => ?_⟩
        rw [hmem, mem_dedupe_seen]
        simp only [List.mem_cons, forall_eq_or_imp, hsc, Except.ok.injEq, forall_eq']
        grind

end Plans

/-! ## The catalog of a target -/

section Catalogs

variable {b : CatalogBuilder} {t : FileTree}

theorem foldl_dirs (F : List ScannedEntry) (c : PathCatalog) :
    F.foldl (fun (c : PathCatalog) (e : ScannedEntry) => if e.isDirectory then c.add e.relative .directory else c) c =
      ((F.filter (·.isDirectory)).map fun e => (e.relative, FileRecord.directory)).foldl
        (fun c x => c.add x.1 x.2) c := by
  induction F generalizing c with
  | nil => rfl
  | cons e F ih =>
    by_cases hd : e.isDirectory
    · simp [hd, ih]
    · simp [hd, ih]

theorem foldlM_files_ok : ∀ (F : List ScannedEntry) {c c' : PathCatalog},
    F.foldlM (fun (c : PathCatalog) (e : ScannedEntry) =>
      if e.isDirectory then pure c
      else do pure (c.add e.relative (FileRecord.file (← (b.hasher.hashFile t e.native).mapError SyncError.fs)))) c =
        .ok c' →
    ∃ xs : List (String × FileRecord), List.Forall₂ (fun e x => x.1 = e.relative ∧ b.recordOf t e = .ok x.2)
      (F.filter fun e => !e.isDirectory) xs ∧ c' = xs.foldl (fun c x => c.add x.1 x.2) c
  | [], c, c', h => by
    simp only [List.foldlM_nil, pure, Except.pure, Except.ok.injEq] at h
    exact ⟨[], .nil, h.symm⟩
  | e :: F, c, c', h => by
    rw [List.foldlM_cons] at h
    by_cases hd : e.isDirectory
    · simp only [hd, if_true, pure, Except.pure, bind, Except.bind] at h
      obtain ⟨xs, hrel, rfl⟩ := foldlM_files_ok F h
      exact ⟨xs, by simpa [hd] using hrel, rfl⟩
    · cases hh : b.hasher.hashFile t e.native with
      | error err => simp [hd, hh, Except.mapError, bind, Except.bind] at h
      | ok v =>
        simp only [hd, hh, Bool.false_eq_true, if_false, Except.mapError, pure, Except.pure, bind,
          Except.bind] at h
        obtain ⟨xs, hrel, rfl⟩ := foldlM_files_ok F h
        refine ⟨(e.relative, FileRecord.file v) :: xs, ?_, rfl⟩
        simp only [hd, List.filter_cons, Bool.not_false, if_true]
        exact .cons ⟨rfl, by simp [recordOf, hd, hh, Except.map, Except.mapError]⟩ hrel

/-- Pairs that give, entry by entry, the records of a reordering of clean entries of
distinct folded keys make a catalog that holds exactly those entries, each with its record. -/
theorem recorded_ofList {F F' : List ScannedEntry} {ys : List (String × FileRecord)}
    (hclean : ∀ e ∈ F, cleanKeyPath e.relative = e.relative)
    (hnd : (F.map fun e => Path.foldKey e.relative).Nodup) (hperm : F'.Perm F)
    (hrel : List.Forall₂ (fun e (y : String × FileRecord) => y.1 = e.relative ∧ b.recordOf t e = .ok y.2) F' ys) :
    (∀ e ∈ F, ∃ r, b.recordOf t e = .ok r) ∧
      ∀ x : String × FileRecord, x ∈ (PathCatalog.ofList ys).toList ↔
        ∃ e ∈ F, e.relative = x.1 ∧ b.recordOf t e = .ok x.2 := by
  -- the pairs are clean and of distinct classes, so the catalog stores them as they are
  have hkeys : F'.map (fun e => catalogKey e.relative) = ys.map fun y => catalogKey y.1 := by
    have heq : List.Forall₂ (· = ·) (F'.map fun e => catalogKey e.relative) (ys.map fun y => catalogKey y.1) :=
      List.forall₂_map_left_iff.mpr (List.forall₂_map_right_iff.mpr
        (hrel.imp fun e y hy => congrArg catalogKey hy.1.symm))
    rwa [List.forall₂_eq_eq_eq] at heq
  have hfold : ∀ e ∈ F', catalogKey e.relative = Path.foldKey e.relative := fun e he => by
    rw [catalogKey, hclean e (hperm.subset he)]
  have hndys : (ys.map fun y => catalogKey y.1).Nodup := by
    rw [← hkeys, List.map_congr_left hfold]
    exact (hperm.map _).nodup_iff.mpr hnd
  have hcleanys : ∀ y ∈ ys, cleanKeyPath y.1 = y.1 := by
    intro y hy
    obtain ⟨e, he, hey, -⟩ := mem_of_forall₂ hrel hy
    rw [hey]
    exact hclean e (hperm.subset he)
  refine ⟨fun e he => ?_, fun x => ?_⟩
  · obtain ⟨y, -, -, hrec⟩ := mem_of_forall₂ (List.Forall₂.flip (R := flip _) hrel) (hperm.symm.subset he)
    exact ⟨y.2, hrec⟩
  rw [PathCatalog.mem_toList_ofList_iff hcleanys hndys]
  constructor
  · intro hx
    obtain ⟨e, he, hex, hrec⟩ := mem_of_forall₂ hrel hx
    exact ⟨e, hperm.subset he, hex.symm, hrec⟩
  · rintro ⟨e, he, hex, hrec⟩
    obtain ⟨y, hy, hye, hyrec⟩ := mem_of_forall₂ (List.Forall₂.flip (R := flip _) hrel) (hperm.symm.subset he)
    have hyx : y = x := Prod.ext (hye.trans hex) (Except.ok.inj (hyrec.symm.trans hrec))
    exact hyx ▸ hy

/-- The catalog the build makes from the entries it kept for a target, clean
and of distinct folded keys: every entry has its record, and the catalog holds
exactly those entries, each with its record. -/
theorem catalog_of_fresh {u : CatalogTarget} {F : List ScannedEntry}
    (hclean : ∀ e ∈ F, cleanKeyPath e.relative = e.relative)
    (hnd : (F.map fun e => Path.foldKey e.relative).Nodup) {c : PathCatalog} (h : hashPlan b t (u, F) = .ok c) :
    (∀ e ∈ F, ∃ r, b.recordOf t e = .ok r) ∧
      ∀ x : String × FileRecord, x ∈ c.toList ↔ ∃ e ∈ F, e.relative = x.1 ∧ b.recordOf t e = .ok x.2 := by
  simp only [hashPlan] at h
  rw [foldl_dirs] at h
  obtain ⟨xs, hfiles, rfl⟩ := foldlM_files_ok F h
  -- the markers go in first, then the files: one pair per entry of a reordering of `F`
  have hdirs : List.Forall₂ (fun e (x : String × FileRecord) => x.1 = e.relative ∧ b.recordOf t e = .ok x.2)
      (F.filter (·.isDirectory)) ((F.filter (·.isDirectory)).map fun e => (e.relative, FileRecord.directory)) := by
    rw [List.forall₂_map_right_iff, List.forall₂_same]
    intro e he
    exact ⟨rfl, by simp [recordOf, (List.mem_filter.mp he).2]⟩
  have hrel := List.rel_append hdirs hfiles
  beta_reduce at hrel
  have hperm : (F.filter (·.isDirectory) ++ F.filter fun e => !e.isDirectory).Perm F := List.filter_append_perm _ F
  rw [← List.foldl_append]
  exact recorded_ofList hclean hnd hperm hrel

end Catalogs

/-! ## The build -/

/-- An entry of a target's scan comes first: no scan of an earlier target
reported its folded key, and it is the first of its key in its own scan. -/
def FirstCome (b : CatalogBuilder) (t : FileTree) (earlier : List CatalogTarget) (scan : List ScannedEntry)
    (e : ScannedEntry) : Prop :=
  (∀ v ∈ earlier, ∀ es, (b.forTarget v).scan t v.syncPath v.matcher = .ok es →
    ∀ e' ∈ es, Path.foldKey e'.relative ≠ Path.foldKey e.relative) ∧
  scan.find? (fun e' => Path.foldKey e'.relative == Path.foldKey e.relative) = some e

section Build

variable {b : CatalogBuilder} {t : FileTree}

/-- A successful build over a tree of plain names makes one catalog per
target, in order; each holds, with its record, every entry of the target's
scan that comes first, and nothing else. -/
theorem build_first_come (hplain : ∀ x ∈ t.entries, ∀ n ∈ x.1, PlainName n) {targets : List CatalogTarget}
    {loc : CatalogSet} (h : b.build t targets = .ok loc) :
    ∃ catalogs : List (CatalogTarget × PathCatalog), catalogs.map Prod.fst = targets ∧
      loc = catalogs.foldl (fun s x => s.add x.1.syncPath x.2) CatalogSet.empty ∧
      ∀ pre u post, targets = pre ++ u :: post → ∃ scan c, (u, c) ∈ catalogs ∧
        (b.forTarget u).scan t u.syncPath u.matcher = .ok scan ∧
        (∀ e, FirstCome b t pre scan e → ∃ r, b.recordOf t e = .ok r) ∧
        ∀ x, x ∈ c.toList ↔ ∃ e, FirstCome b t pre scan e ∧ e.relative = x.1 ∧ b.recordOf t e = .ok x.2 := by
  obtain ⟨res, catalogs, hscan, hrel, rfl⟩ := build_phases h
  -- the scan phase: a plan per target, of the entries that come first
  obtain ⟨plans, hres, hfst, hplans⟩ := plans_of_foldlM targets ([], []) res hscan
  simp only [List.nil_append] at hres
  rw [hres] at hrel
  have hcfst : catalogs.map Prod.fst = targets := by
    have hpairs : List.Forall₂ (fun (u : CatalogTarget) (y : CatalogTarget × PathCatalog) => y.1 = u)
        (plans.map Prod.fst) catalogs :=
      List.forall₂_map_left_iff.mpr (hrel.imp fun _ _ hy => hy.1)
    rw [← hfst]
    exact map_fst_of_forall₂ (fun _ _ hy => hy) hpairs
  refine ⟨catalogs, hcfst, rfl, fun pre u post hsplit => ?_⟩
  rw [← hfst] at hsplit
  obtain ⟨preP, rest, rfl, hpre, hrest⟩ := List.map_eq_append_iff.mp hsplit
  obtain ⟨⟨u', F⟩, postP, rfl, rfl, -⟩ := List.map_eq_cons_iff.mp hrest
  subst hpre
  obtain ⟨scan, hscanu, hnd, hmem⟩ := hplans preP u' F postP rfl
  obtain ⟨y, hy, hyu, hfold⟩ := mem_of_forall₂ (List.Forall₂.flip (R := flip _) hrel)
    (List.mem_append_right _ List.mem_cons_self)
  have hfirst : ∀ e, e ∈ F ↔ FirstCome b t (preP.map Prod.fst) scan e := fun e => by
    simp [hmem, FirstCome]
  have hclean : ∀ e ∈ F, cleanKeyPath e.relative = e.relative := by
    intro e he
    obtain ⟨logical, hs, hkeys⟩ := scan_keys_plain hplain hscanu
    obtain ⟨ns, hns, hrel⟩ := hkeys e (List.mem_of_find?_eq_some ((hfirst e).mp he).2)
    rw [hrel]
    exact (keyOf_below_sanitized hs hns).1
  obtain ⟨hrecs, hcat⟩ := catalog_of_fresh hclean hnd hfold
  refine ⟨scan, y.2, ?_, hscanu, fun e he => hrecs e ((hfirst e).mpr he), fun x => ?_⟩
  · obtain ⟨y1, y2⟩ := y
    simp only at hyu
    rw [← hyu]
    exact hy
  · rw [hcat]
    simp only [hfirst]

/-- With sync paths of distinct classes, each target's catalog is recorded
under its own sync path, and the set has one slot per target. -/
theorem build_get_first_come (hplain : ∀ x ∈ t.entries, ∀ n ∈ x.1, PlainName n) {targets : List CatalogTarget}
    (hdistinct : (targets.map fun u => catalogKey u.syncPath).Nodup) {loc : CatalogSet}
    (h : b.build t targets = .ok loc) :
    loc.len = targets.length ∧ ∀ pre u post, targets = pre ++ u :: post → ∃ scan c,
      (b.forTarget u).scan t u.syncPath u.matcher = .ok scan ∧ loc.get u.syncPath = some c ∧
      (∀ e, FirstCome b t pre scan e → ∃ r, b.recordOf t e = .ok r) ∧
      ∀ x, x ∈ c.toList ↔ ∃ e, FirstCome b t pre scan e ∧ e.relative = x.1 ∧ b.recordOf t e = .ok x.2 := by
  obtain ⟨catalogs, hfst, rfl, hsplit⟩ := build_first_come hplain h
  have hnd : (catalogs.map fun x => catalogKey x.1.syncPath).Nodup := by
    rw [← hfst, List.map_map] at hdistinct
    simpa only [Function.comp_def] using hdistinct
  have hlen := CatalogSet.len_foldl_add_of_nodup (fun x : CatalogTarget × PathCatalog => x.1.syncPath) Prod.snd hnd
  beta_reduce at hlen
  refine ⟨by rw [hlen, ← hfst, List.length_map], ?_⟩
  intro pre u post hu
  obtain ⟨scan, c, hmem, hscan, hrecs, hcat⟩ := hsplit pre u post hu
  have hget := CatalogSet.get_foldl_add_of_nodup (fun x : CatalogTarget × PathCatalog => x.1.syncPath) Prod.snd
    hnd hmem
  beta_reduce at hget
  exact ⟨scan, c, hscan, hget, hrecs, hcat⟩

end Build

/-- **A build shares the keys among its targets, first come, first served.**
In a tree of plain names, with sync paths of distinct classes, a successful
build records one catalog per target under its sync path. Each catalog's keys
are the target's sync path or lie below it; a pair is in the catalog exactly
when it is the key and record of an entry of the target's scan that comes
first (no earlier target's scan reported its folded key, and it is the first
of its key in its own scan), files with their hash and markers as directories.
So the catalogs' keys are pairwise disjoint, and every key any scan reported
lands in some catalog. -/
theorem build_partitions_keys {b : CatalogBuilder} {t : FileTree}
    (hplain : ∀ x ∈ t.entries, ∀ n ∈ x.1, PlainName n) {targets : List CatalogTarget}
    (hdistinct : (targets.map fun u => catalogKey u.syncPath).Nodup) {loc : CatalogSet}
    (h : b.build t targets = .ok loc) :
    loc.len = targets.length ∧
    (∀ pre u post, targets = pre ++ u :: post → ∃ scan c,
      (b.forTarget u).scan t u.syncPath u.matcher = .ok scan ∧ loc.get u.syncPath = some c ∧
      (∃ logical, Path.sanitize u.syncPath = .ok logical ∧
        ∀ x ∈ c.toList, x.1 = logical ∨ (logical ++ "/").toList <+: x.1.toList) ∧
      ∀ x, x ∈ c.toList ↔ ∃ e, FirstCome b t pre scan e ∧ e.relative = x.1 ∧ b.recordOf t e = .ok x.2) ∧
    (targets.Pairwise fun u v => ∀ c c', loc.get u.syncPath = some c → loc.get v.syncPath = some c' →
      ∀ x ∈ c.toList, ∀ y ∈ c'.toList, Path.foldKey x.1 ≠ Path.foldKey y.1) ∧
    ∀ u ∈ targets, ∀ es, (b.forTarget u).scan t u.syncPath u.matcher = .ok es → ∀ e ∈ es,
      ∃ v ∈ targets, ∃ c, loc.get v.syncPath = some c ∧
        ∃ x ∈ c.toList, Path.foldKey x.1 = Path.foldKey e.relative := by
  obtain ⟨hlen, hsplit⟩ := build_get_first_come hplain hdistinct h
  refine ⟨hlen, ?_, ?_, ?_⟩
  · -- the keys of a catalog are keys its target's scan reported
    intro pre u post hu
    obtain ⟨scan, c, hscan, hget, -, hcat⟩ := hsplit pre u post hu
    obtain ⟨logical, hs, hkeys⟩ := scan_keys_plain hplain hscan
    refine ⟨scan, c, hscan, hget, ⟨logical, hs, fun x hx => ?_⟩, hcat⟩
    obtain ⟨e, ⟨-, hfind⟩, hrel, -⟩ := (hcat x).mp hx
    obtain ⟨ns, hns, hkey⟩ := hkeys e (List.mem_of_find?_eq_some hfind)
    rw [← hrel, hkey]
    exact (keyOf_below_sanitized hs hns).2
  · -- a key of an earlier target is never first in a later one
    refine List.pairwise_iff_forall_sublist.mpr fun {u v} huv => ?_
    obtain ⟨r₁, r₂, htr, hu, hv⟩ := List.cons_sublist_iff.mp huv
    obtain ⟨s₁, s₂, rfl⟩ := List.append_of_mem hu
    obtain ⟨s₃, s₄, rfl⟩ := List.append_of_mem (List.singleton_sublist.mp hv)
    intro c c' hc hc' x hx y hy hxy
    obtain ⟨scan, cu, hscan, hget, -, hcat⟩ := hsplit s₁ u (s₂ ++ s₃ ++ v :: s₄) (by simp [htr])
    obtain ⟨scan', cv, -, hget', -, hcat'⟩ := hsplit (s₁ ++ u :: s₂ ++ s₃) v s₄ (by simp [htr])
    obtain rfl : cu = c := Option.some.inj (hget.symm.trans hc)
    obtain rfl : cv = c' := Option.some.inj (hget'.symm.trans hc')
    obtain ⟨e, ⟨-, hfind⟩, hrel, -⟩ := (hcat x).mp hx
    obtain ⟨e', ⟨hearlier, -⟩, hrel', -⟩ := (hcat' y).mp hy
    refine hearlier u (by simp) scan hscan e (List.mem_of_find?_eq_some hfind) ?_
    rw [hrel, hrel', hxy]
  · -- every scanned key lands in the catalog of the first target that scanned it
    classical
    intro u hu es hes e he
    let P := fun v : CatalogTarget => ∃ es', (b.forTarget v).scan t v.syncPath v.matcher = .ok es' ∧
      ∃ e' ∈ es', Path.foldKey e'.relative = Path.foldKey e.relative
    obtain ⟨v, hv⟩ : ∃ v, targets.find? (fun v => decide (P v)) = some v :=
      Option.isSome_iff_exists.mp (List.find?_isSome.mpr ⟨u, hu, decide_eq_true ⟨es, hes, e, he, rfl⟩⟩)
    obtain ⟨hPv, pre, post, hsplitv, hpre⟩ := List.find?_eq_some_iff_append.mp hv
    obtain ⟨es', hes', e', he', hkey'⟩ := of_decide_eq_true hPv
    obtain ⟨scan, c, hscan, hget, hrecs, hcat⟩ := hsplit pre v post hsplitv
    obtain rfl : scan = es' := Except.ok.inj (hscan.symm.trans hes')
    -- the first entry of the key in the scan of `v` comes first
    obtain ⟨e'', he''⟩ : ∃ e'', scan.find? (fun f => Path.foldKey f.relative == Path.foldKey e.relative) = some e'' :=
      Option.isSome_iff_exists.mp (List.find?_isSome.mpr ⟨e', he', by simp [hkey']⟩)
    have hkey'' : Path.foldKey e''.relative = Path.foldKey e.relative := by
      simpa using List.find?_some he''
    have hfirst : FirstCome b t pre scan e'' := by
      refine ⟨fun w hw ws hws f hf hfe => ?_, by rw [hkey'']; exact he''⟩
      have hnot := hpre w hw
      simp only [Bool.not_eq_true', decide_eq_false_iff_not] at hnot
      exact hnot ⟨ws, hws, f, hf, hfe.trans hkey''⟩
    obtain ⟨r, hr⟩ := hrecs e'' hfirst
    exact ⟨v, List.mem_of_find?_eq_some hv, c, hget, (e''.relative, r),
      (hcat _).mpr ⟨e'', hfirst, rfl, hr⟩, hkey''⟩

end CatalogBuilder
/-- A sync path nested in a later one keeps what its scan reports: the scan of
`mods` reports `mods/a` too, but the target `mods/a` came first, so the
catalog of `mods` is empty. -/
theorem build_partitions_keys_nested :
    (∀ x ∈ (FileTree.mk [(["mods"], .dir), (["mods", "a"], .dir)]).entries, ∀ n ∈ x.1, PlainName n) ∧
    (([⟨"mods/a", ⟨⟨nativeOf []⟩, []⟩, none⟩, ⟨"mods", ⟨⟨nativeOf []⟩, []⟩, none⟩] : List CatalogTarget).map
      fun u => catalogKey u.syncPath).Nodup ∧
    ∃ loc, ({ base := ⟨nativeOf []⟩ } : CatalogBuilder).build ⟨[(["mods"], .dir), (["mods", "a"], .dir)]⟩
        [⟨"mods/a", ⟨⟨nativeOf []⟩, []⟩, none⟩, ⟨"mods", ⟨⟨nativeOf []⟩, []⟩, none⟩] = .ok loc ∧
      loc.len = 2 ∧ ∃ c, loc.get "mods" = some c ∧ c.toList = [] := by
  have hplain : ∀ x ∈ (FileTree.mk [(["mods"], .dir), (["mods", "a"], .dir)]).entries, ∀ n ∈ x.1, PlainName n := by
    unfold PlainName PlainSeg
    decide
  have hdistinct : (([⟨"mods/a", ⟨⟨nativeOf []⟩, []⟩, none⟩, ⟨"mods", ⟨⟨nativeOf []⟩, []⟩, none⟩] :
      List CatalogTarget).map fun u => catalogKey u.syncPath).Nodup := by
    decide
  have hwf : (FileTree.mk [(["mods"], .dir), (["mods", "a"], .dir)]).WF := by
    refine ⟨by decide, ?_, ?_, ?_⟩
    · unfold PlainName PlainSeg
      decide
    · intro e he
      simp only [List.mem_cons, List.not_mem_nil, or_false] at he
      rcases he with rfl | rfl <;> rfl
    · intro e he target
      simp only [List.mem_cons, List.not_mem_nil, or_false] at he
      rcases he with rfl | rfl <;> exact fun h => by cases h
  have hD₁ : ∀ n ∈ ["mods"], PlainName n := by
    unfold PlainName PlainSeg
    decide
  have hD₂ : ∀ n ∈ ["mods", "a"], PlainName n := by
    unfold PlainName PlainSeg
    decide
  have hnf₁ : ∀ k < ["mods"].length, ∀ d,
      (FileTree.mk [(["mods"], .dir), (["mods", "a"], .dir)]).find? (["mods"].take k) ≠ some (.file d) := by
    intro k hk d
    simp only [List.length_cons, List.length_nil, zero_add, Nat.lt_one_iff] at hk
    subst hk
    simp [FileTree.find?]
  have hnf₂ : ∀ k < ["mods", "a"].length, ∀ d,
      (FileTree.mk [(["mods"], .dir), (["mods", "a"], .dir)]).find? (["mods", "a"].take k) ≠ some (.file d) := by
    intro k hk d
    simp only [List.length_cons, List.length_nil, zero_add] at hk
    interval_cases k <;> simp [FileTree.find?, List.lookup]
  have hf₁ : (FileTree.mk [(["mods"], .dir), (["mods", "a"], .dir)]).find? ["mods"] = some .dir := rfl
  have hf₂ : (FileTree.mk [(["mods"], .dir), (["mods", "a"], .dir)]).find? ["mods", "a"] = some .dir := rfl
  have hscan₁ : ({ base := ⟨nativeOf []⟩ } : CatalogBuilder).scan
      ⟨[(["mods"], .dir), (["mods", "a"], .dir)]⟩ "mods/a" ⟨⟨nativeOf []⟩, []⟩ =
        .ok [⟨"mods/a", "$ROOT/mods/a", true⟩] := by
    have hs : Path.sanitize "mods/a" = .ok "mods/a" := by decide
    have hj : (⟨nativeOf []⟩ : NormalPath).join "mods/a" = ⟨"$ROOT/mods/a"⟩ := by
      have hk : keyOf ["mods", "a"] = "mods/a" := by decide
      have hn : nativeOf ([] ++ ["mods", "a"]) = "$ROOT/mods/a" := by decide
      rw [← hk, ← hn]
      exact join_nativeOf (by simp) hD₂ (by simp)
    have hx : (ExclusionMatcher.mk ⟨nativeOf []⟩ []).excludesTree ⟨"$ROOT/mods/a"⟩ = false := by cbv
    have hm : (FileTree.mk [(["mods"], .dir), (["mods", "a"], .dir)]).metadata "$ROOT/mods/a" = .ok .dir :=
      hwf.metadata_nativeOf_dir hD₂ hnf₂ hf₂
    have hl : (FileTree.mk [(["mods"], .dir), (["mods", "a"], .dir)]).symlinkMetadata "$ROOT/mods/a" =
        .ok .dir :=
      hwf.symlinkMetadata_nativeOf_dir hD₂ hnf₂ hf₂
    have hr : (FileTree.mk [(["mods"], .dir), (["mods", "a"], .dir)]).resolve "$ROOT/mods/a" true =
        .ok ["mods", "a"] :=
      hwf.resolve_nativeOf_of_some hD₂ hnf₂ true hf₂
    have hc : (FileTree.mk [(["mods"], .dir), (["mods", "a"], .dir)]).childNames ["mods", "a"] = [] := by cbv
    simp only [CatalogBuilder.scan, hs, Except.mapError, bind, Except.bind, hj, hx, hm, hl, hr, pure,
      Except.pure, Bool.false_eq_true, if_false, List.length_cons, List.length_nil, walkBelow, hc,
      List.flatMap_nil]
    rfl
  have hscan₂ : ({ base := ⟨nativeOf []⟩ } : CatalogBuilder).scan
      ⟨[(["mods"], .dir), (["mods", "a"], .dir)]⟩ "mods" ⟨⟨nativeOf []⟩, []⟩ =
        .ok [⟨"mods/a", "$ROOT/mods/a", true⟩] := by
    have hs : Path.sanitize "mods" = .ok "mods" := by decide
    have hj : (⟨nativeOf []⟩ : NormalPath).join "mods" = ⟨"$ROOT/mods"⟩ := by
      have hk : keyOf ["mods"] = "mods" := by decide
      have hn : nativeOf ([] ++ ["mods"]) = "$ROOT/mods" := by decide
      rw [← hk, ← hn]
      exact join_nativeOf (by simp) hD₁ (by simp)
    have hx : (ExclusionMatcher.mk ⟨nativeOf []⟩ []).excludesTree ⟨"$ROOT/mods"⟩ = false := by cbv
    have hm : (FileTree.mk [(["mods"], .dir), (["mods", "a"], .dir)]).metadata "$ROOT/mods" = .ok .dir :=
      hwf.metadata_nativeOf_dir hD₁ hnf₁ hf₁
    have hl : (FileTree.mk [(["mods"], .dir), (["mods", "a"], .dir)]).symlinkMetadata "$ROOT/mods" =
        .ok .dir :=
      hwf.symlinkMetadata_nativeOf_dir hD₁ hnf₁ hf₁
    have hr : (FileTree.mk [(["mods"], .dir), (["mods", "a"], .dir)]).resolve "$ROOT/mods" true =
        .ok ["mods"] :=
      hwf.resolve_nativeOf_of_some hD₁ hnf₁ true hf₁
    have hc : (FileTree.mk [(["mods"], .dir), (["mods", "a"], .dir)]).childNames ["mods"] = ["a"] := by cbv
    have hca : (FileTree.mk [(["mods"], .dir), (["mods", "a"], .dir)]).childNames ["mods", "a"] = [] := by cbv
    have hpa : "$ROOT/mods" ++ "/" ++ "a" = "$ROOT/mods/a" := by decide
    simp only [CatalogBuilder.scan, hs, Except.mapError, bind, Except.bind, hj, hx, hm, hl, hr, pure,
      Except.pure, Bool.false_eq_true, if_false, List.length_cons, List.length_nil, walkBelow, hc, hca,
      List.flatMap_cons, List.flatMap_nil, List.cons_append, List.nil_append, List.append_nil, hpa, hf₂]
    rfl
  obtain ⟨loc, h⟩ : ∃ loc, ({ base := ⟨nativeOf []⟩ } : CatalogBuilder).build
      ⟨[(["mods"], .dir), (["mods", "a"], .dir)]⟩
      [⟨"mods/a", ⟨⟨nativeOf []⟩, []⟩, none⟩, ⟨"mods", ⟨⟨nativeOf []⟩, []⟩, none⟩] = .ok loc := by
    simp only [CatalogBuilder.build, bind, Except.bind, List.foldlM_cons, List.foldlM_nil,
      CatalogBuilder.forTarget, hscan₁, hscan₂]
    exact ⟨_, rfl⟩
  obtain ⟨hlen, hsplit, -, -⟩ := CatalogBuilder.build_partitions_keys hplain hdistinct h
  refine ⟨hplain, hdistinct, loc, h, hlen, ?_⟩
  obtain ⟨scan, c, hscan, hget, -, hcat⟩ := hsplit [⟨"mods/a", ⟨⟨nativeOf []⟩, []⟩, none⟩] _ [] rfl
  obtain rfl : scan = [⟨"mods/a", "$ROOT/mods/a", true⟩] := Except.ok.inj (hscan.symm.trans hscan₂)
  refine ⟨c, hget, List.eq_nil_iff_forall_not_mem.mpr fun x hx => ?_⟩
  obtain ⟨e, ⟨hearlier, hfind⟩, -, -⟩ := (hcat x).mp hx
  obtain rfl : e = ⟨"mods/a", "$ROOT/mods/a", true⟩ := by
    simpa using List.mem_of_find?_eq_some hfind
  exact hearlier _ List.mem_cons_self _ hscan₁ _ List.mem_cons_self rfl

end ModMirror
