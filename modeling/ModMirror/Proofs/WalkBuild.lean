import Mathlib
import ModMirror.Proofs.Partition
import ModMirror.Proofs.Fetchable
import ModMirror.Proofs.Served

/-!
# A walk against a one-target build

`walk` scans a sync path and adds every entry the scan reports, in order, to an
empty catalog. `build` over that single target scans it too, keeps the first
entry of each folded path, adds the markers and then the hashed files. The two
give one catalog when the target is scanned below the builder's own base and no
two entries of the scan share a catalog key:

    b.build t [u] = (b.walk t u.syncPath u.matcher).map (CatalogSet.empty.add u.syncPath)
                                                               (build_single_eq_walk)

so both fail alike, and on success the build's catalog of the sync path is the
walk's (`walk_agrees_with_build`). Both conditions are needed: a target with a
base of its own is built there but walked below the builder's base, and of two
empty directories `mods/X` and `mods/x` the walk keeps the later spelling, the
build the first (`walk_departs_from_build`).

The build deduplicates on the folded path, the catalogs on the catalog key.
The catalog key is the folded path without its outer separators
(`catalogKey_eq_trimBoth_foldKey`), since lowercasing maps no other character
to a separator and forgets what stood before one; so distinct catalog keys are
distinct folded paths.
-/

namespace ModMirror

open Text

/-! ## Catalog keys and folded paths -/

section Keys

theorem toLower_ne_slash {c : Char} (hc : c ≠ '/') : c.toLower ≠ '/' := by
  unfold Char.toLower
  split
  · -- an upper-case ASCII letter moves up by 32, far above the separator
    rename_i h
    intro he
    have hv := congrArg (fun x : Char => x.val.toNat) he
    have hshift : ('a'.val - 'A'.val).toNat = 32 := by decide
    have hslash : '/'.val.toNat = 47 := by decide
    have hA : 'A'.val.toNat = 65 := by decide
    have hlow := UInt32.le_iff_toNat_le.mp h.1
    simp only [UInt32.toNat_add, hshift, hslash] at hv
    rw [hA] at hlow
    have hlt := UInt32.toNat_lt c.val
    omega
  · exact hc

theorem lowerRuns_above_slash : ∀ r ∈ lowerRuns.toList, (47 : Int) < r.first + r.offset := by
  decide +kernel

theorem lowerChar_ne_slash {c : Char} (hc : c ≠ '/') : lowerChar c ≠ '/' := by
  unfold lowerChar
  split
  · exact toLower_ne_slash hc
  · split
    · -- a run of the table moves its characters to code points above the separator
      rename_i r hr
      rw [← Array.find?_toList] at hr
      have hfirst : r.first ≤ c.toNat := by
        have := List.find?_some hr
        simp only [Bool.and_eq_true, decide_eq_true_eq] at this
        exact this.1.1
      have habove := lowerRuns_above_slash r (List.mem_of_find?_eq_some hr)
      intro he
      have hn := congrArg Char.toNat he
      rw [Char.toNat_ofNat] at hn
      split at hn
      · simp at hn
        omega
      · simp at hn
    · exact hc

/-- A character is lowercased to a piece of text before the rest; for any
character but a separator, the piece is not empty and holds no separator. -/
theorem lowerFrom_cons (before rest : List Char) (c : Char) :
    ∃ here, lowerFrom before (c :: rest) = here ++ lowerFrom (c :: before) rest ∧
      (c ≠ '/' → here ≠ [] ∧ '/' ∉ here) := by
  refine ⟨_, rfl, fun hc => ?_⟩
  split_ifs
  · have hsigma : sigmaBetween before rest ≠ '/' := by
      unfold sigmaBetween
      split <;> decide
    simpa using hsigma.symm
  · decide
  · simpa using (lowerChar_ne_slash hc).symm

theorem head?_lowerFrom_ne_slash {c : Char} (hc : c ≠ '/') (before rest : List Char) :
    (lowerFrom before (c :: rest)).head? ≠ some '/' := by
  obtain ⟨here, heq, hhere⟩ := lowerFrom_cons before rest c
  obtain ⟨hne, hno⟩ := hhere hc
  obtain ⟨x, xs, rfl⟩ := List.exists_cons_of_ne_nil hne
  rw [heq, List.cons_append, List.head?_cons]
  exact fun hx => hno (Option.some.inj hx ▸ List.mem_cons_self)

theorem lowerFrom_snoc : ∀ (before A : List Char) (c : Char),
    ∃ L, lowerFrom before (A ++ [c]) = L ++ lowerFrom (A.reverse ++ before) [c]
  | _, [], _ => ⟨[], rfl⟩
  | before, a :: A, c => by
    obtain ⟨here, heq, -⟩ := lowerFrom_cons before (A ++ [c]) a
    obtain ⟨L, hL⟩ := lowerFrom_snoc (a :: before) A c
    refine ⟨here ++ L, ?_⟩
    rw [List.cons_append, heq, hL]
    simp

theorem getLast?_lowerFrom_ne_slash {c : Char} (hc : c ≠ '/') (before A : List Char) :
    (lowerFrom before (A ++ [c])).getLast? ≠ some '/' := by
  obtain ⟨L, hL⟩ := lowerFrom_snoc before A c
  obtain ⟨here, heq, hhere⟩ := lowerFrom_cons (A.reverse ++ before) [] c
  obtain ⟨hne, hno⟩ := hhere hc
  rw [hL, heq]
  simp only [lowerFrom, List.append_nil, List.getLast?_append]
  obtain ⟨x, hx⟩ := List.getLast?_isSome.mpr hne |> Option.isSome_iff_exists.mp
  rw [hx]
  exact fun h => hno (Option.some.inj h ▸ List.mem_of_getLast? hx)

theorem lowerFrom_slash_context : ∀ (P B X : List Char), lowerFrom (P ++ '/' :: B) X = lowerFrom P X
  | _, _, [] => rfl
  | P, B, c :: X => by
    simp only [lowerFrom, sigmaBetween, ignorableThenCased_append_slash]
    rw [← List.cons_append, lowerFrom_slash_context (c :: P) B X]

/-- Lowercasing commutes with dropping leading separators: a separator is its
own lowercase and hides what stands before it. -/
theorem lowerList_trimStart : ∀ cs : List Char, lowerList (trimStart '/' cs) = trimStart '/' (lowerList cs)
  | [] => rfl
  | c :: cs => by
    by_cases hc : c = '/'
    · subst hc
      have hslash : lowerList ('/' :: cs) = '/' :: lowerList cs := by
        have hctx := lowerFrom_slash_context [] [] cs
        rw [List.nil_append] at hctx
        rw [lowerList, lowerFrom_append_ascii [] '/' cs (by decide), hctx]
        rfl
      have htrim : ∀ ds : List Char, trimStart '/' ('/' :: ds) = trimStart '/' ds := fun ds => by
        simp [trimStart]
      rw [htrim, hslash, htrim, lowerList_trimStart cs]
    · have hhead : (c :: cs).head? ≠ some '/' := by simpa using hc
      rw [trimStart_of_head hhead]
      exact (trimStart_of_head (head?_lowerFrom_ne_slash hc [] cs)).symm

theorem lowerList_trimEnd (cs : List Char) : lowerList (trimEnd '/' cs) = trimEnd '/' (lowerList cs) := by
  induction cs using List.reverseRecOn with
  | nil => rfl
  | append_singleton A c ih =>
    by_cases hc : c = '/'
    · subst hc
      have hslash : lowerList (A ++ ['/']) = lowerList A ++ ['/'] := by
        rw [lowerList, lowerFrom_append_slash]
        rfl
      have htrim : ∀ ds : List Char, trimEnd '/' (ds ++ ['/']) = trimEnd '/' ds := fun ds => by
        simp [trimEnd]
      rw [htrim, hslash, htrim, ih]
    · have hlast : (A ++ [c]).getLast? ≠ some '/' := by simpa using hc
      rw [trimEnd_of_getLast hlast]
      exact (trimEnd_of_getLast (getLast?_lowerFrom_ne_slash hc [] A)).symm

theorem lowerList_trimBoth (cs : List Char) : lowerList (trimBoth '/' cs) = trimBoth '/' (lowerList cs) := by
  rw [trimBoth, trimBoth, lowerList_trimEnd, lowerList_trimStart]

/-- The catalog key of a path is its folded path without outer separators. -/
theorem catalogKey_eq_trimBoth_foldKey (p : String) :
    catalogKey p = String.ofList (trimBoth '/' (Path.foldKey p).toList) := by
  have hno : '\\' ∉ trimBoth '/' (unifySlashes p.toList) := fun h =>
    backslash_not_mem_unifySlashes _ (mem_of_mem_trimBoth h)
  rw [catalogKey, cleanKeyPath, Path.foldKey, Path.foldKey, String.toList_ofList, String.toList_ofList,
    unifySlashes_of_no_backslash hno, lowerList_trimBoth]

theorem catalogKey_eq_of_foldKey_eq {p q : String} (h : Path.foldKey p = Path.foldKey q) :
    catalogKey p = catalogKey q := by
  rw [catalogKey_eq_trimBoth_foldKey, h, ← catalogKey_eq_trimBoth_foldKey]

end Keys

/-! ## Catalogs up to order -/

namespace PathCatalog

theorem ofList_perm {xs ys : List (String × FileRecord)} (hp : xs.Perm ys)
    (hnd : (xs.map fun x => catalogKey x.1).Nodup) : ofList xs = ofList ys := by
  apply ext_entries
  rw [entries_ofList, entries_ofList]
  apply (KeyMap.spelled_nil.putAll xs).eq_of_find? (KeyMap.spelled_nil.putAll ys)
  intro q
  rw [KeyMap.Layout.find?_putAll, KeyMap.Layout.find?_putAll]
  -- a class holds at most one pair of either list, and the same one
  have hnd' := (hp.map fun x : String × FileRecord => catalogKey x.1).nodup_iff.mp hnd
  by_cases hx : ∃ x ∈ xs, catalogKey x.1 = catalogKey q
  · obtain ⟨x, hx, hxq⟩ := hx
    have hl := KeyMap.filter_eq_singleton_of_nodup (fun x : String × FileRecord => catalogKey x.1) hnd hx
    have hr := KeyMap.filter_eq_singleton_of_nodup (fun x : String × FileRecord => catalogKey x.1) hnd'
      (hp.subset hx)
    rw [← hxq, hl, hr]
  · have hy : ∀ y ∈ ys, catalogKey y.1 ≠ catalogKey q := fun y hy hyq => hx ⟨y, hp.symm.subset hy, hyq⟩
    have hx' : ∀ x ∈ xs, catalogKey x.1 ≠ catalogKey q := fun x hx' hxq => hx ⟨x, hx', hxq⟩
    rw [List.filter_eq_nil_iff.mpr (by simpa using hx'), List.filter_eq_nil_iff.mpr (by simpa using hy)]

end PathCatalog

/-! ## Walks and builds as folds over pairs -/

namespace CatalogBuilder

variable {b : CatalogBuilder} {t : FileTree}

/-- The key and record of a scanned entry. -/
def pairOf (b : CatalogBuilder) (t : FileTree) (e : ScannedEntry) : Except SyncError (String × FileRecord) :=
  (b.recordOf t e).map fun r => (e.relative, r)

theorem pairOf_fst {e : ScannedEntry} {y : String × FileRecord} (h : pairOf b t e = .ok y) : y.1 = e.relative := by
  unfold pairOf at h
  cases hr : b.recordOf t e with
  | error err => simp [hr, Except.map] at h
  | ok r =>
    simp only [hr, Except.map, Except.ok.injEq] at h
    rw [← h]

theorem map_fst_of_mapM_pairOf {F : List ScannedEntry} {ys : List (String × FileRecord)}
    (h : F.mapM (pairOf b t) = .ok ys) : ys.map Prod.fst = F.map (·.relative) := by
  have hrel := forall₂_of_mapM_ok h
  clear h
  induction hrel with
  | nil => rfl
  | cons hy _ ih => rw [List.map_cons, List.map_cons, pairOf_fst hy, ih]

theorem mapM_pairOf_markers : ∀ {M : List ScannedEntry}, (∀ e ∈ M, e.isDirectory = true) →
    M.mapM (pairOf b t) = .ok (M.map fun e => (e.relative, .directory))
  | [], _ => rfl
  | e :: M, hM => by
    have he : pairOf b t e = .ok (e.relative, .directory) := by
      simp [pairOf, recordOf, hM e List.mem_cons_self, Except.map]
    rw [List.mapM_cons, he, mapM_pairOf_markers fun e' he' => hM e' (List.mem_cons_of_mem _ he')]
    rfl

theorem foldlM_add_pairs {f : PathCatalog → ScannedEntry → Except SyncError PathCatalog}
    {p : ScannedEntry → Bool} {g : ScannedEntry → Except SyncError (String × FileRecord)}
    (hf : ∀ c e, f c e = if p e then .ok c else (g e).map fun y => c.add y.1 y.2) :
    ∀ (l : List ScannedEntry) (c : PathCatalog),
      l.foldlM f c = ((l.filter fun e => !p e).mapM g).map fun ys => ys.foldl (fun c y => c.add y.1 y.2) c
  | [], c => rfl
  | e :: l, c => by
    rw [List.foldlM_cons, hf]
    by_cases hs : p e
    · simp only [hs, if_true, List.filter_cons, Bool.not_true, Bool.false_eq_true, if_false]
      exact foldlM_add_pairs hf l c
    · simp only [hs, Bool.false_eq_true, if_false, List.filter_cons, Bool.not_false, if_true, List.mapM_cons]
      cases g e with
      | error err => rfl
      | ok y =>
        simp only [Except.map, bind, Except.bind, pure, Except.pure]
        rw [foldlM_add_pairs hf l]
        cases (l.filter fun e => !p e).mapM g <;> rfl

theorem hashStep_eq (c : PathCatalog) (e : ScannedEntry) :
    (if e.isDirectory then pure c
      else do pure (c.add e.relative (FileRecord.file (← (b.hasher.hashFile t e.native).mapError SyncError.fs))) :
        Except SyncError PathCatalog) =
      if e.isDirectory then .ok c else (pairOf b t e).map fun y => c.add y.1 y.2 := by
  by_cases hd : e.isDirectory
  · simp [hd, pure, Except.pure]
  · simp only [hd, Bool.false_eq_true, if_false, pairOf, recordOf]
    cases b.hasher.hashFile t e.native <;> rfl

theorem walkStep_eq (c : PathCatalog) (e : ScannedEntry) :
    (do pure (c.add e.relative (← b.recordOf t e)) : Except SyncError PathCatalog) =
      (pairOf b t e).map fun y => c.add y.1 y.2 := by
  unfold pairOf
  cases b.recordOf t e <;> rfl

theorem walk_eq (s : String) (m : ExclusionMatcher) :
    b.walk t s m = (b.scan t s m).bind fun l =>
      (l.mapM (pairOf b t)).map fun ys => ys.foldl (fun c y => c.add y.1 y.2) PathCatalog.empty := by
  unfold walk
  cases b.scan t s m with
  | error err => rfl
  | ok l =>
    have h := foldlM_add_pairs (p := fun _ => false)
      (fun c e => (walkStep_eq (b := b) (t := t) c e).trans (if_neg Bool.false_ne_true).symm) l PathCatalog.empty
    simp only [Bool.not_false, List.filter_true] at h
    exact h

/-- A build over one target scans it, keeps the first entry of each folded
path, adds the markers, then the hashed files. -/
theorem build_singleton (target : CatalogTarget) :
    b.build t [target] = ((b.forTarget target).scan t target.syncPath target.matcher).bind fun l =>
      ((l.foldl dedupeStep ([], [])).2.foldlM (fun (c : PathCatalog) (e : ScannedEntry) =>
        if e.isDirectory then pure c
        else do pure (c.add e.relative (FileRecord.file (← (b.hasher.hashFile t e.native).mapError SyncError.fs))))
        ((l.foldl dedupeStep ([], [])).2.foldl (fun (c : PathCatalog) (e : ScannedEntry) =>
          if e.isDirectory then c.add e.relative .directory else c) PathCatalog.empty)).map
        (CatalogSet.empty.add target.syncPath) := by
  simp only [build, List.foldlM_cons, List.foldlM_nil, bind, Except.bind, pure, Except.pure]
  cases (b.forTarget target).scan t target.syncPath target.matcher with
  | error err => rfl
  | ok l =>
    simp only [List.nil_append, List.map_cons, List.map_nil, List.mapM_cons, List.mapM_nil, bind, Except.bind,
      pure, Except.pure, Except.map]
    delta dedupeStep
    generalize (List.foldlM _ _ _ : Except SyncError PathCatalog) = X
    cases X <;> rfl

theorem dedupe_keeps_fresh : ∀ (l : List ScannedEntry) (x : List String × List ScannedEntry),
    (l.map fun e => Path.foldKey e.relative).Nodup → (∀ e ∈ l, Path.foldKey e.relative ∉ x.1) →
      (l.foldl dedupeStep x).2 = x.2 ++ l
  | [], x, _, _ => by simp
  | e :: l, x, hnd, hfresh => by
    obtain ⟨hnew, hnd⟩ := List.nodup_cons.mp hnd
    have he : x.1.contains (Path.foldKey e.relative) = false := by
      simpa using hfresh e List.mem_cons_self
    simp only [List.foldl_cons, dedupeStep, he, Bool.false_eq_true, if_false]
    rw [dedupe_keeps_fresh l _ hnd]
    · simp
    · intro e' he' hmem
      rcases List.mem_cons.mp hmem with h | h
      · exact hnew (List.mem_map.mpr ⟨e', he', h⟩)
      · exact hfresh e' (List.mem_cons_of_mem _ he') h

/-- A scan reports its files first, then its markers. -/
theorem scan_files_first {s : String} {m : ExclusionMatcher} {l : List ScannedEntry} (h : b.scan t s m = .ok l) :
    l.filter (fun e => !e.isDirectory) ++ l.filter (·.isDirectory) = l := by
  simp only [CatalogBuilder.scan, Except.mapError, bind, Except.bind, pure, Except.pure] at h
  -- the cases of the scan: a refused path, an excluded root, a missing root, a
  -- linked root, a listed directory, and a root that is a file
  split at h
  · cases h
  split at h
  · simp only [Except.ok.injEq] at h
    subst h
    rfl
  split at h
  · split at h
    · simp only [Except.ok.injEq] at h
      subst h
      rfl
    · cases h
  · split at h
    · simp only [Except.ok.injEq] at h
      subst h
      rfl
    split at h
    · cases h
    simp only [Except.ok.injEq] at h
    subst h
    simp [List.filter_append, List.filter_map, Function.comp_def]
  · simp only [Except.ok.injEq] at h
    subst h
    rfl

/-! ## The walk agrees with the build -/

/-- **A one-target build is the walk, filed under its sync path.** When the
target is scanned below the builder's base and its scan reports no two entries
of one class, the build fails exactly when the walk does, with the same error,
and otherwise holds the walk's catalog alone. -/
theorem build_single_eq_walk {target : CatalogTarget} (hbase : target.base = none ∨ target.base = some b.base)
    (hdistinct : ∀ l, b.scan t target.syncPath target.matcher = .ok l →
      (l.map fun e => catalogKey e.relative).Nodup) :
    b.build t [target] = (b.walk t target.syncPath target.matcher).map (CatalogSet.empty.add target.syncPath) := by
  have hfor : b.forTarget target = b := by
    rcases hbase with h | h <;> simp [forTarget, h]
  rw [build_singleton, hfor, walk_eq]
  cases hs : b.scan t target.syncPath target.matcher with
  | error err => rfl
  | ok l =>
    have hkeys := hdistinct l hs
    -- distinct catalog keys are distinct folded paths, so the build keeps every entry
    have hfold : (l.map fun e => Path.foldKey e.relative).Nodup := by
      rw [List.Nodup, List.pairwise_map] at hkeys ⊢
      exact hkeys.imp fun hne heq => hne (catalogKey_eq_of_foldKey_eq heq)
    have hkeep : (l.foldl dedupeStep ([], [])).2 = l := by
      simpa using dedupe_keeps_fresh l ([], []) hfold (by simp)
    simp only [Except.bind]
    rw [hkeep, foldlM_add_pairs hashStep_eq, foldl_dirs]
    -- the walk meets the files first, then the markers, which never fail
    have hl := scan_files_first hs
    conv_rhs => rw [← hl]
    rw [List.mapM_append, mapM_pairOf_markers fun e he => (List.mem_filter.mp he).2]
    cases hF : (l.filter fun e => !e.isDirectory).mapM (b.pairOf t) with
    | error err => rfl
    | ok ys =>
      simp only [Except.map, bind, Except.bind, pure, Except.pure, ← List.foldl_append]
      have hfst : ((((l.filter (·.isDirectory)).map fun e => (e.relative, FileRecord.directory)) ++ ys).map
          Prod.fst) = (l.filter (·.isDirectory) ++ l.filter fun e => !e.isDirectory).map (·.relative) := by
        rw [List.map_append, map_fst_of_mapM_pairOf hF, List.map_append, List.map_map]
        rfl
      have hperm : (l.filter (·.isDirectory) ++ l.filter fun e => !e.isDirectory).Perm l :=
        List.perm_append_comm.trans (List.Perm.of_eq hl)
      have hnd : ((((l.filter (·.isDirectory)).map fun e => (e.relative, FileRecord.directory)) ++ ys).map
          fun x => catalogKey x.1).Nodup := by
        have hmap := congrArg (List.map catalogKey) hfst
        simp only [List.map_map, Function.comp_def] at hmap
        rw [hmap]
        exact (hperm.map _).nodup_iff.mpr hkeys
      exact congrArg (fun c => Except.ok (CatalogSet.empty.add target.syncPath c))
        (PathCatalog.ofList_perm List.perm_append_comm hnd)

/-- The build's catalog of a target is the walk's: both succeed or both fail
with one error, and the catalogs agree, spellings included. -/
theorem walk_agrees_with_build {target : CatalogTarget} (hbase : target.base = none ∨ target.base = some b.base)
    (hdistinct : ∀ l, b.scan t target.syncPath target.matcher = .ok l →
      (l.map fun e => catalogKey e.relative).Nodup) :
    (b.build t [target]).map (·.get target.syncPath) = (b.walk t target.syncPath target.matcher).map some := by
  rw [build_single_eq_walk hbase hdistinct]
  cases b.walk t target.syncPath target.matcher with
  | error err => rfl
  | ok c => simp only [Except.map, CatalogSet.get_add, if_true]

end CatalogBuilder

/-! ## Two spellings of one directory -/

/-- A tree holding `mods` with two empty directories whose names differ in case. -/
def caseTwins : FileTree := ⟨[(["mods"], .dir), (["mods", "X"], .dir), (["mods", "x"], .dir)]⟩

/-- A builder at the root of the tree. -/
def rootBuilder : CatalogBuilder := { base := ⟨nativeOf []⟩ }

/-- A builder whose base is `mods`. -/
def modsBuilder : CatalogBuilder := { base := ⟨nativeOf ["mods"]⟩ }

/-- A matcher at the root with no patterns. -/
def noExclusions : ExclusionMatcher := ⟨⟨nativeOf []⟩, []⟩

theorem caseTwins_wf : caseTwins.WF := by decide

theorem caseTwins_dir {D : List String} (hD : D ∈ [["mods"], ["mods", "X"], ["mods", "x"]]) :
    caseTwins.metadata (nativeOf D) = .ok .dir ∧ caseTwins.symlinkMetadata (nativeOf D) = .ok .dir ∧
      caseTwins.resolve (nativeOf D) true = .ok D := by
  simp only [List.mem_cons, List.not_mem_nil, or_false] at hD
  have hplain : ∀ n ∈ D, PlainName n := by
    rcases hD with rfl | rfl | rfl <;> decide
  have hnf : ∀ k < D.length, ∀ d, caseTwins.find? (D.take k) ≠ some (.file d) := by
    intro k hk d
    rcases hD with rfl | rfl | rfl <;>
      simp only [List.length_cons, List.length_nil] at hk <;> interval_cases k <;> simp [caseTwins, FileTree.find?]
  have hf : caseTwins.find? D = some .dir := by
    rcases hD with rfl | rfl | rfl <;> rfl
  exact ⟨caseTwins_wf.metadata_nativeOf_dir hplain hnf hf, caseTwins_wf.symlinkMetadata_nativeOf_dir hplain hnf hf,
    caseTwins_wf.resolve_nativeOf_of_some hplain hnf true hf⟩

namespace CatalogBuilder

/-- Both directories are empty, so the scan of `mods` reports two markers,
the newer `mods/x` first. -/
theorem scan_caseTwins_mods : rootBuilder.scan caseTwins "mods" noExclusions =
    .ok [⟨"mods/x", "$ROOT/mods/x", true⟩, ⟨"mods/X", "$ROOT/mods/X", true⟩] := by
  have hs : Path.sanitize "mods" = .ok "mods" := by decide
  have hj : (⟨nativeOf []⟩ : NormalPath).join (keyOf ["mods"]) = ⟨nativeOf ["mods"]⟩ :=
    join_nativeOf (by simp) (by decide) (by simp)
  have hk : keyOf ["mods"] = "mods" := by decide
  have hn : nativeOf ["mods"] = "$ROOT/mods" := by decide
  rw [hk, hn] at hj
  obtain ⟨hm, hl, hr⟩ := caseTwins_dir (D := ["mods"]) (by simp)
  rw [hn] at hm hl hr
  have hx : noExclusions.excludesTree ⟨"$ROOT/mods"⟩ = false := by cbv
  have hc : caseTwins.childNames ["mods"] = ["x", "X"] := by cbv
  have hcX : caseTwins.childNames ["mods", "X"] = [] := by cbv
  have hcx : caseTwins.childNames ["mods", "x"] = [] := by cbv
  have hpX : "$ROOT/mods" ++ "/" ++ "X" = "$ROOT/mods/X" := by decide
  have hpx : "$ROOT/mods" ++ "/" ++ "x" = "$ROOT/mods/x" := by decide
  have hfX : caseTwins.find? ["mods", "X"] = some .dir := rfl
  have hfx : caseTwins.find? ["mods", "x"] = some .dir := rfl
  have hkX : noExclusions.matchesPath (NormalPath.ofString "$ROOT/mods/X") = false := by cbv
  have hkx : noExclusions.matchesPath (NormalPath.ofString "$ROOT/mods/x") = false := by cbv
  have hlen : caseTwins.entries.length = 3 := rfl
  simp only [scan, rootBuilder, hs, Except.mapError, bind, Except.bind, hj, hx, pure,
    Except.pure, Bool.false_eq_true, if_false, hm, hl, hr, walkBelow, hc, hcX, hcx, List.flatMap_cons,
    List.flatMap_nil, List.cons_append, List.nil_append, List.append_nil, hpX, hpx, hfX, hfx, hkX, hkx, hlen,
    Bool.not_false]
  rfl

theorem scan_caseTwins_leaf : rootBuilder.scan caseTwins "mods/X" noExclusions =
    .ok [⟨"mods/X", "$ROOT/mods/X", true⟩] := by
  have hs : Path.sanitize "mods/X" = .ok "mods/X" := by decide
  have hj : (⟨nativeOf []⟩ : NormalPath).join (keyOf ["mods", "X"]) = ⟨nativeOf ["mods", "X"]⟩ :=
    join_nativeOf (by simp) (by decide) (by simp)
  have hk : keyOf ["mods", "X"] = "mods/X" := by decide
  have hn : nativeOf ["mods", "X"] = "$ROOT/mods/X" := by decide
  rw [hk, hn] at hj
  obtain ⟨hm, hl, hr⟩ := caseTwins_dir (D := ["mods", "X"]) (by simp)
  rw [hn] at hm hl hr
  have hx : noExclusions.excludesTree ⟨"$ROOT/mods/X"⟩ = false := by cbv
  have hcX : caseTwins.childNames ["mods", "X"] = [] := by cbv
  have hlen : caseTwins.entries.length = 3 := rfl
  simp only [scan, rootBuilder, hs, Except.mapError, bind, Except.bind, hj, hx, pure,
    Except.pure, Bool.false_eq_true, if_false, hm, hl, hr, walkBelow, hcX, List.flatMap_nil, hlen]
  rfl

theorem scan_caseTwins_below_mods : modsBuilder.scan caseTwins "mods/X" noExclusions = .ok [] := by
  have hs : Path.sanitize "mods/X" = .ok "mods/X" := by decide
  have hplain : ∀ n ∈ ["mods", "mods", "X"], PlainName n := by decide
  have hj : (⟨nativeOf ["mods"]⟩ : NormalPath).join (keyOf ["mods", "X"]) = ⟨nativeOf ["mods", "mods", "X"]⟩ :=
    join_nativeOf (by decide) (by decide) (by simp)
  have hk : keyOf ["mods", "X"] = "mods/X" := by decide
  rw [hk] at hj
  have hnf : ∀ k < ["mods", "mods", "X"].length, ∀ d,
      caseTwins.find? (["mods", "mods", "X"].take k) ≠ some (.file d) := by
    intro k hk d
    simp only [List.length_cons, List.length_nil] at hk
    interval_cases k <;> simp [caseTwins, FileTree.find?, List.lookup]
  have hm : caseTwins.metadata (nativeOf ["mods", "mods", "X"]) = .error (.os ENOENT) :=
    caseTwins_wf.metadata_nativeOf_none hplain hnf rfl
  have hx : noExclusions.excludesTree ⟨nativeOf ["mods", "mods", "X"]⟩ = false := by cbv
  simp only [scan, modsBuilder, hs, Except.mapError, bind, Except.bind, hj, hx, Bool.false_eq_true, if_false, hm]
  rfl

/-- A target without a base of its own, whose scan reports one entry, is
walked and built alike. -/
theorem walk_agrees_with_build_leaf :
    (rootBuilder.build caseTwins [⟨"mods/X", noExclusions, none⟩]).map (·.get "mods/X") =
      (rootBuilder.walk caseTwins "mods/X" noExclusions).map some := by
  have hdistinct : ∀ l, rootBuilder.scan caseTwins "mods/X" noExclusions = .ok l →
      (l.map fun e => catalogKey e.relative).Nodup := fun l hl => by
    rw [scan_caseTwins_leaf] at hl
    cases hl
    decide
  exact @walk_agrees_with_build rootBuilder caseTwins ⟨"mods/X", noExclusions, none⟩ (Or.inl rfl) hdistinct

/-- The walk and the build part without either condition. A target based at
`mods` is built there, where `mods/X` is missing, but walked below the root;
and the scan of `mods` reports `mods/x`, then `mods/X`, one class: the walk
stores the later spelling over the first, the build keeps the first. -/
theorem walk_departs_from_build :
    (rootBuilder.walk caseTwins "mods/X" noExclusions = .ok (PathCatalog.ofList [("mods/X", .directory)]) ∧
      (rootBuilder.build caseTwins [⟨"mods/X", noExclusions, some ⟨nativeOf ["mods"]⟩⟩]).map (·.get "mods/X") =
        .ok (some PathCatalog.empty) ∧
      PathCatalog.ofList [("mods/X", .directory)] ≠ PathCatalog.empty) ∧
    (rootBuilder.walk caseTwins "mods" noExclusions = .ok (PathCatalog.ofList [("mods/X", .directory)]) ∧
      (rootBuilder.build caseTwins [⟨"mods", noExclusions, none⟩]).map (·.get "mods") =
        .ok (some (PathCatalog.ofList [("mods/x", .directory)])) ∧
      PathCatalog.ofList [("mods/X", .directory)] ≠ PathCatalog.ofList [("mods/x", .directory)]) := by
  refine ⟨⟨?_, ?_, by decide⟩, ⟨?_, ?_, by decide⟩⟩
  · rw [walk_eq, scan_caseTwins_leaf]
    decide
  · have hfor : rootBuilder.forTarget ⟨"mods/X", noExclusions, some ⟨nativeOf ["mods"]⟩⟩ = modsBuilder := rfl
    rw [build_singleton, hfor, scan_caseTwins_below_mods]
    decide
  · rw [walk_eq, scan_caseTwins_mods]
    decide
  · rw [build_singleton]
    simp only [forTarget, scan_caseTwins_mods]
    decide

end CatalogBuilder

end ModMirror
