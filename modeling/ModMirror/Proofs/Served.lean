import ModMirror.Server.Service
import ModMirror.Sync.Settings
import ModMirror.Proofs.Build
import ModMirror.Proofs.Write

/-!
# What the catalog service serves

A client asks the service for the catalogs of its enabled sync paths, by
their path texts with backslashes read as slashes. The service compares what
it is asked for with its own specs by folded key, trailing slashes ignored,
so every enabled spec is chosen and the build records a catalog for it:

    s.catalog (some requested) identity t = (.ok set, t') →
      ∀ spec enabled, (set.get spec.path).isSome
-/

namespace ModMirror

open Text

/-! ## Request keys -/

theorem slashOf_eq_slash (c : Char) : slashOf c = '/' ↔ c = '/' ∨ c = '\\' := by
  unfold slashOf
  split <;> simp_all

theorem backslash_not_mem_unifySlashes (cs : List Char) : '\\' ∉ unifySlashes cs := by
  rw [unifySlashes_eq_map, List.mem_map]
  rintro ⟨c, -, hc⟩
  unfold slashOf at hc
  split at hc <;> simp_all

theorem mem_of_mem_trimEnd {c x : Char} {cs : List Char} (h : x ∈ trimEnd c cs) : x ∈ cs :=
  List.mem_reverse.mp ((List.dropWhile_sublist _).subset (List.mem_reverse.mp h))

theorem unifySlashes_trimSeparators (cs : List Char) :
    unifySlashes ((cs.reverse.dropWhile fun c => decide (c = '/' ∨ c = '\\')).reverse) =
      trimEnd '/' (unifySlashes cs) := by
  have hp : (fun c => decide (c = '/' ∨ c = '\\')) = (fun c => decide (c = '/')) ∘ slashOf := by
    funext c
    simp [slashOf_eq_slash]
  rw [unifySlashes_eq_map, unifySlashes_eq_map, trimEnd, List.map_reverse, hp, ← List.dropWhile_map,
    List.map_reverse]

/-- The path of a spec as a client sends it folds, trailing slashes ignored,
to the key of the spec. -/
theorem SyncPathSpec.foldKey_unified (spec : SyncPathSpec) :
    Path.foldKey (String.ofList (trimEnd '/' (String.ofList (unifySlashes spec.path.toList)).toList)) =
      spec.key := by
  -- the spec key trims backslashes too, so both sides are the trimmed unified text
  have hno : '\\' ∉ trimEnd '/' (unifySlashes spec.path.toList) := fun h =>
    backslash_not_mem_unifySlashes _ (mem_of_mem_trimEnd h)
  unfold SyncPathSpec.key Path.foldKey
  rw [String.toList_ofList, String.toList_ofList, String.toList_ofList, unifySlashes_trimSeparators,
    unifySlashes_of_no_backslash hno]

/-! ## Chosen specs and successful catalogs -/

namespace CatalogService

theorem mem_chosen {s : CatalogService} {requested : Option (List String)} {spec : SyncPathSpec} :
    spec ∈ s.chosen requested ↔ spec ∈ s.specs ∧ ∀ ps, requested = some ps →
      spec.enforced = true ∨ ∃ p ∈ ps, Path.foldKey (String.ofList (trimEnd '/' p.toList)) = spec.key := by
  unfold chosen
  rw [List.mem_filter]
  cases requested with
  | none => simp only [Option.map_none, and_true, reduceCtorEq, false_imp_iff, implies_true]
  | some ps =>
    simp only [Option.map_some, Bool.or_eq_true, List.contains_iff_mem, List.mem_map, Option.some.injEq,
      forall_eq']

@[simp] theorem targetFor_syncPath (s : CatalogService) (t : FileTree) (overlay : Option NormalPath)
    (spec : SyncPathSpec) : (s.targetFor t overlay spec).syncPath = spec.path := by
  unfold targetFor
  split
  · split <;> rfl
  · rfl

/-- A successful catalog provisioned the overlay and built the chosen targets
on the files that provisioning left. -/
theorem catalog_ok {s : CatalogService} {requested : Option (List String)} {identity : Option String}
    {t t' : FileTree} {set : CatalogSet} (h : s.catalog requested identity t = (.ok set, t')) :
    ∃ overlay, s.overlayOf identity t = .ok (overlay, t') ∧
      ({ base := s.root } : CatalogBuilder).build t' ((s.chosen requested).map (s.targetFor t' overlay)) =
        .ok set := by
  unfold catalog at h
  split at h
  · cases h
  · rename_i overlay t₁ hov
    simp only [Prod.mk.injEq] at h
    obtain ⟨hb, rfl⟩ := h
    exact ⟨overlay, hov, mapError_eq_ok.mp hb⟩

end CatalogService

theorem CatalogBuilder.build_get_isSome {b : CatalogBuilder} {t : FileTree} {targets : List CatalogTarget}
    {loc : CatalogSet} (h : b.build t targets = .ok loc) {target : CatalogTarget} (ht : target ∈ targets) :
    (loc.get target.syncPath).isSome := by
  obtain ⟨catalogs, hrel, rfl⟩ := CatalogBuilder.build_ok h
  have hfst : catalogs.map Prod.fst = targets := map_fst_of_forall₂ (fun _ _ h => h.1) hrel
  rw [← hfst, List.mem_map] at ht
  obtain ⟨x, hx, rfl⟩ := ht
  rw [CatalogSet.get_foldl_add catalogs (fun x => x.1.syncPath) Prod.snd]
  have hne : (catalogs.filter fun y => catalogKey y.1.syncPath = catalogKey x.1.syncPath) ≠ [] :=
    List.ne_nil_of_mem (List.mem_filter.mpr ⟨hx, by simp⟩)
  obtain ⟨y, hy⟩ := Option.isSome_iff_exists.mp (List.getLast?_isSome.mpr hne)
  rw [hy]
  rfl

/-! ## Every enabled sync path gets its catalog -/

/-- **Enabled paths are covered.** When the service answers the paths of the
enabled specs, as a client sends them, its catalog set holds a catalog for
each of those specs, whatever the identity and the files. -/
theorem catalog_covers_enabled (s : CatalogService) (settings : ClientSettings) (identity : Option String)
    (t t' : FileTree) (set : CatalogSet)
    (h : s.catalog (some ((s.specs.filter settings.isEnabled).map fun spec =>
      String.ofList (unifySlashes spec.path.toList))) identity t = (.ok set, t')) :
    ∀ spec ∈ s.specs.filter settings.isEnabled, (set.get spec.path).isSome := by
  intro spec hspec
  obtain ⟨overlay, -, hbuild⟩ := CatalogService.catalog_ok h
  have hchosen : spec ∈ s.chosen (some ((s.specs.filter settings.isEnabled).map fun spec =>
      String.ofList (unifySlashes spec.path.toList))) := by
    refine CatalogService.mem_chosen.mpr ⟨(List.mem_filter.mp hspec).1, ?_⟩
    rintro ps ⟨⟩
    exact .inr ⟨_, List.mem_map_of_mem hspec, spec.foldKey_unified⟩
  simpa using CatalogBuilder.build_get_isSome hbuild (List.mem_map_of_mem hchosen)

/-- A service with a plugin path written with backslashes and a trailing
separator, and an optional path that is off by default. -/
def pluginService : CatalogService :=
  { root := ⟨nativeOf ["server"]⟩, version := "1",
    specs := [{ path := "BepInEx\\plugins\\" }, { path := "config", enabled := false }],
    exclusionPatterns := [], exclusions := {},
    overlays := ⟨⟨nativeOf ["server", "RemotePlugins"]⟩, "default"⟩, fallbacks := { baseline := default } }

/-- Asked by default settings, the service catalogues the plugin path, which
has no files yet, under its cleaned spelling. -/
theorem catalog_covers_enabled_plugins :
    pluginService.catalog (some ((pluginService.specs.filter ({} : ClientSettings).isEnabled).map fun spec =>
        String.ofList (unifySlashes spec.path.toList))) none ⟨[(["server"], .dir)]⟩ =
      (.ok { slots := [("bepinex/plugins", { syncPath := "BepInEx/plugins", catalog := {} })] },
        ⟨[(["server"], .dir)]⟩) ∧
    ∀ spec ∈ pluginService.specs.filter ({} : ClientSettings).isEnabled,
      (CatalogSet.get { slots := [("bepinex/plugins", { syncPath := "BepInEx/plugins", catalog := {} })] }
        spec.path).isSome := by
  have hchosen : pluginService.chosen (some ((pluginService.specs.filter ({} : ClientSettings).isEnabled).map
      fun spec => String.ofList (unifySlashes spec.path.toList))) = [{ path := "BepInEx\\plugins\\" }] := by
    decide
  -- the walk of the tree is evaluated by cbv, the path texts by decide
  have hs : Path.sanitize "BepInEx\\plugins\\" = .ok "BepInEx/plugins" := by decide
  have hj : pluginService.root.join "BepInEx/plugins" = ⟨"$ROOT/server/BepInEx/plugins"⟩ := by decide
  have hx : (⟨pluginService.root, [pluginService.exclusions]⟩ : ExclusionMatcher).excludesTree
      ⟨"$ROOT/server/BepInEx/plugins"⟩ = false := by
    decide
  have hm : (FileTree.mk [(["server"], .dir)]).metadata "$ROOT/server/BepInEx/plugins" = .error (.os ENOENT) := by
    cbv
  have hscan : ({ base := pluginService.root } : CatalogBuilder).scan ⟨[(["server"], .dir)]⟩ "BepInEx\\plugins\\"
      ⟨pluginService.root, [pluginService.exclusions]⟩ = .ok [] := by
    simp [CatalogBuilder.scan, hs, hj, hx, hm, Except.mapError, bind, Except.bind, pure, Except.pure]
  have h : pluginService.catalog (some ((pluginService.specs.filter ({} : ClientSettings).isEnabled).map
      fun spec => String.ofList (unifySlashes spec.path.toList))) none ⟨[(["server"], .dir)]⟩ =
      (.ok { slots := [("bepinex/plugins", { syncPath := "BepInEx/plugins", catalog := {} })] },
        ⟨[(["server"], .dir)]⟩) := by
    simp [CatalogService.catalog, CatalogService.overlayOf, hchosen, CatalogService.targetFor,
      CatalogBuilder.build, CatalogBuilder.forTarget, hscan, bind, Except.bind, pure, Except.pure, Except.map]
    rfl
  exact ⟨h, catalog_covers_enabled _ _ _ _ _ _ h⟩

end ModMirror
