import ModMirror.Proofs.Fetchable

/-!
# Sync path lists: identity and serving order

A sync path has two names. Its *key* folds the path as written, trailing
separators dropped; its *location* is what `sanitize` makes of it, `.`, `..`
and empty segments resolved. Validation keeps the keys of a list distinct.
For every path validation accepts, the key is the catalog key of the path,
so a catalog set keeps one slot per accepted sync path; when the path is
written in clean form, the key is also the folded location:

    validateSyncPaths specs exclusions = .ok () →
      ∀ s ∈ specs, s.key = catalogKey s.path ∧ (loc = cleanKeyPath s.path → s.key = foldKey loc)
                                                  (validateSyncPaths_location_identity)

A path such as `./a` has the location of `a` and another key, so both pass
together.

The server lists the built-in paths first, then the configured ones sorted
stably by decreasing length in bytes. For configured paths in canonical
form (sanitized already, and as long folded as written) a longer location
never lies above a shorter one, so a nested path comes before its parent:

    c.resolvedSyncPaths = builtinSyncPaths ++ user, user sorted longest first,
      a before b in user → a, b canonical → b is not nested in a
                                                  (resolvedSyncPaths_nested_first)

A configured path below a built-in one comes after it, and so does a path
below a parent spelled `./a`, as long as it in bytes
(`resolvedSyncPaths_parent_before_nested`).
-/

namespace ModMirror

open Text

/-! ## Keys and locations -/

namespace SyncPathSpec

/-- A path the sanitizer accepts is keyed as a catalog keys it: it does not
start with a separator, so trimming its end trims both of its ends. -/
theorem key_eq_catalogKey {s : SyncPathSpec} {loc : String} (h : Path.sanitize s.path = .ok loc) :
    s.key = catalogKey s.path := by
  have hhead : (unifySlashes s.path.toList).head? ≠ some '/' := by
    intro hh
    obtain ⟨cs, hcs⟩ := List.head?_eq_some_iff.mp hh
    exact splitRoot_slash_ne_none cs (hcs ▸ splitRoot_none_of_sanitize h)
  rw [← s.foldKey_unified, catalogKey, cleanKeyPath, trimBoth, trimStart_of_head hhead, String.toList_ofList]

theorem sanitize_of_validateLocation {s : SyncPathSpec} {loc : String} (h : s.validateLocation = .ok loc) :
    Path.sanitize s.path = .ok loc := by
  unfold validateLocation at h
  cases hs : Path.sanitize s.path with
  | ok p =>
    rw [hs] at h
    exact congrArg Except.ok (Except.ok.inj h)
  | error e =>
    rw [hs] at h
    cases e <;> cases h

end SyncPathSpec

/-! ## What validation keeps -/

/-- A fold that accepts a spec only with a new key and an accepted location
accepts a list whose locations are all accepted and whose keys are distinct
and unseen. -/
theorem foldlM_fresh_keys {f : List String → SyncPathSpec → Except SyncError (List String)}
    (hf : ∀ seen s r, f seen s = .ok r → r = s.key :: seen ∧ s.key ∉ seen ∧ ∃ loc, Path.sanitize s.path = .ok loc) :
    ∀ (specs : List SyncPathSpec) (seen r : List String), specs.foldlM f seen = .ok r →
      (∀ s ∈ specs, (∃ loc, Path.sanitize s.path = .ok loc) ∧ s.key ∉ seen) ∧ (specs.map SyncPathSpec.key).Nodup
  | [], _, _, _ => by simp
  | s :: rest, seen, r, h => by
    rw [List.foldlM_cons] at h
    cases hs : f seen s with
    | error e => simp [hs, bind, Except.bind] at h
    | ok r₁ =>
      simp only [hs, bind, Except.bind] at h
      obtain ⟨rfl, hnew, hloc⟩ := hf seen s r₁ hs
      obtain ⟨hrest, hnd⟩ := foldlM_fresh_keys hf rest _ r h
      refine ⟨fun x hx => ?_, ?_⟩
      · rcases List.mem_cons.mp hx with rfl | hx
        · exact ⟨hloc, hnew⟩
        · exact ⟨(hrest x hx).1, fun hxs => (hrest x hx).2 (List.mem_cons_of_mem _ hxs)⟩
      · -- the head's key went into the seen list, which no later key meets
        rw [List.map_cons, List.nodup_cons]
        refine ⟨fun hmem => ?_, hnd⟩
        obtain ⟨x, hx, hkey⟩ := List.mem_map.mp hmem
        exact (hrest x hx).2 (by rw [hkey]; exact List.mem_cons_self)

theorem validateSyncPaths_ok {specs : List SyncPathSpec} {exclusions : List String}
    (h : validateSyncPaths specs exclusions = .ok ()) :
    (∀ s ∈ specs, ∃ loc, Path.sanitize s.path = .ok loc) ∧ (specs.map SyncPathSpec.key).Nodup := by
  unfold validateSyncPaths at h
  simp only [bind, Except.bind] at h
  split at h
  · cases h
  split at h
  · cases h
  rename_i r hfold
  -- one step of the fold: the location, the name, the key and the exclusions, in that order
  have hstep := foldlM_fresh_keys (fun seen s r hr => by
    cases hloc : s.validateLocation with
    | error e => simp [hloc] at hr
    | ok loc =>
      simp only [hloc] at hr
      split at hr
      · cases hr
      split at hr
      · cases hr
      split at hr
      · cases hr
      rename_i hseen _
      simp only [pure, Except.pure, Except.ok.injEq] at hr
      exact ⟨hr.symm, by simpa using hseen, loc, SyncPathSpec.sanitize_of_validateLocation hloc⟩) specs [] r hfold
  exact ⟨fun s hs => (hstep.1 s hs).1, hstep.2⟩

/-- **Sync path identity on an accepted list.** Every key is the catalog key
of the path, so no two accepted sync paths share a slot of a catalog set.
Where a path is written in clean form (its location is its clean key path),
the key is the folded location, and two such paths have distinct folded
locations. -/
theorem validateSyncPaths_location_identity {specs : List SyncPathSpec} {exclusions : List String}
    (h : validateSyncPaths specs exclusions = .ok ()) :
    (∀ s ∈ specs, s.key = catalogKey s.path ∧
      ∃ loc, s.validateLocation = .ok loc ∧ (loc = cleanKeyPath s.path → s.key = Path.foldKey loc)) ∧
    specs.Pairwise fun a b => a.key ≠ b.key ∧ ∀ la lb, a.validateLocation = .ok la → b.validateLocation = .ok lb →
      la = cleanKeyPath a.path → lb = cleanKeyPath b.path → Path.foldKey la ≠ Path.foldKey lb := by
  obtain ⟨hloc, hnd⟩ := validateSyncPaths_ok h
  have hkey : ∀ s ∈ specs, s.key = catalogKey s.path := fun s hs => by
    obtain ⟨loc, hl⟩ := hloc s hs
    exact SyncPathSpec.key_eq_catalogKey hl
  have hfold : ∀ s ∈ specs, ∀ loc, loc = cleanKeyPath s.path → s.key = Path.foldKey loc := by
    rintro s hs loc rfl
    rw [hkey s hs, catalogKey]
  refine ⟨fun s hs => ⟨hkey s hs, ?_⟩, ?_⟩
  · obtain ⟨loc, hl⟩ := hloc s hs
    refine ⟨loc, ?_, hfold s hs loc⟩
    simp [SyncPathSpec.validateLocation, hl]
  · have hpair : specs.Pairwise fun a b => a.key ≠ b.key := List.pairwise_map.mp hnd
    refine List.Pairwise.imp_of_mem (fun {a b} ha hb hab => ⟨hab, ?_⟩) hpair
    intro la lb _ _ hla hlb
    rw [← hfold a ha la hla, ← hfold b hb lb hlb]
    exact hab

/-- Two sync paths written with backslashes and a trailing separator pass,
keyed by their folded clean locations. -/
theorem validateSyncPaths_location_identity_plugins :
    validateSyncPaths [{ path := "BepInEx\\plugins\\" }, { path := "user/mods" }] [] = .ok () ∧
    ((∀ s ∈ ([{ path := "BepInEx\\plugins\\" }, { path := "user/mods" }] : List SyncPathSpec),
      s.key = catalogKey s.path ∧
        ∃ loc, s.validateLocation = .ok loc ∧ (loc = cleanKeyPath s.path → s.key = Path.foldKey loc)) ∧
    ([{ path := "BepInEx\\plugins\\" }, { path := "user/mods" }] : List SyncPathSpec).Pairwise
      fun a b => a.key ≠ b.key ∧ ∀ la lb, a.validateLocation = .ok la → b.validateLocation = .ok lb →
        la = cleanKeyPath a.path → lb = cleanKeyPath b.path → Path.foldKey la ≠ Path.foldKey lb) :=
  have h : validateSyncPaths [{ path := "BepInEx\\plugins\\" }, { path := "user/mods" }] [] = .ok () := by decide
  ⟨h, validateSyncPaths_location_identity h⟩

/-! ## The order the server lists its sync paths in -/

namespace SyncPathSpec

/-- The location of `a` lies strictly below that of `b`, both sanitized and
case-folded: `b` is a proper ancestor of `a`. -/
def nestedIn (a b : SyncPathSpec) : Bool :=
  match Path.sanitize a.path, Path.sanitize b.path with
  | .ok la, .ok lb => (Path.foldKey lb ++ "/").toList.isPrefixOf (Path.foldKey la).toList
  | _, _ => false

/-- Written in canonical form: the sanitizer leaves the path as it is, and
case folding keeps its length in bytes (as it does for ASCII). -/
def Canonical (s : SyncPathSpec) : Prop :=
  Path.sanitize s.path = .ok s.path ∧ (Path.foldKey s.path).utf8ByteSize = s.path.utf8ByteSize

theorem Canonical.size_lt_of_nestedIn {a b : SyncPathSpec} (ha : a.Canonical) (hb : b.Canonical)
    (h : a.nestedIn b = true) : b.path.utf8ByteSize < a.path.utf8ByteSize := by
  obtain ⟨ha, hasz⟩ := ha
  obtain ⟨hb, hbsz⟩ := hb
  simp only [nestedIn, ha, hb, List.isPrefixOf_iff_prefix] at h
  obtain ⟨rest, hrest⟩ := h
  -- the folded `a` is the folded `b`, a separator, and more
  have hsplit : Path.foldKey a.path = Path.foldKey b.path ++ "/" ++ String.ofList rest :=
    String.toList_inj.mp (by simp [← hrest])
  have hsz := congrArg String.utf8ByteSize hsplit
  have hslash : "/".utf8ByteSize = 1 := by decide
  rw [String.utf8ByteSize_append, String.utf8ByteSize_append, hslash] at hsz
  omega

end SyncPathSpec

namespace ServerConfig

/-- **Nested sync paths are listed before their parents.** The served list is
the built-in paths, then the configured ones sorted longest first (in bytes);
of two configured paths in canonical form, the later one is never nested in
the earlier. -/
theorem resolvedSyncPaths_nested_first (c : ServerConfig) :
    ∃ user, c.resolvedSyncPaths = builtinSyncPaths ++ user ∧ user.Perm (c.syncPaths.map SyncPathEntry.toSpec) ∧
      user.Pairwise fun a b => b.path.utf8ByteSize ≤ a.path.utf8ByteSize ∧
        (a.Canonical → b.Canonical → b.nestedIn a = false) := by
  refine ⟨_, rfl, List.mergeSort_perm _ _, ?_⟩
  have hsorted := List.pairwise_mergeSort
    (fun (a b c : SyncPathSpec) (hab : decide (b.path.utf8ByteSize ≤ a.path.utf8ByteSize) = true)
      (hbc : decide (c.path.utf8ByteSize ≤ b.path.utf8ByteSize) = true) => by
        simp only [decide_eq_true_eq] at hab hbc ⊢
        omega)
    (fun (a b : SyncPathSpec) => by
      simp only [Bool.or_eq_true, decide_eq_true_eq]
      omega)
    (c.syncPaths.map SyncPathEntry.toSpec)
  refine hsorted.imp fun {a b} hab => ?_
  simp only [decide_eq_true_eq] at hab
  refine ⟨hab, fun ha hb => Bool.eq_false_iff.mpr fun hn => ?_⟩
  have := SyncPathSpec.Canonical.size_lt_of_nestedIn hb ha hn
  omega

example : (({ syncPaths := [.bare "a", .bare "a/b"], exclusions := [] } : ServerConfig).resolvedSyncPaths.map
    (·.path)) = [updaterPath, pluginPath, "a/b", "a"] := by cbv

/-- With the default overlay and bind address, a configuration is valid as
soon as the sync paths it serves are. -/
theorem validate_of_syncPaths {c : ServerConfig} (hov : c.overlay = {}) (hbind : c.bind = defaultBind)
    (h : validateSyncPaths c.resolvedSyncPaths c.exclusions = .ok ()) : c.validate = .ok () := by
  have hb : Net.isSocketAddr defaultBind = true := by decide
  have hseed : Path.validateIdentifier "DefaultPlugins" = .ok () := by decide
  have hroot : Path.sanitize "RemotePlugins" = .ok "RemotePlugins" := by decide
  simp [validate, h, hov, hbind, hb, hseed, hroot, pure, Except.pure]

/-- A configuration with one path below the built-in updater path. -/
def underUpdater : ServerConfig := { syncPaths := [.bare "ModSync.Updater.exe/x"], exclusions := [] }

/-- The built-in paths come first whatever is configured: a valid
configuration with a path below the updater lists the updater first. -/
theorem resolvedSyncPaths_builtin_parent_first :
    underUpdater.validate = .ok () ∧
      ¬ underUpdater.resolvedSyncPaths.Pairwise fun a b => b.nestedIn a = false := by
  have hres : underUpdater.resolvedSyncPaths =
      builtinSyncPaths ++ [{ SyncPathSpec.ofPath "ModSync.Updater.exe/x" with enforced := true }] := by cbv
  constructor
  · exact validate_of_syncPaths rfl rfl (by rw [hres]; decide)
  · -- the updater, listed first, is a proper ancestor of the configured path
    rw [hres]
    decide

/-- A configuration that spells a parent `./a` ahead of its child `a/b`. -/
def dottedParent : ServerConfig := { syncPaths := [.bare "./a", .bare "a/b"], exclusions := [] }

/-- A parent spelled with a `.` segment is as long as its child, so the
stable sort keeps the order as configured: `./a` is listed before `a/b`. -/
theorem resolvedSyncPaths_dotted_parent_first :
    dottedParent.validate = .ok () ∧
      ¬ dottedParent.resolvedSyncPaths.Pairwise fun a b => b.nestedIn a = false := by
  have hres : dottedParent.resolvedSyncPaths =
      builtinSyncPaths ++ [{ SyncPathSpec.ofPath "./a" with enforced := true },
        { SyncPathSpec.ofPath "a/b" with enforced := true }] := by cbv
  constructor
  · exact validate_of_syncPaths rfl rfl (by rw [hres]; decide)
  · rw [hres]
    decide

/-- Both ways a valid configuration lists a parent before a path nested in
it: a built-in parent, and a configured parent written with a `.` segment. -/
theorem resolvedSyncPaths_parent_before_nested :
    (underUpdater.validate = .ok () ∧
      ¬ underUpdater.resolvedSyncPaths.Pairwise fun a b => b.nestedIn a = false) ∧
    (dottedParent.validate = .ok () ∧
      ¬ dottedParent.resolvedSyncPaths.Pairwise fun a b => b.nestedIn a = false) :=
  ⟨resolvedSyncPaths_builtin_parent_first, resolvedSyncPaths_dotted_parent_first⟩

end ServerConfig

end ModMirror
