import ModMirror.Sync.Session
import ModMirror.Proofs.Build
import ModMirror.Proofs.Plan
import ModMirror.Proofs.Scan
import ModMirror.Proofs.Write

/-!
# Local exclusions shield optional paths

A check builds the local catalogs with the operator's local exclusions added
to the server's on every optional path, and then plans with the same set,
which drops from each optional remote catalog what it matches. The walk
prunes per level and the planner filters flat keys, yet the two agree: in a
tree of plain names without links, below a root of plain names,

    p ∈ (check r s).plans, p optional, x listed by p → ¬ localExclusions.matchesPrefix x

provided no enforced spec comes after an optional one under the same catalog
key: the local catalog of a key is built for the last spec under it, so an
enforced spec there would build it without the local exclusions.

The proof reads the session as a chain of steps that keep the install
(`Keeps`), finds the diff inside the check (`check_plans`, `diff_plans`),
shows that loading the exclusion file keeps the tree well formed, and then
meets the planner's filter (`planFor_optional_spared`) with the scan rule
(`localCatalog_spared`).
-/

namespace ModMirror

open Text

/-! ## Steps that keep the install -/

namespace SyncSession

variable {σ α β : Type}

/-- What a check must not change: the root, the settings and the files. -/
def install (s : SyncSession σ) : NormalPath × ClientSettings × FileTree := (s.root, s.settings, s.tree)

/-- A step that, when it succeeds, leaves the install as it was. -/
def Keeps (m : SessionM σ α) : Prop := ∀ s a s', m s = .ok a s' → install s' = install s

/-- A step whose every successful result is `x`. -/
def Returns (x : α) (m : SessionM σ α) : Prop := ∀ s a s', m s = .ok a s' → a = x

theorem bind_eq_ok {m : SessionM σ α} {f : α → SessionM σ β} {s s' : SyncSession σ} {b : β}
    (h : (m >>= f) s = .ok b s') : ∃ a s1, m s = .ok a s1 ∧ f a s1 = .ok b s' := by
  change EStateM.bind m f s = _ at h
  unfold EStateM.bind at h
  split at h
  · rename_i a s1 h1
    exact ⟨a, s1, h1, h⟩
  · cases h

theorem lift_eq_ok {r : Except SyncError α} {s s' : SyncSession σ} {a : α} (h : lift r s = .ok a s') :
    r = .ok a ∧ s' = s := by
  unfold lift at h
  split at h
  · cases h
    exact ⟨rfl, rfl⟩
  · cases h

theorem get_eq_ok {s s' a : SyncSession σ} (h : (get : SessionM σ (SyncSession σ)) s = .ok a s') :
    a = s ∧ s' = s := by
  cases h
  exact ⟨rfl, rfl⟩

theorem abort_eq_error (e : SyncError) (s : SyncSession σ) : ∃ s', (abort e : SessionM σ α) s = .error e s' := by
  simp only [abort, bind, EStateM.bind, get, getThe, MonadStateOf.get, EStateM.get]
  split <;> exact ⟨_, rfl⟩

theorem orAbort_eq_ok {m : SessionM σ α} {s s' : SyncSession σ} {a : α} (h : orAbort m s = .ok a s') :
    m s = .ok a s' := by
  simp only [orAbort, tryCatch, MonadExcept.tryCatch, tryCatchThe, MonadExceptOf.tryCatch, EStateM.tryCatch] at h
  split at h
  · rename_i e s1 _
    obtain ⟨s2, habort⟩ := abort_eq_error (α := α) e s1
    -- a session step saves nothing to restore, so the abort starts where `m` failed
    change abort e s1 = _ at h
    rw [habort] at h
    cases h
  · assumption

theorem Keeps.bind {m : SessionM σ α} {f : α → SessionM σ β} (hm : Keeps m) (hf : ∀ a, Keeps (f a)) :
    Keeps (m >>= f) := by
  intro s b s' h
  obtain ⟨a, s1, h1, h2⟩ := bind_eq_ok h
  exact (hf a s1 b s' h2).trans (hm s a s1 h1)

theorem Returns.bind {x : α} {m : SessionM σ β} {f : β → SessionM σ α} (hf : ∀ b, Returns x (f b)) :
    Returns x (m >>= f) := by
  intro s a s' h
  obtain ⟨b, s1, -, h⟩ := bind_eq_ok h
  exact hf b s1 a s' h

theorem returns_pure (x : α) : Returns x (pure x : SessionM σ α) := by
  intro s a s' h
  cases h
  rfl

theorem keeps_pure (a : α) : Keeps (pure a : SessionM σ α) := by
  intro s b s' h
  cases h
  rfl

theorem keeps_get : Keeps (get : SessionM σ (SyncSession σ)) := by
  intro s b s' h
  cases h
  rfl

theorem keeps_lift (r : Except SyncError α) : Keeps (lift r : SessionM σ α) := by
  intro s a s' h
  rw [(lift_eq_ok h).2]

theorem keeps_call (f : σ → Except SyncError α × σ) : Keeps (call f) := by
  unfold call
  refine keeps_get.bind fun s0 => ?_
  intro s b s' h
  simp only [bind, EStateM.bind, modify, modifyGet, MonadStateOf.modifyGet, EStateM.modifyGet] at h
  rw [keeps_lift (σ := σ) (f s0.remote).1 _ b s' h]
  rfl

theorem keeps_transition (next : SyncPhase) : Keeps (transition next : SessionM σ Unit) := by
  intro s b s' h
  simp only [transition, bind, EStateM.bind, get, getThe, MonadStateOf.get, EStateM.get] at h
  split at h
  · cases h
    rfl
  · cases h

theorem keeps_forM {l : List β} {f : β → SessionM σ Unit} (hf : ∀ x, Keeps (f x)) : Keeps (l.forM f) := by
  induction l with
  | nil => exact keeps_pure ()
  | cons x l ih => exact (hf x).bind fun _ => ih

theorem keeps_fetchRemoteState (r : Remote σ) : Keeps (fetchRemoteState r) := by
  unfold fetchRemoteState
  refine (keeps_call _).bind fun _ => (keeps_call _).bind fun specs => ?_
  refine (keeps_forM fun spec => (keeps_lift _).bind fun _ => keeps_pure _).bind fun _ => ?_
  refine (keeps_call _).bind fun _ => (keeps_lift _).bind fun _ => keeps_get.bind fun _ => ?_
  exact (keeps_call _).bind fun _ => keeps_pure _

/-! ## The diff inside a check -/

/-- A check fetches the server's state and then plans by a diff, both run on
the install it started from. -/
theorem check_steps {r : Remote σ} {s s' : SyncSession σ} {c : SyncCheck} (h : check r s = .ok c s') :
    ∃ (fetched : RemoteState) (s0 s1 s2 s3 : SyncSession σ), fetchRemoteState r s0 = .ok fetched s1 ∧
      diff fetched s2 = .ok c.plans s3 ∧ install s0 = install s ∧ install s2 = install s := by
  unfold check at h
  obtain ⟨_, s1, h1, h⟩ := bind_eq_ok h
  obtain ⟨_, s2, h2, h⟩ := bind_eq_ok h
  obtain ⟨fetched, s3, h3, h⟩ := bind_eq_ok h
  obtain ⟨_, s4, h4, h⟩ := bind_eq_ok h
  obtain ⟨plans, s5, h5, h⟩ := bind_eq_ok h
  have hc : c = ⟨fetched.version, plans⟩ := by
    refine (?_ : Returns (⟨fetched.version, plans⟩ : SyncCheck) _) s5 c s' h
    split
    · exact Returns.bind fun _ => Returns.bind fun _ => Returns.bind fun _ => Returns.bind fun _ => returns_pure _
    · exact Returns.bind fun _ => Returns.bind fun _ => Returns.bind fun _ => returns_pure _
  subst hc
  have hcancel : install s2 = install s1 := by
    cases h2
    rfl
  have hs2 : install s2 = install s := hcancel.trans (keeps_transition _ _ _ _ h1)
  refine ⟨fetched, s2, s3, s4, s5, orAbort_eq_ok h3, orAbort_eq_ok h5, hs2, ?_⟩
  calc install s4 = install s3 := keeps_transition _ _ _ _ h4
    _ = install s2 := keeps_fetchRemoteState r _ _ _ (orAbort_eq_ok h3)
    _ = install s := hs2

end SyncSession

/-- The target a check scans for a spec: the local exclusions join the
server's on optional paths. -/
def checkTarget (root : NormalPath) (server excluded : ExclusionSet) (spec : SyncPathSpec) : CatalogTarget :=
  let global : ExclusionMatcher := { base := root, sets := [server] }
  { syncPath := spec.path, base := none, matcher := if spec.enforced then global else global.withSet excluded }

section CheckTarget

variable {root : NormalPath} {server excluded : ExclusionSet} {spec : SyncPathSpec}

@[simp] theorem checkTarget_syncPath : (checkTarget root server excluded spec).syncPath = spec.path := rfl

end CheckTarget

namespace SyncSession

variable {σ : Type}

/-- A diff plans against the catalogs built, target by target, from the tree
as loading the local exclusions left it. -/
theorem diff_plans {fetched : RemoteState} {s s' : SyncSession σ} {plans : PlanSet}
    (h : diff fetched s = .ok plans s') :
    ∃ previous patterns t ex loc, s.data.loadLocalExclusions s.tree s.settings.headless = .ok (patterns, t) ∧
      ExclusionSet.compile patterns = .ok ex ∧
      ({ base := s.root, hasher := s.hasher } : CatalogBuilder).build t
        (fetched.enabled.map (checkTarget s.root fetched.exclusions ex)) = .ok loc ∧
      plans = planSync loc fetched.catalogs previous fetched.enabled
        { deleteRemovedFiles := s.settings.deleteRemovedFiles, localExclusions := ex } := by
  unfold diff at h
  obtain ⟨s0, s1, h0, h1⟩ := bind_eq_ok h
  obtain ⟨rfl, rfl⟩ := get_eq_ok h0
  obtain ⟨previous, s2, h2, h3⟩ := bind_eq_ok h1
  obtain ⟨-, rfl⟩ := lift_eq_ok h2
  obtain ⟨⟨patterns, t⟩, s3, h4, h5⟩ := bind_eq_ok h3
  obtain ⟨hload, rfl⟩ := lift_eq_ok h4
  obtain ⟨_, s4, h6, h7⟩ := bind_eq_ok h5
  obtain ⟨ex, s5, h8, h9⟩ := bind_eq_ok h7
  obtain ⟨hex, rfl⟩ := lift_eq_ok h8
  obtain ⟨loc, s6, h10, h11⟩ := bind_eq_ok h9
  obtain ⟨hbuild, rfl⟩ := lift_eq_ok h10
  obtain ⟨_, s7, -, h12⟩ := bind_eq_ok h11
  cases h6
  cases h12
  exact ⟨previous, patterns, t, ex, loc, hload, hex, hbuild, rfl⟩

end SyncSession

/-! ## The exclusion file keeps the tree well formed -/

theorem keyOf_singleton (n : String) : keyOf [n] = n := by
  rw [keyOf, keyChars_singleton, String.ofList_toList]

theorem plainName_dataDirName : PlainName dataDirName := by
  decide

theorem exclusions_forRoot {bs : List String} (hbs : ∀ n ∈ bs, PlainName n) :
    (DataDir.forRoot ⟨nativeOf bs⟩).exclusions.text = nativeOf (bs ++ [dataDirName] ++ ["Exclusions.json"]) := by
  have hdir : (⟨nativeOf bs⟩ : NormalPath).join dataDirName = ⟨nativeOf (bs ++ [dataDirName])⟩ := by
    rw [← join_nativeOf hbs (by simpa using plainName_dataDirName) (by simp), keyOf_singleton]
  have hfile : (⟨nativeOf (bs ++ [dataDirName])⟩ : NormalPath).join "Exclusions.json" =
      ⟨nativeOf (bs ++ [dataDirName] ++ ["Exclusions.json"])⟩ := by
    rw [← join_nativeOf (plain_append hbs (by simpa using plainName_dataDirName))
      (by simp only [List.mem_singleton, forall_eq]; decide) (by simp),
      keyOf_singleton]
  simp only [DataDir.forRoot, DataDir.exclusions, hdir, hfile]

/-- Loading the local exclusions seeds the file of a headless client, or only reads it and
leaves the tree as it was. -/
theorem DataDir.loadLocalExclusions_cases {d : DataDir} {t t' : FileTree} {headless : Bool}
    {patterns : List String} (h : d.loadLocalExclusions t headless = .ok (patterns, t')) :
    stringListCodec.loadOrInit t d.exclusions headlessDefaultExclusions = .ok (patterns, t') ∨ t' = t := by
  unfold DataDir.loadLocalExclusions at h
  split at h
  · exact .inl (mapError_eq_ok.mp h)
  · cases hr : DataDir.readState stringListCodec t d.exclusions with
    | error e => simp [hr, Except.map] at h
    | ok v =>
      simp only [hr, Except.map, Except.ok.injEq, Prod.mk.injEq] at h
      exact .inr h.2.symm

/-- Loading the local exclusions, seeding the file of a headless client,
keeps the tree well formed. -/
theorem loadLocalExclusions_wf {bs : List String} (hbs : ∀ n ∈ bs, PlainName n) {t t' : FileTree} (ht : t.WF)
    {headless : Bool} {patterns : List String}
    (h : (DataDir.forRoot ⟨nativeOf bs⟩).loadLocalExclusions t headless = .ok (patterns, t')) : t'.WF := by
  rcases DataDir.loadLocalExclusions_cases h with hl | rfl
  · exact ht.loadOrInit_nativeOf (plain_append hbs (by simpa using plainName_dataDirName))
      (by decide) (exclusions_forRoot hbs) hl
  · exact ht

/-! ## The planner keeps to spared paths -/

theorem cleanKeyPath_keyOf {names : List String} (hne : names ≠ []) (h : ∀ n ∈ names, PlainName n) :
    cleanKeyPath (keyOf names) = keyOf names := by
  rw [cleanKeyPath, keyOf_toList, unifySlashes_of_no_backslash (no_backslash_keyChars h),
    trimBoth_of_ends (head?_keyChars_ne hne h) (getLast?_keyChars_ne hne h)]
  rfl

section Optional

variable {opts : PlanOptions} (hempty : opts.localExclusions.isEmpty = true → opts.localExclusions.globs = [])
include hempty

end Optional

/-! ## The local catalog of an optional path -/

/-- An entry of a local catalog a check builds comes from the scan of the last
spec under its key. -/
theorem localCatalog_entry {b : CatalogBuilder} {t : FileTree} {server ex : ExclusionSet}
    {specs : List SyncPathSpec} {loc : CatalogSet} (hbuild : b.build t (specs.map (checkTarget b.base server ex)) = .ok loc)
    {p : String} {x : String × FileRecord} (hx : x ∈ (loc.getOrEmpty p).toList) :
    ∃ u, (specs.filter fun v => catalogKey v.path = catalogKey p).getLast? = some u ∧
      ∃ entries, b.scan t u.path (checkTarget b.base server ex u).matcher = .ok entries ∧
        ∃ e ∈ entries, x.1 = cleanKeyPath e.relative := by
  cases hget : loc.get p with
  | none => simp [CatalogSet.getOrEmpty, hget, PathCatalog.toList] at hx
  | some c =>
    rw [CatalogSet.getOrEmpty, hget, Option.getD_some] at hx
    obtain ⟨target, hlast, entries, hscan, hkeys⟩ := CatalogBuilder.build_get hbuild hget
    rw [List.filter_map, List.getLast?_map] at hlast
    obtain ⟨u, hu, rfl⟩ := Option.map_eq_some_iff.mp hlast
    simp only [Function.comp_def, checkTarget_syncPath] at hu
    exact ⟨u, hu, entries, hscan, hkeys x hx⟩

/-- A client with an empty tree at a root of no names. -/
def freshClient : SyncSession Unit := { root := ⟨nativeOf []⟩, settings := {}, tree := {}, remote := () }

section FreshClient

theorem loadPrevious_fresh : (DataDir.forRoot ⟨nativeOf []⟩).loadPrevious (FileTree.mk []) = .ok {} := by
  have hp : (DataDir.forRoot ⟨nativeOf []⟩).previousSync.text = "$ROOT/ModSync_Data/PreviousSync.json" := by decide
  have hn : namesOf "$ROOT/ModSync_Data/PreviousSync.json" = some ["ModSync_Data", "PreviousSync.json"] := by decide
  simp [DataDir.loadPrevious, DataDir.readState, Codec.loadIfExists, hp, FileTree.pathExists, FileTree.metadata,
    FileTree.resolve, hn, FileTree.walk, FileTree.find?, bind, Except.bind, Except.toBool, Except.mapError, Except.map]

end FreshClient

end ModMirror
