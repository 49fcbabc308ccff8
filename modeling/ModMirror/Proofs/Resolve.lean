import ModMirror.Proofs.Served
import ModMirror.Proofs.Scan
import ModMirror.Proofs.Session

/-!
# Where a served file lies

`resolveFile` turns a requested text into the file to send. Nothing is read
before the request is known to be servable: its sanitized form lies in a
sync path and is not excluded. The file is then that path below the root, or
below the overlay directory of the caller's identity, which `dirFor` accepts
only as one plain name other than the seed's:

    s.resolveFile r identity t = (.ok f, t') →
      f = (s.root.join c).text ∨ f = ((s.overlays.root.join id).join c).text
        where Path.sanitize r = .ok c

With a root of plain names and the overlay root that `ofConfig` places at a
sanitized path below it, both lie strictly below the root.
-/

namespace ModMirror

open Text

/-- An accepted identifier is a nonempty name that does not start with a dot
and holds no reserved character. -/
theorem validateIdentifier_ok {id : String} (h : Path.validateIdentifier id = .ok ()) :
    id.toList ≠ [] ∧ id.toList.head? ≠ some '.' ∧ ∀ c ∈ id.toList, Path.reservedInName c = false := by
  unfold Path.validateIdentifier at h
  split at h
  · cases h
  rename_i hnone
  unfold Path.identifierProblem at hnone
  dsimp only at hnone
  split_ifs at hnone with hempty hlong hdot hreserved hspace
  exact ⟨hempty, hdot, fun c hc => Bool.not_eq_true _ ▸ fun hr => hreserved (List.any_eq_true.mpr ⟨c, hc, hr⟩)⟩

theorem plainName_of_validateIdentifier {id : String} (h : Path.validateIdentifier id = .ok ()) :
    PlainName id := by
  obtain ⟨hempty, hdot, hreserved⟩ := validateIdentifier_ok h
  have hsep : ∀ c, c = '/' ∨ c = '\\' → c ∉ id.toList := fun c hc hm => by
    have := hreserved c hm
    rcases hc with rfl | rfl <;> simp [Path.reservedInName] at this
  refine ⟨hempty, ?_, ?_, hsep '/' (.inl rfl), hsep '\\' (.inr rfl)⟩
  · intro e
    simp [e] at hdot
  · intro e
    simp [e] at hdot

theorem nul_not_mem_of_validateIdentifier {id : String} (h : Path.validateIdentifier id = .ok ()) :
    '\x00' ∉ id.toList := fun hm => by
  have := (validateIdentifier_ok h).2.2 _ hm
  simp [Path.reservedInName] at this

namespace OverlayStore

theorem dirFor_ok {o : OverlayStore} {id : String} {dir : NormalPath} (h : o.dirFor id = .ok dir) :
    Path.validateIdentifier id = .ok () ∧ Path.foldKey id ≠ Path.foldKey o.seed ∧ dir = o.root.join id := by
  unfold dirFor at h
  split at h
  · cases h
  · rename_i hv
    split at h
    · cases h
    · rename_i hseed
      cases h
      exact ⟨hv, fun e => hseed (by simp [e]), rfl⟩

/-- A provisioning that succeeds found the directory of the identity already
there, or copied the seed into it, or, with no seed, made it empty. -/
theorem provision_eq_ok {o : OverlayStore} {id : String} {t t' : FileTree} {dir : NormalPath}
    (h : o.provision id t = .ok (dir, t')) :
    o.dirFor id = .ok dir ∧
      ((t.pathExists dir.text = true ∧ t' = t) ∨
        (t.pathExists dir.text = false ∧ t.isDir o.seedDir.text = true ∧
          ∃ k, t.copyDirAll o.seedDir.text dir.text = .ok (k, t')) ∨
        (t.pathExists dir.text = false ∧ t.isDir o.seedDir.text = false ∧ t.createDirAll dir.text = .ok t')) := by
  unfold provision at h
  cases hd : o.dirFor id with
  | error e => simp [hd, bind, Except.bind] at h
  | ok d =>
    cases hex : t.pathExists d.text
    · cases hdir : t.isDir o.seedDir.text
      · cases hc : t.createDirAll d.text with
        | error f => simp [hd, hex, hdir, hc, bind, Except.bind, Except.mapError] at h
        | ok t₁ =>
          simp [hd, hex, hdir, hc, bind, Except.bind, Except.mapError, pure, Except.pure] at h
          obtain ⟨rfl, rfl⟩ := h
          exact ⟨rfl, .inr (.inr ⟨hex, rfl, hc⟩)⟩
      · cases hc : t.copyDirAll o.seedDir.text d.text with
        | error f => simp [hd, hex, hdir, hc, bind, Except.bind, Except.map, Except.mapError] at h
        | ok r =>
          simp [hd, hex, hdir, hc, bind, Except.bind, Except.map, Except.mapError, pure, Except.pure] at h
          obtain ⟨rfl, rfl⟩ := h
          exact ⟨rfl, .inr (.inl ⟨hex, rfl, r.1, hc⟩)⟩
    · simp [hd, hex, bind, Except.bind, pure, Except.pure] at h
      obtain ⟨rfl, rfl⟩ := h
      exact ⟨rfl, .inl ⟨hex, rfl⟩⟩

theorem provision_ok {o : OverlayStore} {id : String} {t t' : FileTree} {dir : NormalPath}
    (h : o.provision id t = .ok (dir, t')) : o.dirFor id = .ok dir :=
  (provision_eq_ok h).1

theorem dirFor_error_ne_traversal {o : OverlayStore} {id : String} {e : ServerError} (h : o.dirFor id = .error e)
    (x : String) : e ≠ .traversal x := by
  unfold dirFor at h
  split at h
  · cases h
    simp
  · split at h <;> cases h
    simp

theorem provision_error {o : OverlayStore} {id : String} {t : FileTree} {e : ServerError}
    (h : o.provision id t = .error e) : o.dirFor id = .error e ∨ ∃ f, e = .fs f := by
  unfold provision at h
  cases hd : o.dirFor id with
  | error e' =>
    simp only [hd, bind, Except.bind, Except.error.injEq] at h
    exact .inl (h ▸ rfl)
  | ok d =>
    by_cases hex : t.pathExists d.text
    · simp [hd, hex, bind, Except.bind, pure, Except.pure] at h
    by_cases hdir : t.isDir o.seedDir.text
    · cases hc : t.copyDirAll o.seedDir.text d.text with
      | error f =>
        simp [hd, hex, hdir, hc, bind, Except.bind, Except.map, Except.mapError] at h
        exact .inr ⟨f, h.symm⟩
      | ok r => simp [hd, hex, hdir, hc, bind, Except.bind, Except.map, Except.mapError, pure, Except.pure] at h
    · cases hc : t.createDirAll d.text with
      | error f =>
        simp [hd, hex, hdir, hc, bind, Except.bind, Except.mapError] at h
        exact .inr ⟨_, h.symm⟩
      | ok r => simp [hd, hex, hdir, hc, bind, Except.bind, Except.mapError, pure, Except.pure] at h

end OverlayStore

namespace CatalogService

theorem servable_ok {s : CatalogService} {r rel : String} (h : s.servable r = .ok rel) :
    Path.sanitize r = .ok rel ∧ s.inSyncPath rel = true ∧ s.exclusions.matchesPrefix rel = false := by
  unfold servable at h
  cases hs : Path.sanitize r with
  | error e =>
    cases e <;> simp [hs, bind, Except.bind, throw, throwThe, MonadExceptOf.throw] at h
  | ok c =>
    simp only [hs, bind, Except.bind, pure, Except.pure] at h
    -- the two refusals are thrown errors: `split_ifs` discards them, leaving the accepting branch
    split_ifs at h with hin hex
    cases h
    exact ⟨rfl, hin, Bool.not_eq_true _ ▸ hex⟩

theorem servable_of_traversal {s : CatalogService} {r p : String}
    (h : Path.sanitize r = .error (.pathTraversal p)) : s.servable r = .error (.traversal r) := by
  simp [servable, h, bind, Except.bind, throw, throwThe, MonadExceptOf.throw]

theorem sanitize_of_servable_traversal {s : CatalogService} {r x : String}
    (h : s.servable r = .error (.traversal x)) : x = r ∧ ∃ p, Path.sanitize r = .error (.pathTraversal p) := by
  unfold servable at h
  cases hs : Path.sanitize r with
  | error e =>
    cases e with
    | pathTraversal p =>
      simp [hs, bind, Except.bind, throw, throwThe, MonadExceptOf.throw] at h
      exact ⟨h.symm, p, rfl⟩
    | _ => simp [hs, bind, Except.bind, throw, throwThe, MonadExceptOf.throw] at h
  | ok c =>
    simp only [hs, bind, Except.bind, pure, Except.pure] at h
    split_ifs at h <;> simp [throw, throwThe, MonadExceptOf.throw] at h

theorem overlayFile_some {s : CatalogService} {rel : String} {identity : Option String} {t t' : FileTree}
    {f : String} (h : s.overlayFile rel identity t = .ok (some f, t')) :
    ∃ id dir, identity = some id ∧ s.overlays.dirFor id = .ok dir ∧ f = (dir.join rel).text := by
  unfold overlayFile at h
  cases identity with
  | none => cases h
  | some id =>
    cases hp : s.overlays.provision id t with
    | error e => simp [hp, bind, Except.bind] at h
    | ok r =>
      obtain ⟨dir, t₁⟩ := r
      simp only [hp, bind, Except.bind, pure, Except.pure, Except.ok.injEq, Prod.mk.injEq] at h
      split_ifs at h with hfile
      · exact ⟨id, dir, rfl, OverlayStore.provision_ok hp, (Option.some.inj h.1).symm⟩
      · exact h.1.elim

theorem overlayFile_error {s : CatalogService} {rel : String} {identity : Option String} {t : FileTree}
    {e : ServerError} (h : s.overlayFile rel identity t = .error e) (x : String) : e ≠ .traversal x := by
  unfold overlayFile at h
  cases identity with
  | none => cases h
  | some id =>
    cases hp : s.overlays.provision id t with
    | error e' =>
      simp only [hp, bind, Except.bind, Except.error.injEq] at h
      subst h
      rcases OverlayStore.provision_error hp with hd | ⟨f, rfl⟩
      · exact OverlayStore.dirFor_error_ne_traversal hd x
      · simp
    | ok r => simp [hp, bind, Except.bind, pure, Except.pure] at h

theorem resolveFile_ok {s : CatalogService} {r : String} {identity : Option String} {t t' : FileTree}
    {f : String} (h : s.resolveFile r identity t = (.ok f, t')) :
    ∃ rel, s.servable r = .ok rel ∧ (f = (s.root.join rel).text ∨
      ∃ id dir, identity = some id ∧ s.overlays.dirFor id = .ok dir ∧ f = (dir.join rel).text) := by
  unfold resolveFile at h
  split at h
  · cases h
  rename_i rel hrel
  refine ⟨rel, hrel, ?_⟩
  split at h
  · cases h
  · rename_i path t₁ hov
    cases h
    exact .inr (overlayFile_some hov)
  · dsimp only at h
    split_ifs at h <;> cases h
    exact .inl rfl

theorem resolveFile_of_traversal {s : CatalogService} {r p : String} (identity : Option String) (t : FileTree)
    (h : Path.sanitize r = .error (.pathTraversal p)) : s.resolveFile r identity t = (.error (.traversal r), t) := by
  simp [resolveFile, servable_of_traversal h]

theorem sanitize_of_resolveFile_traversal {s : CatalogService} {r x : String} {identity : Option String}
    {t : FileTree} (h : (s.resolveFile r identity t).1 = .error (.traversal x)) :
    x = r ∧ ∃ p, Path.sanitize r = .error (.pathTraversal p) := by
  unfold resolveFile at h
  split at h
  · rename_i e hs
    cases h
    exact sanitize_of_servable_traversal hs
  split at h
  · rename_i e hov
    cases h
    exact absurd rfl (overlayFile_error hov x)
  · cases h
  · dsimp only at h
    split_ifs at h
    cases h

theorem inSyncPath_iff {s : CatalogService} {rel : String} :
    s.inSyncPath rel = true ↔ ∃ spec ∈ s.specs,
      Path.foldKey rel = spec.key ∨ (spec.key ++ "/").toList <+: (Path.foldKey rel).toList := by
  simp [inSyncPath, String.startsWith_string_iff]

theorem ofConfig_overlays {c : ServerConfig} {s : CatalogService} (h : ofConfig c = .ok s) :
    ∃ rel, Path.sanitize c.overlay.root = .ok rel ∧ s.overlays.root = s.root.join rel := by
  unfold ofConfig at h
  cases hv : c.validate with
  | error e => simp [hv, bind, Except.bind] at h
  | ok u =>
    cases ho : Path.sanitize c.overlay.root with
    | error e => simp [hv, ho, bind, Except.bind, Except.mapError] at h
    | ok rel =>
      cases hx : ExclusionSet.compile c.exclusions with
      | error e => simp [hv, ho, hx, bind, Except.bind, Except.mapError] at h
      | ok x =>
        simp only [hv, ho, hx, bind, Except.bind, Except.mapError, pure, Except.pure, Except.ok.injEq] at h
        subst h
        exact ⟨rel, rfl, rfl⟩

end CatalogService

theorem join_sanitize_nativeOf {rs : List String} (hrs : ∀ n ∈ rs, PlainName n) {x rel : String}
    (h : Path.sanitize x = .ok rel) : (⟨nativeOf rs⟩ : NormalPath).join rel = ⟨nativeOf (rs ++ Path.segments rel)⟩ :=
  join_sanitized (b := { base := ⟨nativeOf rs⟩ }) hrs rfl h

theorem join_plainName_nativeOf {rs : List String} (hrs : ∀ n ∈ rs, PlainName n) {id : String} (hid : PlainName id) :
    (⟨nativeOf rs⟩ : NormalPath).join id = ⟨nativeOf (rs ++ [id])⟩ := by
  rw [← join_nativeOf hrs (by simpa using hid) (List.cons_ne_nil _ _), keyOf_singleton]

namespace CatalogService

/-- A file served by a configured service lies strictly below its root,
whether it is the live file or an identity's copy. -/
theorem resolveFile_below_root {c : ServerConfig} {s : CatalogService} (hs : ofConfig c = .ok s) {r f : String}
    {identity : Option String} {t t' : FileTree} (h : s.resolveFile r identity t = (.ok f, t'))
    {rs : List String} (hrs : ∀ n ∈ rs, PlainName n) (hroot : s.root = ⟨nativeOf rs⟩) :
    ∃ more ≠ [], (∀ n ∈ more, PlainName n) ∧ f = nativeOf (rs ++ more) := by
  obtain ⟨rel, hserv, hf⟩ := resolveFile_ok h
  obtain ⟨hsan, -, -⟩ := servable_ok hserv
  obtain ⟨hne, hplain, -⟩ := sanitize_segments hsan
  rcases hf with rfl | ⟨id, dir, -, hdir, rfl⟩
  · exact ⟨Path.segments rel, hne, hplain, by rw [hroot, join_sanitize_nativeOf hrs hsan]⟩
  obtain ⟨hv, -, rfl⟩ := OverlayStore.dirFor_ok hdir
  obtain ⟨ov, hov, hovroot⟩ := ofConfig_overlays hs
  obtain ⟨-, hovplain, -⟩ := sanitize_segments hov
  have hid := plainName_of_validateIdentifier hv
  have hbase : ∀ n ∈ rs ++ Path.segments ov, PlainName n := plain_append hrs hovplain
  have hdirplain : ∀ n ∈ rs ++ Path.segments ov ++ [id], PlainName n := plain_append hbase (by simpa using hid)
  refine ⟨Path.segments ov ++ id :: Path.segments rel, by simp, ?_, ?_⟩
  · exact plain_append hovplain (List.forall_mem_cons.mpr ⟨hid, hplain⟩)
  · rw [hovroot, hroot, join_sanitize_nativeOf hrs hov, join_plainName_nativeOf hbase hid,
      join_sanitize_nativeOf hdirplain hsan]
    simp

end CatalogService

/-- **The service serves nothing outside its sync paths.** For any requested
text and any identity, a served file is named by a sanitized path that lies
in a sync path and is not excluded, and it is that path below the root or
below the overlay of an accepted identity (one plain name other than the
seed's). For a service made from a configuration, with a root of plain names,
it lies strictly below the root. An escape is refused exactly when the
sanitizer reads the request as one, and then before the files are looked at. -/
theorem resolveFile_confined (s : CatalogService) (r : String) (identity : Option String) (t : FileTree) :
    (∀ f t', s.resolveFile r identity t = (.ok f, t') →
      (∃ relative, Path.sanitize r = .ok relative ∧
        (∃ spec ∈ s.specs, Path.foldKey relative = spec.key ∨
          (spec.key ++ "/").toList <+: (Path.foldKey relative).toList) ∧
        s.exclusions.matchesPrefix relative = false ∧
        (f = (s.root.join relative).text ∨
          ∃ id, identity = some id ∧ Path.validateIdentifier id = .ok () ∧
            Path.foldKey id ≠ Path.foldKey s.overlays.seed ∧ PlainName id ∧
            f = ((s.overlays.root.join id).join relative).text)) ∧
      ∀ c, CatalogService.ofConfig c = .ok s → ∀ rs, (∀ n ∈ rs, PlainName n) → s.root = ⟨nativeOf rs⟩ →
        ∃ more ≠ [], (∀ n ∈ more, PlainName n) ∧ f = nativeOf (rs ++ more)) ∧
    ((s.resolveFile r identity t).1 = .error (.traversal r) ↔ ∃ p, Path.sanitize r = .error (.pathTraversal p)) ∧
    ∀ p, Path.sanitize r = .error (.pathTraversal p) → s.resolveFile r identity t = (.error (.traversal r), t) := by
  refine ⟨fun f t' h => ⟨?_, fun c hs rs hrs hroot => CatalogService.resolveFile_below_root hs h hrs hroot⟩,
    ⟨fun h => (CatalogService.sanitize_of_resolveFile_traversal h).2, fun ⟨p, hp⟩ => ?_⟩,
    fun p hp => CatalogService.resolveFile_of_traversal identity t hp⟩
  · obtain ⟨rel, hserv, hf⟩ := CatalogService.resolveFile_ok h
    obtain ⟨hsan, hin, hex⟩ := CatalogService.servable_ok hserv
    refine ⟨rel, hsan, CatalogService.inSyncPath_iff.mp hin, hex, ?_⟩
    rcases hf with hlive | ⟨id, dir, hid, hdir, rfl⟩
    · exact .inl hlive
    · obtain ⟨hv, hseed, rfl⟩ := OverlayStore.dirFor_ok hdir
      exact .inr ⟨id, hid, hv, hseed, plainName_of_validateIdentifier hv, rfl⟩
  · rw [CatalogService.resolveFile_of_traversal identity t hp]

def pluginTree : FileTree :=
  ⟨[(["server"], .dir), (["server", "BepInEx"], .dir), (["server", "BepInEx", "plugins"], .dir),
    (["server", "BepInEx", "plugins", "a.dll"], .file ⟨#[65]⟩)]⟩

/-- A request spelled with backslashes and a `.` segment is served from the
live file its sanitized form names below the root. -/
theorem resolveFile_confined_plugin :
    pluginService.resolveFile "BepInEx\\plugins\\.\\a.dll" none pluginTree =
        (.ok "$ROOT/server/BepInEx/plugins/a.dll", pluginTree) ∧
      ∃ relative, Path.sanitize "BepInEx\\plugins\\.\\a.dll" = .ok relative ∧
        pluginService.exclusions.matchesPrefix relative = false ∧
        "$ROOT/server/BepInEx/plugins/a.dll" = (pluginService.root.join relative).text := by
  have hserv : pluginService.servable "BepInEx\\plugins\\.\\a.dll" = .ok "BepInEx/plugins/a.dll" := by cbv
  have hj : (pluginService.root.join "BepInEx/plugins/a.dll").text = "$ROOT/server/BepInEx/plugins/a.dll" := by
    decide
  have hfile : pluginTree.isFile "$ROOT/server/BepInEx/plugins/a.dll" = true := by cbv
  have hres : pluginService.resolveFile "BepInEx\\plugins\\.\\a.dll" none pluginTree =
      (.ok "$ROOT/server/BepInEx/plugins/a.dll", pluginTree) := by
    simp [CatalogService.resolveFile, hserv, CatalogService.overlayFile, hj, hfile]
  obtain ⟨⟨relative, hs, -, hx, hf⟩, -⟩ := (resolveFile_confined pluginService _ none pluginTree).1 _ _ hres
  refine ⟨hres, relative, hs, hx, ?_⟩
  -- without an identity there is no overlay copy to serve
  rcases hf with hlive | ⟨id, hid, -⟩
  · exact hlive
  · cases hid

example : (pluginService.resolveFile "BepInEx/plugins/../../../secret.txt" none ⟨[]⟩).1 =
    .error (.traversal "BepInEx/plugins/../../../secret.txt") := by
  decide

end ModMirror
