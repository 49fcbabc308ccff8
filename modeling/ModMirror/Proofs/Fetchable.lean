import ModMirror.Proofs.Overlay
import ModMirror.Proofs.Fingerprint

/-!
# Every catalogued file can be fetched

A catalog lists files under keys of the form `spec path / names below it`;
a client then asks for each file by that key. The service must find the very
file it hashed. It reads the key back through `sanitize`, checks that its
folded form lies under the key of a sync path, and looks in the identity's
overlay before the live tree. Each check passes for a key the scan gave, when
the sync paths are written in clean form and the tree holds plain names:

* a separator cuts a text, so folding `spec / rest` folds `spec` on its own
  (`lowerFrom_append_slash`) and the key of a clean spec is its folded path
  (`SyncPathSpec.key_of_keyOf`);
* plain names below a clean path keep it clean (`sanitize_keyOf_append`);
* a catalog read from the overlay has its files there, and a catalog read
  from the live tree has none of them shadowed, since its sync path is absent
  from the overlay (`FileTree.WF.isFile_below_absent`).

    s.catalog requested identity t = (.ok set, t') → set.get q = some c →
      (p, file h) ∈ c → s.resolveFile p identity t' = (.ok f, t') ∧ hash of f = h
                                                          (catalogued_file_resolves)

A sync path written otherwise, such as `./a.dll`, is catalogued under its
sanitized spelling but keyed by its raw one, and its files are then refused.
-/

namespace ModMirror

open Text

/-! ## Folded keys below a separator -/

theorem slash_not_caseIgnorable : isCaseIgnorable '/' = false := by
  unfold isCaseIgnorable inRanges
  rw [← Array.any_toList]
  decide +kernel

theorem slash_not_cased : isCased '/' = false := by
  unfold isCased inRanges
  rw [← Array.any_toList]
  decide +kernel

theorem ignorableThenCased_append_slash : ∀ (A B : List Char),
    ignorableThenCased (A ++ '/' :: B) = ignorableThenCased A
  | [], B => by simp [ignorableThenCased, slash_not_caseIgnorable, slash_not_cased]
  | a :: A, B => by
    simp only [List.cons_append, ignorableThenCased]
    rw [ignorableThenCased_append_slash A B]

/-- Lowercasing a text with a separator lowercases the part before it on its own. -/
theorem lowerFrom_append_slash : ∀ (before A B : List Char),
    lowerFrom before (A ++ '/' :: B) = lowerFrom before A ++ '/' :: lowerFrom ('/' :: (A.reverse ++ before)) B
  | before, [], B => by simp [lowerFrom_append_ascii, lowerFrom]
  | before, a :: A, B => by
    simp only [List.cons_append, lowerFrom, ignorableThenCased_append_slash, sigmaBetween]
    rw [lowerFrom_append_slash (a :: before) A B]
    simp


/-- The folded key of a path below a clean path extends the folded key of the
clean path by a separator. -/
theorem foldKey_keyOf_append {ls rest : List String} (hls : ls ≠ []) (hrest : rest ≠ [])
    (hplain : ∀ n ∈ ls ++ rest, PlainName n) :
    (Path.foldKey (keyOf ls) ++ "/").toList <+: (Path.foldKey (keyOf (ls ++ rest))).toList := by
  have hl : ∀ n ∈ ls, PlainName n := fun n hn => hplain n (List.mem_append_left _ hn)
  unfold Path.foldKey
  rw [keyOf_toList, keyOf_toList, unifySlashes_of_no_backslash (no_backslash_keyChars hplain),
    unifySlashes_of_no_backslash (no_backslash_keyChars hl), keyChars_append hls hrest, lowerList, lowerList,
    lowerFrom_append_slash]
  simp

/-- The key of a spec written as a clean path is the folded path. -/
theorem SyncPathSpec.key_of_keyOf {spec : SyncPathSpec} {names : List String} (hne : names ≠ [])
    (hplain : ∀ n ∈ names, PlainName n) (hpath : spec.path = keyOf names) :
    spec.key = Path.foldKey spec.path := by
  have hlast := getLast?_keyChars_ne hne hplain
  have hnb := no_backslash_keyChars hplain
  -- the last character is no separator, so nothing is trimmed
  have hkeep : ((keyChars names).reverse.dropWhile fun c => decide (c = '/' ∨ c = '\\')) =
      (keyChars names).reverse := by
    cases hr : (keyChars names).reverse with
    | nil => rfl
    | cons c cs =>
      have hc : (keyChars names).getLast? = some c := by rw [← List.head?_reverse, hr]; rfl
      have hc1 : c ≠ '/' := fun e => hlast (e ▸ hc)
      have hc2 : c ≠ '\\' := fun e => hnb (e ▸ List.mem_of_getLast? hc)
      simp [hc1, hc2]
  unfold SyncPathSpec.key
  rw [hpath, keyOf_toList, hkeep, List.reverse_reverse]
  rfl

/-! ## Clean paths -/

theorem splitRoot_slash_ne_none (cs : List Char) : (Path.splitRoot ('/' :: cs)).1 ≠ .none := by
  rcases cs with _ | ⟨c, cs⟩
  · simp [Path.splitRoot]
  by_cases hc : c = '/'
  · subst hc
    rcases cs with _ | ⟨d, cs⟩
    · simp [Path.splitRoot]
    by_cases hd : d = '/'
    · subst hd
      simp [Path.splitRoot]
    · simp [Path.splitRoot, hd]
  · simp [Path.splitRoot, hc]

theorem splitRoot_append_slash : ∀ {cs : List Char}, cs ≠ [] → (Path.splitRoot cs).1 = .none → ∀ B : List Char,
    (Path.splitRoot (cs ++ '/' :: B)).1 = .none
  | [c], _, h, B => by
    by_cases hc : c = '/'
    · exact absurd (hc ▸ h) (splitRoot_slash_ne_none [])
    · simp [Path.splitRoot, hc]
  | c :: d :: X, _, h, B => by
    by_cases hc : c = '/'
    · exact absurd (hc ▸ h) (splitRoot_slash_ne_none _)
    -- without a leading slash the root is read from the first two characters
    by_cases hd : d = ':'
    · subst hd
      simp only [Path.splitRoot, List.cons_append] at h ⊢
      split_ifs at h ⊢
      simp_all
    · simp_all [Path.splitRoot]

theorem splitRoot_of_none {cs : List Char} (h : (Path.splitRoot cs).1 = .none) :
    Path.splitRoot cs = (.none, cs) := by
  unfold Path.splitRoot at h ⊢
  split
  · simp at h
  · simp at h
  · simp at h
  · split_ifs at h ⊢ with hc
    · simp [hc] at h
    · rfl
  · rfl

theorem resolveInside_of_plain : ∀ {segs : List (List Char)}, (∀ s ∈ segs, PlainSeg s) →
    ∀ acc, Path.resolveInside acc segs = some (segs.reverse ++ acc)
  | [], _, acc => rfl
  | s :: ss, h, acc => by
    obtain ⟨h1, h2, h3, -, -⟩ := h s List.mem_cons_self
    unfold Path.resolveInside
    rw [if_neg (by tauto), if_neg h3, resolveInside_of_plain (fun s hs => h s (List.mem_cons_of_mem _ hs))]
    simp

theorem nul_not_mem_keyChars {names : List String} (h : ∀ n ∈ names, '\x00' ∉ n.toList) :
    '\x00' ∉ keyChars names := by
  intro hmem
  rcases mem_keyChars hmem with h' | ⟨n, hn, hc⟩
  · exact absurd h' (by decide)
  · exact h n hn hc

/-- The key of plain names without NUL and without a root is already clean. -/
theorem sanitize_keyOf {names : List String} (hne : names ≠ []) (hplain : ∀ n ∈ names, PlainName n)
    (hnul : ∀ n ∈ names, '\x00' ∉ n.toList) (hroot : (Path.splitRoot (keyChars names)).1 = .none) :
    Path.sanitize (keyOf names) = .ok (keyOf names) := by
  have hsegs : ∀ s ∈ names.map String.toList, PlainSeg s := by simpa [PlainName] using hplain
  obtain ⟨x, xs, hx⟩ := List.exists_cons_of_ne_nil (by simpa using hne : (names.map String.toList).reverse ≠ [])
  unfold Path.sanitize
  simp only [keyOf_toList, unifySlashes_of_no_backslash (no_backslash_keyChars hplain), splitRoot_of_none hroot,
    ne_eq, not_true_eq_false, nul_not_mem_keyChars hnul, or_self, if_false]
  rw [splitOn_keyChars hne (no_slash_of_plain hplain), resolveInside_of_plain hsegs, List.append_nil, hx]
  simp only [Except.ok.injEq]
  rw [← hx, List.reverse_reverse]
  rfl

theorem splitRoot_none_of_sanitize {x y : String} (h : Path.sanitize x = .ok y) :
    (Path.splitRoot (unifySlashes x.toList)).1 = .none := by
  by_contra hr
  rw [Path.sanitize_rooted x hr] at h
  cases h

/-- Plain names below a clean path keep it clean. -/
theorem sanitize_keyOf_append {ls : List String} (hls : ls ≠ []) (h : Path.sanitize (keyOf ls) = .ok (keyOf ls))
    {rest : List String} (hnames : ∀ n ∈ ls ++ rest, PlainName n ∧ '\x00' ∉ n.toList) :
    Path.sanitize (keyOf (ls ++ rest)) = .ok (keyOf (ls ++ rest)) := by
  have hp : ∀ n ∈ ls, PlainName n := fun n hn => (hnames n (List.mem_append_left _ hn)).1
  have hroot : (Path.splitRoot (keyChars ls)).1 = .none := by
    simpa [unifySlashes_of_no_backslash (no_backslash_keyChars hp)] using splitRoot_none_of_sanitize h
  refine sanitize_keyOf (by simp [hls]) (fun n hn => (hnames n hn).1) (fun n hn => (hnames n hn).2) ?_
  rcases List.eq_nil_or_concat rest with rfl | ⟨init, n, rfl⟩
  · simpa using hroot
  · rw [keyChars_append hls (by simp)]
    exact splitRoot_append_slash (keyChars_ne_nil hls hp) hroot _

/-! ## Files present in the tree -/

namespace FileTree

section Present

variable {t : FileTree} (ht : t.WF)
include ht

theorem WF.isFile_of_mem {D : List String} {d : ByteArray} (h : (D, .file d) ∈ t.entries) :
    t.isFile (nativeOf D) = true := by
  have hD := (ht.plain _ h).2
  simp [isFile, ht.metadata_nativeOf_file hD (ht.noFileAbove h) (ht.find?_of_mem h)]

/-- Nothing below an absent path is a file. -/
theorem WF.isFile_below_absent {D sub : List String} (hD : ∀ n ∈ D ++ sub, PlainName n)
    (h : t.pathExists (nativeOf D) = false) : t.isFile (nativeOf (D ++ sub)) = false := by
  have hD' : ∀ n ∈ D, PlainName n := fun n hn => hD n (List.mem_append_left _ hn)
  by_contra hfile
  obtain ⟨d, hf⟩ := ht.find?_of_isFile hD (Bool.not_eq_false _ ▸ hfile)
  -- what is below the path makes the path itself present
  have hpresent : ∃ node, t.find? D = some node := by
    by_cases hsub : sub = []
    · subst hsub
      exact ⟨_, by simpa using hf⟩
    · have hne : D ++ sub ≠ [] := by simp [hsub]
      exact ⟨_, ht.find?_dir_of_prefix (mem_of_find? hne hf) hsub⟩
  obtain ⟨node, hnode⟩ := hpresent
  rw [ht.pathExists_nativeOf hD' hnode] at h
  cases h

end Present

end FileTree

/-! ## Recorded files -/

/-- A file a target's catalog records was reported by the target's scan: it
lies below the clean sync path, at a key of plain names the matcher spares,
and the hash recorded is that of the file. -/
theorem CatalogBuilder.RecordedFrom.file_entry {b : CatalogBuilder} {t : FileTree} (ht : t.WF)
    {target : CatalogTarget} {c : PathCatalog} (hrec : CatalogBuilder.RecordedFrom b t target c)
    {bs : List String} (hbs : ∀ n ∈ bs, PlainName n) (hb : (b.forTarget target).base = ⟨nativeOf bs⟩)
    (hm : target.matcher.base = (b.forTarget target).base)
    (hclean : Path.sanitize target.syncPath = .ok target.syncPath)
    {p : String} {r : FileRecord} (hp : (p, r) ∈ c.toList) (hr : r.isDirectory = false) :
    ∃ ls rest d, ls ≠ [] ∧ keyOf ls = target.syncPath ∧ p = keyOf (ls ++ rest) ∧
      (bs ++ ls ++ rest, Node.file d) ∈ t.entries ∧ target.matcher.Spares p ∧
      b.hasher.hashFile t (nativeOf (bs ++ ls ++ rest)) = .ok r.hash := by
  obtain ⟨entries, hscan, hrecs⟩ := hrec
  obtain ⟨logical, hs, hrule⟩ := scan_ok_followsRule ht hbs hb hm hscan
  obtain rfl : target.syncPath = logical := by
    rw [hclean] at hs
    exact Except.ok.inj hs
  obtain ⟨hne, -, hkey⟩ := sanitize_segments hclean
  obtain ⟨e, he, hpe, hfile⟩ := hrecs (p, r) hp
  obtain ⟨hedir, hhash⟩ := hfile hr
  obtain ⟨rest, hsp, hcase⟩ := (hrule.2 e).mp he
  rcases hcase with ⟨d, hmem, rfl⟩ | ⟨-, -, rfl⟩
  · have hplain := ScannedAt.plain ht (m := target.matcher) (.inl ⟨d, hmem, rfl⟩)
    have hpk : p = keyOf (Path.segments target.syncPath ++ rest) := by
      exact hpe.trans (cleanKeyPath_keyOf (by simp [hne]) hplain)
    exact ⟨_, rest, d, hne, hkey, hpk, hmem, hpk ▸ hsp, hhash⟩
  · cases hedir

namespace CatalogService

theorem catalog_recorded {s : CatalogService} {requested : Option (List String)} {identity : Option String}
    {t t' : FileTree} {set : CatalogSet} (h : s.catalog requested identity t = (.ok set, t'))
    {q : String} {c : PathCatalog} (hq : set.get q = some c) :
    ∃ overlay, s.overlayOf identity t = .ok (overlay, t') ∧ ∃ spec ∈ s.chosen requested,
      catalogKey spec.path = catalogKey q ∧
      CatalogBuilder.RecordedFrom { base := s.root } t' (s.targetFor t' overlay spec) c := by
  obtain ⟨overlay, hov, hbuild⟩ := catalog_ok h
  obtain ⟨target, hlast, hrec⟩ := CatalogBuilder.build_get_recorded hbuild hq
  obtain ⟨htarget, hkey⟩ := List.mem_filter.mp (List.mem_of_getLast? hlast)
  obtain ⟨spec, hspec, rfl⟩ := List.mem_map.mp htarget
  exact ⟨overlay, hov, spec, hspec, by simpa using hkey, hrec⟩

/-- The overlay an identity sees: none without an identity, else its
directory, provisioned below the overlay root, on a tree still sound. -/
theorem overlayOf_spec {s : CatalogService} {os : List String} (hos : ∀ n ∈ os, PlainName n ∧ '\x00' ∉ n.toList)
    (hover : s.overlays.root = ⟨nativeOf os⟩) {identity : Option String} {t t' : FileTree} (ht : t.WF)
    (hnul : t.NoNul) {overlay : Option NormalPath} (h : s.overlayOf identity t = .ok (overlay, t')) :
    t'.WF ∧ t'.NoNul ∧ ((identity = none ∧ overlay = none) ∨ ∃ id dir, identity = some id ∧ overlay = some dir ∧
      s.overlays.dirFor id = .ok dir ∧ dir = ⟨nativeOf (os ++ [id])⟩ ∧ t'.pathExists dir.text = true) := by
  cases identity with
  | none =>
    obtain ⟨rfl, rfl⟩ : none = overlay ∧ t = t' := by simpa [overlayOf] using h
    exact ⟨ht, hnul, .inl ⟨rfl, rfl⟩⟩
  | some id =>
    cases hp : s.overlays.provision id t with
    | error e => simp [overlayOf, hp, Except.map] at h
    | ok r =>
      obtain ⟨dir, t₁⟩ := r
      obtain ⟨rfl, rfl⟩ : some dir = overlay ∧ t₁ = t' := by simpa [overlayOf, hp, Except.map] using h
      obtain ⟨hdir, ht₁, hnul₁, hex⟩ := OverlayStore.provision_spec hos hover ht hnul hp
      exact ⟨ht₁, hnul₁, .inr ⟨id, dir, rfl, rfl, OverlayStore.provision_ok hp, hdir, hex⟩⟩

theorem targetFor_of_pathExists {s : CatalogService} {t : FileTree} {o : NormalPath} {spec : SyncPathSpec}
    (h : t.pathExists (o.join spec.path).text = true) :
    s.targetFor t (some o) spec =
      { syncPath := spec.path, matcher := { base := o, sets := [s.exclusions] }, base := some o } := by
  simp [targetFor, h]

theorem targetFor_live {s : CatalogService} {t : FileTree} {overlay : Option NormalPath} {spec : SyncPathSpec}
    (h : ∀ o, overlay = some o → t.pathExists (o.join spec.path).text = false) :
    s.targetFor t overlay spec =
      { syncPath := spec.path, matcher := { base := s.root, sets := [s.exclusions] }, base := none } := by
  cases overlay with
  | none => rfl
  | some o => simp [targetFor, h o rfl]

theorem inSyncPath_keyOf {s : CatalogService} {spec : SyncPathSpec} (hspec : spec ∈ s.specs) {ls rest : List String}
    (hls : ls ≠ []) (hpath : keyOf ls = spec.path) (hplain : ∀ n ∈ ls ++ rest, PlainName n) :
    s.inSyncPath (keyOf (ls ++ rest)) = true := by
  have hl : ∀ n ∈ ls, PlainName n := fun n hn => hplain n (List.mem_append_left _ hn)
  rw [inSyncPath_iff]
  refine ⟨spec, hspec, ?_⟩
  rw [spec.key_of_keyOf hls hl hpath.symm, ← hpath]
  by_cases hrest : rest = []
  · subst hrest
    exact .inl (by simp)
  · exact .inr (foldKey_keyOf_append hls hrest hplain)

/-- A path of plain names below a clean spec path, which the exclusions do not
name, is served as it is. -/
theorem servable_keyOf {s : CatalogService} {spec : SyncPathSpec} (hspec : spec ∈ s.specs)
    (hclean : Path.sanitize spec.path = .ok spec.path) {ls rest : List String} (hls : ls ≠ [])
    (hpath : keyOf ls = spec.path) (hnames : ∀ n ∈ ls ++ rest, PlainName n ∧ '\x00' ∉ n.toList)
    (hx : s.exclusions.matchesPrefix (keyOf (ls ++ rest)) = false) :
    s.servable (keyOf (ls ++ rest)) = .ok (keyOf (ls ++ rest)) := by
  have hsan := sanitize_keyOf_append hls (hpath ▸ hclean) hnames
  have hin := inSyncPath_keyOf hspec hls hpath (fun n hn => (hnames n hn).1)
  simp [servable, hsan, hin, hx, bind, Except.bind, pure, Except.pure]

theorem overlayFile_of_pathExists {s : CatalogService} {id : String} {dir : NormalPath} {t : FileTree}
    (hd : s.overlays.dirFor id = .ok dir) (hex : t.pathExists dir.text = true) (rel : String) :
    s.overlayFile rel (some id) t =
      .ok (if t.isFile (dir.join rel).text then some (dir.join rel).text else none, t) := by
  simp [overlayFile, OverlayStore.provision_of_pathExists hd hex, bind, Except.bind, pure, Except.pure]

theorem resolveFile_of_overlayFile {s : CatalogService} {rel f : String} {identity : Option String}
    {t t' : FileTree} (hs : s.servable rel = .ok rel) (ho : s.overlayFile rel identity t = .ok (some f, t')) :
    s.resolveFile rel identity t = (.ok f, t') := by
  simp [resolveFile, hs, ho]

theorem resolveFile_of_live {s : CatalogService} {rel : String} {identity : Option String}
    {t t' : FileTree} (hs : s.servable rel = .ok rel) (ho : s.overlayFile rel identity t = .ok (none, t'))
    (hf : t'.isFile (s.root.join rel).text = true) :
    s.resolveFile rel identity t = (.ok (s.root.join rel).text, t') := by
  simp [resolveFile, hs, ho, hf]

end CatalogService

/-! ## Every catalogued file can be fetched -/

theorem join_keyOf_append {X ls rest : List String} (hX : ∀ n ∈ X, PlainName n) (hls : ls ≠ [])
    (hplain : ∀ n ∈ ls ++ rest, PlainName n) :
    (⟨nativeOf X⟩ : NormalPath).join (keyOf (ls ++ rest)) = ⟨nativeOf (X ++ ls ++ rest)⟩ := by
  rw [join_nativeOf hX hplain (by simp [hls])]
  simp

section Fetch

variable {s : CatalogService} {rs os : List String}
  (hrs : ∀ n ∈ rs, PlainName n ∧ '\x00' ∉ n.toList) (hroot : s.root = ⟨nativeOf rs⟩)
  (hclean : ∀ spec ∈ s.specs, Path.sanitize spec.path = .ok spec.path)
  {t : FileTree} (ht : t.WF) (hnul : t.NoNul) {spec : SyncPathSpec} (hspec : spec ∈ s.specs)
  {c : PathCatalog} {p : String} {r : FileRecord} (hp : (p, r) ∈ c.toList) (hr : r.isDirectory = false)
include hclean ht hnul hspec hp hr

theorem resolveFile_of_overlay_recorded {id : String} {dir : NormalPath} (hd : s.overlays.dirFor id = .ok dir)
    (hdir : dir = ⟨nativeOf (os ++ [id])⟩) (hos : ∀ n ∈ os, PlainName n) (hex : t.pathExists dir.text = true)
    (hin : t.pathExists (dir.join spec.path).text = true)
    (hrec : CatalogBuilder.RecordedFrom { base := s.root } t (s.targetFor t (some dir) spec) c) :
    s.resolveFile p (some id) t = (.ok (dir.join p).text, t) ∧
      ({} : ContentHasher).hashFile t (dir.join p).text = .ok r.hash := by
  have hid : PlainName id := plainName_of_validateIdentifier (OverlayStore.dirFor_ok hd).1
  have hbs : ∀ n ∈ os ++ [id], PlainName n := plain_append hos (by simpa using hid)
  rw [CatalogService.targetFor_of_pathExists hin] at hrec
  obtain ⟨ls, rest, d, hls, hpath, rfl, hmem, hsp, hhash⟩ :=
    hrec.file_entry ht hbs (by simp [CatalogBuilder.forTarget, hdir]) rfl (hclean spec hspec) hp hr
  have hnames : ∀ n ∈ ls ++ rest, PlainName n ∧ '\x00' ∉ n.toList := fun n hn =>
    ⟨(ht.plain _ hmem).2 n (by simp_all), hnul _ hmem n (by simp_all)⟩
  have hserv := CatalogService.servable_keyOf hspec (hclean spec hspec) hls hpath hnames
    (by simpa [ExclusionMatcher.Spares] using hsp)
  have hjoin : dir.join (keyOf (ls ++ rest)) = ⟨nativeOf (os ++ [id] ++ ls ++ rest)⟩ := by
    rw [hdir]
    exact join_keyOf_append hbs hls fun n hn => (hnames n hn).1
  have hfile := ht.isFile_of_mem hmem
  refine ⟨CatalogService.resolveFile_of_overlayFile hserv ?_, by rw [hjoin]; exact hhash⟩
  rw [CatalogService.overlayFile_of_pathExists hd hex, hjoin, if_pos hfile]

include hrs hroot in
/-- A file of a catalog read from the live tree is served from there: the
identity's overlay, if any, holds nothing below the sync path. -/
theorem resolveFile_of_live_recorded (hos : ∀ n ∈ os, PlainName n) {identity : Option String}
    {overlay : Option NormalPath}
    (hcase : (identity = none ∧ overlay = none) ∨ ∃ id dir, identity = some id ∧ overlay = some dir ∧
      s.overlays.dirFor id = .ok dir ∧ dir = ⟨nativeOf (os ++ [id])⟩ ∧ t.pathExists dir.text = true)
    (hno : ∀ o, overlay = some o → t.pathExists (o.join spec.path).text = false)
    (hrec : CatalogBuilder.RecordedFrom { base := s.root } t (s.targetFor t overlay spec) c) :
    s.resolveFile p identity t = (.ok (s.root.join p).text, t) ∧
      ({} : ContentHasher).hashFile t (s.root.join p).text = .ok r.hash := by
  have hbs : ∀ n ∈ rs, PlainName n := fun n hn => (hrs n hn).1
  rw [CatalogService.targetFor_live hno] at hrec
  obtain ⟨ls, rest, d, hls, hpath, rfl, hmem, hsp, hhash⟩ :=
    hrec.file_entry ht hbs (by simp [CatalogBuilder.forTarget, hroot]) rfl (hclean spec hspec) hp hr
  change keyOf ls = spec.path at hpath
  have hnames : ∀ n ∈ ls ++ rest, PlainName n ∧ '\x00' ∉ n.toList := fun n hn =>
    ⟨(ht.plain _ hmem).2 n (by simp_all), hnul _ hmem n (by simp_all)⟩
  have hplain : ∀ n ∈ ls ++ rest, PlainName n := fun n hn => (hnames n hn).1
  have hserv := CatalogService.servable_keyOf hspec (hclean spec hspec) hls hpath hnames
    (by simpa [ExclusionMatcher.Spares] using hsp)
  have hjoin : s.root.join (keyOf (ls ++ rest)) = ⟨nativeOf (rs ++ ls ++ rest)⟩ := by
    rw [hroot]
    exact join_keyOf_append hbs hls hplain
  -- the overlay has no copy: its sync path is absent, so nothing below it is a file
  have hnone : s.overlayFile (keyOf (ls ++ rest)) identity t = .ok (none, t) := by
    rcases hcase with ⟨rfl, -⟩ | ⟨id, dir, rfl, rfl, hd, hdir, hex⟩
    · rfl
    have hid : PlainName id := plainName_of_validateIdentifier (OverlayStore.dirFor_ok hd).1
    have hD : ∀ n ∈ os ++ [id], PlainName n := plain_append hos (by simpa using hid)
    have hsyncDir : dir.join spec.path = ⟨nativeOf (os ++ [id] ++ ls)⟩ := by
      rw [hdir, ← hpath, join_nativeOf hD (fun n hn => hplain n (List.mem_append_left _ hn)) hls]
    have hcopy : dir.join (keyOf (ls ++ rest)) = ⟨nativeOf (os ++ [id] ++ ls ++ rest)⟩ := by
      rw [hdir]
      exact join_keyOf_append hD hls hplain
    have hall : ∀ n ∈ os ++ [id] ++ ls ++ rest, PlainName n := by simpa using plain_append hD hplain
    have habsent := hno dir rfl
    rw [hsyncDir] at habsent
    rw [CatalogService.overlayFile_of_pathExists hd hex, hcopy, ht.isFile_below_absent hall habsent]
    rfl
  refine ⟨CatalogService.resolveFile_of_live hserv hnone ?_, by rw [hjoin]; exact hhash⟩
  rw [hjoin]
  exact ht.isFile_of_mem hmem

end Fetch

/-- **Every catalogued file can be fetched.** Take a service whose root and
overlay root are paths of plain names and whose sync paths are written in
clean form, and a tree of plain names without links. When a catalog succeeds,
every file entry `p` of any of its catalogs resolves, on the files the
catalog left, to the file whose hash is recorded for `p`: the identity's
overlay copy when the sync path of that catalog is present in the overlay (the
catalog was read from there), the live file otherwise. -/
theorem catalogued_file_resolves {s : CatalogService} {rs os : List String}
    (hrs : ∀ n ∈ rs, PlainName n ∧ '\x00' ∉ n.toList) (hroot : s.root = ⟨nativeOf rs⟩)
    (hos : ∀ n ∈ os, PlainName n ∧ '\x00' ∉ n.toList) (hover : s.overlays.root = ⟨nativeOf os⟩)
    (hclean : ∀ spec ∈ s.specs, Path.sanitize spec.path = .ok spec.path)
    {t : FileTree} (ht : t.WF) (hnul : t.NoNul)
    {requested : Option (List String)} {identity : Option String} {t' : FileTree} {set : CatalogSet}
    (h : s.catalog requested identity t = (.ok set, t'))
    {q : String} {c : PathCatalog} (hq : set.get q = some c) {p : String} {r : FileRecord}
    (hp : (p, r) ∈ c.toList) (hr : r.isDirectory = false) :
    ∃ f, s.resolveFile p identity t' = (.ok f, t') ∧ ({} : ContentHasher).hashFile t' f = .ok r.hash ∧
      ∃ spec ∈ s.chosen requested, catalogKey spec.path = catalogKey q ∧
        ((∃ id dir, identity = some id ∧ s.overlays.dirFor id = .ok dir ∧
            t'.pathExists (dir.join spec.path).text = true ∧ f = (dir.join p).text) ∨
          (f = (s.root.join p).text ∧ ∀ id dir, identity = some id → s.overlays.dirFor id = .ok dir →
            t'.pathExists (dir.join spec.path).text = false)) := by
  obtain ⟨overlay, hov, spec, hspec, hkey, hrec⟩ := CatalogService.catalog_recorded h hq
  obtain ⟨ht', hnul', hcase⟩ := CatalogService.overlayOf_spec hos hover ht hnul hov
  have hspecs : spec ∈ s.specs := (CatalogService.mem_chosen.mp hspec).1
  have hos' : ∀ n ∈ os, PlainName n := fun n hn => (hos n hn).1
  by_cases hin : ∃ dir, overlay = some dir ∧ t'.pathExists (dir.join spec.path).text = true
  · obtain ⟨dir, rfl, hin⟩ := hin
    rcases hcase with ⟨-, hnone⟩ | ⟨id, dir', hid, hdir', hd, hdir, hex⟩
    · cases hnone
    cases hdir'
    obtain ⟨hres, hhash⟩ := resolveFile_of_overlay_recorded hclean ht' hnul' hspecs hp hr hd hdir hos' hex hin hrec
    exact ⟨_, hid ▸ hres, hhash, spec, hspec, hkey, .inl ⟨id, dir, hid, hd, hin, rfl⟩⟩
  · have hno : ∀ o, overlay = some o → t'.pathExists (o.join spec.path).text = false :=
      fun o ho => Bool.eq_false_iff.mpr fun hex => hin ⟨o, ho, hex⟩
    obtain ⟨hres, hhash⟩ :=
      resolveFile_of_live_recorded hrs hroot hclean ht' hnul' hspecs hp hr hos' hcase hno hrec
    refine ⟨_, hres, hhash, spec, hspec, hkey, .inr ⟨rfl, ?_⟩⟩
    rintro id dir rfl hd
    rcases hcase with ⟨hnone, -⟩ | ⟨id', dir', hid, rfl, hd', -, -⟩
    · cases hnone
    cases hid
    rw [hd] at hd'
    cases hd'
    exact hno dir rfl

/-- A service with one sync path, written clean, that names a single file. -/
def dllService : CatalogService :=
  { root := ⟨nativeOf ["server"]⟩, version := "1", specs := [{ path := "a.dll" }],
    exclusionPatterns := [], exclusions := {},
    overlays := ⟨⟨nativeOf ["server", "RemotePlugins"]⟩, "default"⟩, fallbacks := { baseline := default } }

def dllTree : FileTree := ⟨[(["server"], .dir), (["server", "a.dll"], .file ⟨#[65]⟩)]⟩

/-- Catalogued without an identity, the file is served from the live tree with
the hash its catalog records. -/
theorem catalogued_file_resolves_dll :
    dllService.catalog none none dllTree =
      (.ok ⟨[("a.dll", ⟨"a.dll", ⟨[("a.dll", ⟨"a.dll", .file (fingerprint {} ⟨#[65]⟩)⟩)]⟩⟩)]⟩, dllTree) ∧
    dllService.resolveFile "a.dll" none dllTree = (.ok "$ROOT/server/a.dll", dllTree) ∧
    ({} : ContentHasher).hashFile dllTree "$ROOT/server/a.dll" = .ok (fingerprint {} ⟨#[65]⟩) := by
  have ht : dllTree.WF := by
    refine ⟨by decide, ?_, ?_, ?_⟩
    · unfold PlainName PlainSeg
      decide
    · intro e he
      simp only [dllTree, List.mem_cons, List.not_mem_nil, or_false] at he
      rcases he with rfl | rfl <;> rfl
    · intro e he target
      simp only [dllTree, List.mem_cons, List.not_mem_nil, or_false] at he
      rcases he with rfl | rfl <;> simp
  have hnul : dllTree.NoNul := by
    unfold FileTree.NoNul
    decide
  -- the walk of the tree is evaluated by cbv, the path texts by decide; the hash stays unevaluated
  have hm : dllTree.metadata "$ROOT/server/a.dll" = .ok (.file 1) := by cbv
  have hr : dllTree.readFile "$ROOT/server/a.dll" = .ok ⟨#[65]⟩ := by cbv
  have hh : ({} : ContentHasher).hashFile dllTree "$ROOT/server/a.dll" = .ok (fingerprint {} ⟨#[65]⟩) := by
    exact ContentHasher.hashFile_of_readFile (by decide) hr
  have hs : Path.sanitize "a.dll" = .ok "a.dll" := by decide
  have hj : dllService.root.join "a.dll" = ⟨"$ROOT/server/a.dll"⟩ := by decide
  have hx : (⟨dllService.root, [dllService.exclusions]⟩ : ExclusionMatcher).excludesTree
      ⟨"$ROOT/server/a.dll"⟩ = false := by
    decide
  have hscan : ({ base := dllService.root } : CatalogBuilder).scan dllTree "a.dll"
      ⟨dllService.root, [dllService.exclusions]⟩ = .ok [⟨"a.dll", "$ROOT/server/a.dll", false⟩] := by
    simp [CatalogBuilder.scan, hs, hj, hx, hm, Except.mapError, bind, Except.bind, pure, Except.pure]
  have hspecs : dllService.specs = [{ path := "a.dll" }] := rfl
  have htarget : dllService.targetFor dllTree none { path := "a.dll" } =
      { syncPath := "a.dll", matcher := ⟨dllService.root, [dllService.exclusions]⟩, base := none } := rfl
  have hcat : dllService.catalog none none dllTree =
      (.ok ⟨[("a.dll", ⟨"a.dll", ⟨[("a.dll", ⟨"a.dll", .file (fingerprint {} ⟨#[65]⟩)⟩)]⟩⟩)]⟩, dllTree) := by
    simp [CatalogService.catalog, CatalogService.overlayOf, CatalogService.chosen, hspecs, htarget,
      CatalogBuilder.build, CatalogBuilder.forTarget, hscan, hh, bind, Except.bind, pure, Except.pure, Except.map,
      Except.mapError]
    rfl
  obtain ⟨f, hres, hhash, spec, -, -, hcase⟩ := catalogued_file_resolves
    (by unfold PlainName PlainSeg; decide) rfl
    (by unfold PlainName PlainSeg; decide) rfl (by simp [hspecs, hs]) ht hnul hcat (q := "a.dll") rfl
    (p := "a.dll") (r := .file (fingerprint {} ⟨#[65]⟩)) (by simp [PathCatalog.toList]) rfl
  rcases hcase with ⟨id, -, hid, -⟩ | ⟨rfl, -⟩
  · cases hid
  · rw [hj] at hres hhash
    exact ⟨hcat, hres, hhash⟩

end ModMirror
