import ModMirror.Proofs.Resolve
import ModMirror.Proofs.Write
import ModMirror.Proofs.Build

/-!
# Provisioning overlays

An identity's overlay is made the first time the identity is seen: its
directory directly below the overlay root, copied from the seed when there
is one, made empty otherwise. Each step of the copy puts one entry at the
destination followed by the names of an entry below the seed, so a
well-formed tree whose names hold no NUL stays so, and afterwards the
directory is there and provisioning again changes nothing:

    o.provision id t = .ok (dir, t') →
      dir = ⟨nativeOf (os ++ [id])⟩ ∧ t'.WF ∧ t'.NoNul ∧ t'.pathExists dir.text   (provision_spec)
-/

namespace ModMirror

open Text

/-- No name along any entry of the tree holds the NUL character, as no file
system allows. -/
def FileTree.NoNul (t : FileTree) : Prop := ∀ e ∈ t.entries, ∀ n ∈ e.1, '\x00' ∉ n.toList

namespace FileTree

theorem NoNul.put {t : FileTree} (h : t.NoNul) {D : List String} (hD : ∀ n ∈ D, '\x00' ∉ n.toList) (n : Node) :
    (t.put D n).NoNul := by
  intro e he
  rcases mem_put he with he | rfl
  · exact h e he
  · exact hD

section Ops

variable {t t' : FileTree} (ht : t.WF) {D : List String} (hD : ∀ n ∈ D, PlainName n)
include ht hD

theorem WF.createDirAll_noNul (hnul : t.NoNul) (hDnul : ∀ n ∈ D, '\x00' ∉ n.toList) (fuel : Nat)
    (h : createDirAll.go t (nativeOf D) fuel = .ok t') : t'.NoNul := by
  intro e he
  rcases (ht.createDirAll_go_spec hD fuel h).within e he with he | hp
  · exact hnul e he
  · exact fun n hn => hDnul n (hp.subset hn)

end Ops

theorem mem_entriesBelow {t : FileTree} : ∀ (fuel : Nat) {R names : List String} {isDir : Bool},
    (names, isDir) ∈ t.entriesBelow R fuel → ∃ sub node, sub ≠ [] ∧ names = R ++ sub ∧ (R ++ sub, node) ∈ t.entries
  | 0, _, _, _, h => by simp [entriesBelow] at h
  | fuel + 1, R, names, isDir, h => by
    simp only [entriesBelow, List.mem_flatMap] at h
    obtain ⟨c, hc, hmem⟩ := h
    obtain ⟨node, hnode⟩ := mem_childNames.mp hc
    split at hmem
    · rcases List.mem_cons.mp hmem with heq | hmem
      · cases heq
        exact ⟨[c], node, by simp, rfl, hnode⟩
      · obtain ⟨sub, node', -, rfl, hsub⟩ := mem_entriesBelow fuel hmem
        exact ⟨c :: sub, node', by simp, by simp, by simpa using hsub⟩
    · cases List.mem_singleton.mp hmem
      exact ⟨[c], node, by simp, rfl, hnode⟩

theorem intercalate_slash (sub : List String) : "/".intercalate sub = keyOf sub := by
  rw [← String.toList_inj, String.toList_intercalate, keyOf_toList, keyChars, joinWith_eq_intercalate]
  rfl

theorem nativeOf_append_intercalate (D : List String) {sub : List String} (hsub : sub ≠ []) :
    nativeOf D ++ "/" ++ "/".intercalate sub = nativeOf (D ++ sub) := by
  rw [← String.toList_inj, nativeOf_append_toList D hsub, intercalate_slash]
  simp

/-! ## Native paths of present entries -/

section Present

variable {t : FileTree} (ht : t.WF)
include ht

theorem WF.noFileAbove {D : List String} {node : Node} (h : (D, node) ∈ t.entries) :
    ∀ k < D.length, ∀ d, t.find? (D.take k) ≠ some (.file d) := by
  intro k hk d hf
  have hsplit : (D.take k ++ D.drop k, node) ∈ t.entries := by simpa using h
  have hdir := ht.find?_dir_of_prefix hsplit (by simpa using hk)
  rw [hdir] at hf
  cases hf

theorem WF.noFileAbove_of_find? {D : List String} {node : Node} (h : t.find? D = some node) :
    ∀ k < D.length, ∀ d, t.find? (D.take k) ≠ some (.file d) := by
  by_cases hne : D = []
  · simp [hne]
  · exact ht.noFileAbove (mem_of_find? hne h)

theorem WF.pathExists_nativeOf {D : List String} (hD : ∀ n ∈ D, PlainName n) {node : Node}
    (h : t.find? D = some node) : t.pathExists (nativeOf D) = true := by
  have habove := ht.noFileAbove_of_find? h
  cases node with
  | file d => simp [pathExists, Except.toBool, ht.metadata_nativeOf_file hD habove h]
  | dir => simp [pathExists, Except.toBool, ht.metadata_nativeOf_dir hD habove h]
  | link target => exact absurd h ht.not_link

theorem WF.find?_of_isFile {D : List String} (hD : ∀ n ∈ D, PlainName n) (h : t.isFile (nativeOf D) = true) :
    ∃ d, t.find? D = some (.file d) := by
  unfold isFile at h
  cases hm : t.metadata (nativeOf D) with
  | error e => simp [hm] at h
  | ok k =>
    rcases ht.metadata_nativeOf_eq_ok hD hm with ⟨d, hf, -⟩ | ⟨-, rfl⟩
    · exact ⟨d, hf⟩
    · simp [hm] at h

theorem WF.find?_of_pathExists {D : List String} (hD : ∀ n ∈ D, PlainName n)
    (h : t.pathExists (nativeOf D) = true) : t.find? D ≠ none := by
  unfold pathExists at h
  cases hm : t.metadata (nativeOf D) with
  | error e => simp [hm, Except.toBool] at h
  | ok k => rcases ht.metadata_nativeOf_eq_ok hD hm with ⟨d, hf, -⟩ | ⟨hf, -⟩ <;> simp [hf]

theorem WF.pathExists_of_find?_none {D : List String} (hD : ∀ n ∈ D, PlainName n) (h : t.find? D = none) :
    t.pathExists (nativeOf D) = false :=
  Bool.eq_false_iff.mpr fun hx => ht.find?_of_pathExists hD hx h

end Present

section Copy

variable {t t' : FileTree} (ht : t.WF) (hnul : t.NoNul)
include ht hnul

theorem WF.createDirAll_nativeOf {D : List String} (hD : ∀ n ∈ D, PlainName n ∧ '\x00' ∉ n.toList)
    (h : t.createDirAll (nativeOf D) = .ok t') :
    t'.WF ∧ t'.NoNul ∧ t'.find? D = some .dir ∧ ∀ E n, t.find? E = some n → t'.find? E = some n := by
  have hplain : ∀ n ∈ D, PlainName n := fun n hn => (hD n hn).1
  obtain ⟨ht', hdir, hkeep, -⟩ := ht.createDirAll_go_spec hplain _ h
  exact ⟨ht', ht.createDirAll_noNul hplain hnul (fun n hn => (hD n hn).2) _ h, hdir, hkeep⟩

theorem WF.makeParent_nativeOf {D : List String} (hD : ∀ n ∈ D, PlainName n ∧ '\x00' ∉ n.toList) (hne : D ≠ [])
    (h : t.makeParent (nativeOf D) = .ok t') :
    t'.WF ∧ t'.NoNul ∧ ∀ E n, t.find? E = some n → t'.find? E = some n := by
  obtain ⟨D', c, rfl⟩ := List.eq_nil_or_concat D |>.resolve_left hne
  rw [List.concat_eq_append] at hD
  have hD' : ∀ n ∈ D', PlainName n ∧ '\x00' ∉ n.toList := fun n hn => hD n (List.mem_append_left _ hn)
  unfold makeParent at h
  rw [List.concat_eq_append, parentText_nativeOf_snoc (fun n hn => (hD' n hn).1) (hD c (by simp)).1] at h
  simp only at h
  cases hc : t.createDirAll (nativeOf D') with
  | error e => simp [hc, Except.mapError] at h
  | ok t1 =>
    simp only [hc, Except.mapError, Except.ok.injEq] at h
    subst h
    obtain ⟨ht1, hnul1, -, hkeep⟩ := ht.createDirAll_nativeOf hnul hD' hc
    exact ⟨ht1, hnul1, hkeep⟩

theorem WF.copyFile_nativeOf {src : String} {D : List String} (hD : ∀ n ∈ D, PlainName n ∧ '\x00' ∉ n.toList)
    (h : t.copyFile src (nativeOf D) = .ok t') : ∃ data, t' = t.put D (.file data) ∧ t'.WF ∧ t'.NoNul := by
  have hplain : ∀ n ∈ D, PlainName n := fun n hn => (hD n hn).1
  unfold copyFile at h
  split at h
  · cases hr : t.readFile src with
    | error e => simp [hr, Except.mapError, bind, Except.bind] at h
    | ok data =>
      simp only [hr, Except.mapError, bind, Except.bind] at h
      cases hw : t.writeFile (nativeOf D) data with
      | error e => simp [hw] at h
      | ok t1 =>
        simp only [hw, Except.ok.injEq] at h
        subst h
        obtain ⟨rfl, hput⟩ := ht.writeFile_nativeOf hplain hw
        exact ⟨data, rfl, ht.of_putsAt hplain hput (by simp), hnul.put (fun n hn => (hD n hn).2) _⟩
  · cases h
  · cases h

/-- Copying a directory tree into a plain destination keeps the tree well
formed and its names free of NUL, and leaves a directory at the destination:
each copied entry lands at the destination followed by its names below the source. -/
theorem WF.copyDirAll_nativeOf {src : String} {D : List String} (hD : ∀ n ∈ D, PlainName n ∧ '\x00' ∉ n.toList)
    {k : Nat} (h : t.copyDirAll src (nativeOf D) = .ok (k, t')) :
    t'.WF ∧ t'.NoNul ∧ t'.find? D = some .dir := by
  unfold copyDirAll at h
  cases hc : t.createDirAll (nativeOf D) with
  | error e => simp [hc, Except.mapError, bind, Except.bind] at h
  | ok t1 =>
    obtain ⟨ht1, hnul1, hdir1, -⟩ := ht.createDirAll_nativeOf hnul hD hc
    cases hr : t1.resolve src true with
    | error e => simp [hc, hr, Except.mapError, bind, Except.bind] at h
    | ok R =>
      simp only [hc, hr, Except.mapError, bind, Except.bind] at h
      -- every step writes at the destination followed by the names of a copied entry
      refine foldlM_invariant (fun st : Nat × FileTree => st.2.WF ∧ st.2.NoNul ∧ st.2.find? D = some .dir)
        ?_ ⟨ht1, hnul1, hdir1⟩ h
      rintro ⟨n, u⟩ ⟨names, isDir⟩ ⟨n', u'⟩ hmem ⟨hu, hnulu, hdiru⟩ hstep
      obtain ⟨sub, node, hsub, rfl, hentry⟩ := mem_entriesBelow _ hmem
      have hnames : ∀ x ∈ D ++ sub, PlainName x ∧ '\x00' ∉ x.toList := by
        intro x hx
        rcases List.mem_append.mp hx with hx | hx
        · exact hD x hx
        · have hx' : x ∈ R ++ sub := List.mem_append_right _ hx
          exact ⟨(ht1.plain _ hentry).2 x hx', hnul1 _ hentry x hx'⟩
      have hne : D ++ sub ≠ D := fun heq => hsub (by simpa using heq)
      simp only [List.drop_left, nativeOf_append_intercalate D hsub] at hstep
      split at hstep
      · cases hd : u.createDirAll (nativeOf (D ++ sub)) with
        | error e => simp [hd] at hstep
        | ok u1 =>
          simp only [hd, pure, Except.pure, Except.ok.injEq, Prod.mk.injEq] at hstep
          obtain ⟨-, rfl⟩ := hstep
          obtain ⟨hu1, hnul1', -, hkeep⟩ := hu.createDirAll_nativeOf hnulu hnames hd
          exact ⟨hu1, hnul1', hkeep _ _ hdiru⟩
      · cases hp : u.makeParent (nativeOf (D ++ sub)) with
        | error e => simp [hp] at hstep
        | ok u1 =>
          obtain ⟨hu1, hnulu1, hkeep⟩ := hu.makeParent_nativeOf hnulu hnames (by simp [hsub]) hp
          cases hf : u1.copyFile (nativeOf (R ++ sub)) (nativeOf (D ++ sub)) with
          | error e => simp [hp, hf] at hstep
          | ok u2 =>
            simp only [hp, hf, pure, Except.pure, Except.ok.injEq, Prod.mk.injEq] at hstep
            obtain ⟨-, rfl⟩ := hstep
            obtain ⟨data, rfl, hu2, hnulu2⟩ := hu1.copyFile_nativeOf hnulu1 hnames hf
            exact ⟨hu2, hnulu2, by rw [find?_put_of_ne hne.symm]; exact hkeep _ _ hdiru⟩

end Copy

end FileTree

namespace OverlayStore

theorem provision_of_pathExists {o : OverlayStore} {id : String} {t : FileTree} {dir : NormalPath}
    (hd : o.dirFor id = .ok dir) (hex : t.pathExists dir.text = true) : o.provision id t = .ok (dir, t) := by
  simp [provision, hd, hex, bind, Except.bind, pure, Except.pure]

/-- **Provisioning keeps the tree sound.** Below an overlay root of plain
names, the directory of an accepted identity is its name directly below the
root; provisioning it keeps a tree well formed with names free of NUL, and
leaves something there, so provisioning again changes nothing. -/
theorem provision_spec {o : OverlayStore} {os : List String} (hos : ∀ n ∈ os, PlainName n ∧ '\x00' ∉ n.toList)
    (ho : o.root = ⟨nativeOf os⟩) {t t' : FileTree} (ht : t.WF) (hnul : t.NoNul) {id : String} {dir : NormalPath}
    (h : o.provision id t = .ok (dir, t')) :
    dir = ⟨nativeOf (os ++ [id])⟩ ∧ t'.WF ∧ t'.NoNul ∧ t'.pathExists dir.text = true := by
  have hd := provision_ok h
  obtain ⟨hv, -, hdir⟩ := dirFor_ok hd
  have hD : ∀ n ∈ os ++ [id], PlainName n ∧ '\x00' ∉ n.toList := by
    intro n hn
    rcases List.mem_append.mp hn with hn | hn
    · exact hos n hn
    · rw [List.mem_singleton.mp hn]
      exact ⟨plainName_of_validateIdentifier hv, nul_not_mem_of_validateIdentifier hv⟩
  have hplain : ∀ n ∈ os ++ [id], PlainName n := fun n hn => (hD n hn).1
  have hdir' : dir = ⟨nativeOf (os ++ [id])⟩ := by
    rw [hdir, ho]
    exact join_plainName_nativeOf (fun n hn => (hos n hn).1) (plainName_of_validateIdentifier hv)
  subst hdir'
  refine ⟨rfl, ?_⟩
  rcases (provision_eq_ok h).2 with ⟨hex, rfl⟩ | ⟨-, -, k, hc⟩ | ⟨-, -, hc⟩
  · exact ⟨ht, hnul, hex⟩
  · obtain ⟨ht₁, hnul₁, hdir₁⟩ := ht.copyDirAll_nativeOf hnul hD hc
    exact ⟨ht₁, hnul₁, ht₁.pathExists_nativeOf hplain hdir₁⟩
  · obtain ⟨ht₁, hnul₁, hdir₁, -⟩ := ht.createDirAll_nativeOf hnul hD hc
    exact ⟨ht₁, hnul₁, ht₁.pathExists_nativeOf hplain hdir₁⟩

end OverlayStore

end ModMirror
