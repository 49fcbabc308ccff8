import ModMirror.Catalog.Builder
import ModMirror.Proofs.Exclusion
import ModMirror.Proofs.Tree

/-!
# The scan prunes as the flat prefix filter does

A scan walks the sync path's directory, refusing each entry the matcher
names before it enters it, and reports the files it reached and, as
markers, the directories none of whose entries it kept. The planner filters
flat remote catalogs with `matchesPrefix`, which tests a path and every
ancestor at once. In a tree of plain names without links, with the sync
path below a native base and no file standing above it, the two agree:

    e ∈ scan ↔ e is a spared file at or below the sync path
             ∨ e marks a spared directory at or below it with no spared child

(`scan_characterization`). The walk is one step per directory level
(`WF.mem_walkBelow_succ`); by induction on the fuel, which the depth of the
tree bounds, it reaches exactly the entries whose every ancestor below the
start passed the test (`WF.mem_walkBelow`), and a path passes that test at
every level exactly when it is spared (`keptBelow_iff_spares`).
-/

namespace ModMirror

open Text

/-- Entries are kept along a path below a directory: each one on the way passes `keep`. -/
def KeptBelow (keep : String → Bool) : List String → List String → Prop
  | _, [] => True
  | D, c :: sub => keep (nativeOf (D ++ [c])) = true ∧ KeptBelow keep (D ++ [c]) sub

/-- The item the walk reports for the entry at a path. -/
def walkItemAt (D : List String) (isDir : Bool) : WalkItem :=
  ⟨nativeOf D, nativeOf D.dropLast, isDir, false⟩

/-! ## One level of the walk -/

/-- Blocks of paths, one per child of `D` and each under its child, never
share a path. -/
theorem nodup_flatMap_of_below {D l : List String} (hl : l.Nodup) {f : String → List String}
    (hf : ∀ c ∈ l, (f c).Nodup ∧
      ∀ p ∈ f c, ∃ x, (∀ n ∈ D ++ c :: x, PlainName n) ∧ p = nativeOf (D ++ c :: x)) :
    (l.flatMap f).Nodup := by
  rw [List.nodup_flatMap]
  refine ⟨fun c hc => (hf c hc).1, hl.imp_of_mem fun {c c'} hc hc' hne => ?_⟩
  refine List.disjoint_left.mpr fun {p} hp hp' => hne ?_
  obtain ⟨x, hx, rfl⟩ := (hf c hc).2 p hp
  obtain ⟨y, hy, heq⟩ := (hf c' hc').2 _ hp'
  have := List.append_cancel_left (nativeOf_injective hx hy heq)
  exact (List.cons.inj this).1

section Walk

variable {t : FileTree} (ht : t.WF) (keep : String → Bool)
include ht

/-- One level of the walk: a kept child, then what the walk finds below it
when it is a directory. -/
theorem FileTree.WF.mem_walkBelow_succ (fuel : Nat) (D : List String) (i : WalkItem) :
    i ∈ walkBelow t keep (nativeOf D) D (fuel + 1) ↔
      ∃ c node, (D ++ [c], node) ∈ t.entries ∧ keep (nativeOf (D ++ [c])) = true ∧
        (i = walkItemAt (D ++ [c]) node.isDir ∨
          (node = .dir ∧ i ∈ walkBelow t keep (nativeOf (D ++ [c])) (D ++ [c]) fuel)) := by
  simp only [walkBelow, List.mem_flatMap, FileTree.mem_childNames, ← nativeOf_snoc]
  constructor
  · rintro ⟨c, ⟨node, hnode⟩, hi⟩
    have hfind := ht.find?_of_mem hnode
    by_cases hk : keep (nativeOf (D ++ [c])) = true
    · refine ⟨c, node, hnode, hk, ?_⟩
      simp only [hk, Bool.not_true, Bool.false_eq_true, if_false, hfind] at hi
      cases node with
      | dir =>
        rcases List.mem_cons.mp hi with rfl | hi
        · exact .inl (by simp [walkItemAt, Node.isDir])
        · exact .inr ⟨rfl, hi⟩
      | file d =>
        rw [List.mem_singleton.mp hi]
        exact .inl (by simp [walkItemAt, Node.isDir])
      | link target => exact absurd hnode fun h => ht.noLinks _ h target rfl
    · simp [hk] at hi
  · rintro ⟨c, node, hnode, hk, hi⟩
    have hfind := ht.find?_of_mem hnode
    refine ⟨c, ⟨node, hnode⟩, ?_⟩
    simp only [hk, Bool.not_true, Bool.false_eq_true, if_false, hfind]
    rcases hi with rfl | ⟨rfl, hi⟩
    · cases node with
      | dir => simp [walkItemAt, Node.isDir]
      | file d => simp [walkItemAt, Node.isDir]
      | link target => exact absurd hnode fun h => ht.noLinks _ h target rfl
    · exact List.mem_cons_of_mem _ hi

/-- Every item of the walk is an entry strictly below its start, kept at
every level on the way. -/
theorem FileTree.WF.of_mem_walkBelow : ∀ (fuel : Nat) {D : List String} {i : WalkItem},
    i ∈ walkBelow t keep (nativeOf D) D fuel →
      ∃ sub node, sub ≠ [] ∧ (D ++ sub, node) ∈ t.entries ∧ KeptBelow keep D sub ∧
        i = walkItemAt (D ++ sub) node.isDir
  | 0, _, _, h => by simp [walkBelow] at h
  | fuel + 1, D, i, h => by
    obtain ⟨c, node, hnode, hk, rfl | ⟨rfl, hi⟩⟩ := (ht.mem_walkBelow_succ keep fuel D i).mp h
    · exact ⟨[c], node, by simp, hnode, ⟨hk, trivial⟩, rfl⟩
    · obtain ⟨sub, node', -, hsub, hkept, rfl⟩ := FileTree.WF.of_mem_walkBelow fuel hi
      exact ⟨c :: sub, node', by simp, by simpa using hsub, ⟨hk, hkept⟩, by simp⟩

/-- With fuel for the depth of the tree, the walk reaches every entry below
its start that is kept at every level on the way. -/
theorem FileTree.WF.mem_walkBelow_of : ∀ (fuel : Nat) {D sub : List String} {node : Node},
    (∀ e ∈ t.entries, e.1.length ≤ D.length + fuel) → sub ≠ [] → (D ++ sub, node) ∈ t.entries →
      KeptBelow keep D sub → walkItemAt (D ++ sub) node.isDir ∈ walkBelow t keep (nativeOf D) D fuel
  | 0, D, sub, node, hfuel, hsub, hmem, _ => by
    have hlen := hfuel _ hmem
    rw [List.length_append, Nat.add_zero] at hlen
    exact absurd (List.eq_nil_of_length_eq_zero (by omega)) hsub
  | fuel + 1, D, c :: sub, node, hfuel, _, hmem, ⟨hk, hkept⟩ => by
    rw [ht.mem_walkBelow_succ keep fuel D]
    cases sub with
    | nil => exact ⟨c, node, hmem, hk, .inl rfl⟩
    | cons c' sub' =>
      -- a deeper entry: its first ancestor below `D` is a directory entry
      have hmem' : ((D ++ [c]) ++ c' :: sub', node) ∈ t.entries := by simpa using hmem
      have hdir := ht.find?_dir_of_prefix hmem' (by simp)
      have hfuel' : ∀ e ∈ t.entries, e.1.length ≤ (D ++ [c]).length + fuel := by
        intro e he
        have := hfuel e he
        simp only [List.length_append, List.length_singleton]
        omega
      refine ⟨c, .dir, FileTree.mem_of_find? (by simp) hdir, hk, .inr ⟨rfl, ?_⟩⟩
      simpa using FileTree.WF.mem_walkBelow_of fuel hfuel' (by simp) hmem' hkept

/-- The walk reaches exactly the entries below its start kept at every level,
given fuel for the depth of the tree. -/
theorem FileTree.WF.mem_walkBelow (fuel : Nat) {D : List String}
    (hfuel : ∀ e ∈ t.entries, e.1.length ≤ D.length + fuel)
    (i : WalkItem) :
    i ∈ walkBelow t keep (nativeOf D) D fuel ↔
      ∃ sub node, sub ≠ [] ∧ (D ++ sub, node) ∈ t.entries ∧ KeptBelow keep D sub ∧
        i = walkItemAt (D ++ sub) node.isDir := by
  constructor
  · exact ht.of_mem_walkBelow keep fuel
  · rintro ⟨sub, node, hsub, hmem, hkept, rfl⟩
    exact ht.mem_walkBelow_of keep fuel hfuel hsub hmem hkept

theorem FileTree.WF.nodup_walkBelow : ∀ (fuel : Nat) {D : List String},
    ((walkBelow t keep (nativeOf D) D fuel).map (·.path)).Nodup
  | 0, _ => by simp [walkBelow]
  | fuel + 1, D => by
    simp only [walkBelow, List.map_flatMap, ← nativeOf_snoc]
    refine nodup_flatMap_of_below (D := D) (ht.nodup_childNames D) fun c hc => ?_
    obtain ⟨node, hnode⟩ := FileTree.mem_childNames.mp hc
    have hplain : ∀ n ∈ D ++ c :: [], PlainName n := (ht.plain _ hnode).2
    by_cases hk : keep (nativeOf (D ++ [c])) = true
    · simp only [hk, Bool.not_true, Bool.false_eq_true, if_false, ht.find?_of_mem hnode]
      cases node with
      | dir =>
        have hbelow : ∀ i ∈ walkBelow t keep (nativeOf (D ++ [c])) (D ++ [c]) fuel,
            ∃ sub, sub ≠ [] ∧ (∀ n ∈ D ++ c :: sub, PlainName n) ∧ i.path = nativeOf (D ++ c :: sub) := by
          intro i hi
          obtain ⟨sub, node', hsub, hmem, -, rfl⟩ := ht.of_mem_walkBelow keep fuel hi
          exact ⟨sub, hsub, by simpa using (ht.plain _ hmem).2, by simp [walkItemAt]⟩
        refine ⟨?_, ?_⟩
        · refine List.nodup_cons.mpr ⟨?_, FileTree.WF.nodup_walkBelow fuel⟩
          intro hmem
          obtain ⟨i, hi, heq⟩ := List.mem_map.mp hmem
          obtain ⟨sub, hsub, hsubplain, hpath⟩ := hbelow i hi
          have := nativeOf_injective hsubplain hplain (hpath ▸ heq)
          simp_all
        · intro p hp
          rcases List.mem_cons.mp hp with rfl | hp
          · exact ⟨[], hplain, rfl⟩
          · obtain ⟨i, hi, rfl⟩ := List.mem_map.mp hp
            obtain ⟨sub, -, hsubplain, hpath⟩ := hbelow i hi
            exact ⟨sub, hsubplain, hpath⟩
      | file d => exact ⟨by simp, fun p hp => ⟨[], hplain, by simpa using hp⟩⟩
      | link target => exact absurd hnode fun h => ht.noLinks _ h target rfl
    · simp [hk]

end Walk

/-! ## Kept at every level is spared -/

section Spared

variable {m : ExclusionMatcher} {bs : List String} (hm : m.base = ⟨nativeOf bs⟩) (hbs : ∀ n ∈ bs, PlainName n)
include hm hbs

/-- Below a spared sync path, an entry passes the walk's test at every level
exactly when it is spared: the test at each level is the last ancestor
`matchesPrefix` adds (`spares_snoc`). -/
theorem keptBelow_iff_spares (sub : List String) {ls : List String} (hne : ls ≠ [])
    (hplain : ∀ n ∈ ls ++ sub, PlainName n) (hsp : m.Spares (keyOf ls)) :
    KeptBelow (fun p => !m.matchesPath (NormalPath.ofString p)) (bs ++ ls) sub ↔ m.Spares (keyOf (ls ++ sub)) := by
  induction sub generalizing ls with
  | nil =>
    simp only [KeptBelow, List.append_nil]
    exact ⟨fun _ => hsp, fun _ => trivial⟩
  | cons c sub ih =>
    have hchild : ∀ n ∈ ls ++ [c], PlainName n := fun n hn =>
      hplain n (by simp only [List.mem_append, List.mem_cons] at hn ⊢; tauto)
    have hall : ∀ n ∈ bs ++ (ls ++ [c]), PlainName n := fun n hn => by
      rcases List.mem_append.mp hn with hn | hn
      · exact hbs n hn
      · exact hchild n hn
    -- the walk's test at the child is the child's own match
    have hkeep : (!m.matchesPath (NormalPath.ofString (nativeOf (bs ++ (ls ++ [c]))))) = true ↔
        m.Spares (keyOf (ls ++ [c])) := by
      rw [ofString_nativeOf hall, matchesPath_nativeOf hm hbs (by simp) hchild, spares_snoc hne hchild,
        and_iff_right hsp, Bool.not_eq_true']
    have hrest : ∀ n ∈ (ls ++ [c]) ++ sub, PlainName n := by simpa using hplain
    have hkey : ls ++ c :: sub = (ls ++ [c]) ++ sub := by simp
    simp only [KeptBelow]
    rw [List.append_assoc bs ls [c], hkeep, hkey]
    constructor
    · rintro ⟨hsc, hkept⟩
      exact (ih (by simp) hrest hsc).mp hkept
    · intro hsub
      have hsc := ExclusionMatcher.Spares.of_append (by simp) hrest hsub
      exact ⟨hsc, (ih (by simp) hrest hsc).mpr hsub⟩

end Spared

/-- The key the scan gives an entry below the sync path: the sync path's
key, a separator, and the names below it. -/
theorem relativeKey_nativeOf {ls D sub : List String} (hls : ls ≠ []) (hsub : sub ≠ [])
    (hplain : ∀ n ∈ sub, PlainName n) :
    relativeKey (keyOf ls) (nativeOf D) (nativeOf (D ++ sub)) = keyOf (ls ++ sub) := by
  unfold relativeKey
  rw [nativeOf_append_toList D hsub, stripPrefix?_append]
  simp only [unifySlashes_of_no_backslash (no_backslash_keyChars hplain), keyOf_append hls hsub]
  rfl

/-! ## What the scan reports -/

/-- An entry the scan of the sync path `ls` below the base `bs` reports: a
spared file at or below the sync path, or a marker for a spared directory at
or below it none of whose children is spared. -/
def ScannedAt (t : FileTree) (m : ExclusionMatcher) (bs ls : List String) (e : ScannedEntry) : Prop :=
  ∃ rest, m.Spares (keyOf (ls ++ rest)) ∧
    ((∃ d, (bs ++ ls ++ rest, Node.file d) ∈ t.entries ∧
        e = ⟨keyOf (ls ++ rest), nativeOf (bs ++ ls ++ rest), false⟩) ∨
      ((bs ++ ls ++ rest, Node.dir) ∈ t.entries ∧
        (∀ c node, (bs ++ ls ++ rest ++ [c], node) ∈ t.entries → ¬ m.Spares (keyOf (ls ++ rest ++ [c]))) ∧
        e = ⟨keyOf (ls ++ rest), nativeOf (bs ++ ls ++ rest), true⟩))

/-- The list a scan of `ls` below `bs` returns follows the rule: each entry
once, and exactly the entries `ScannedAt` names. -/
def ScanRule (t : FileTree) (m : ExclusionMatcher) (bs ls : List String) (entries : List ScannedEntry) : Prop :=
  entries.Nodup ∧ ∀ e, e ∈ entries ↔ ScannedAt t m bs ls e

section Rule

variable {t : FileTree} (ht : t.WF) {m : ExclusionMatcher} {bs ls : List String}
include ht

/-- The names of a reported path are plain, being those of a tree entry. -/
theorem ScannedAt.plain {e : ScannedEntry} {rest : List String}
    (h : ((∃ d, (bs ++ ls ++ rest, Node.file d) ∈ t.entries ∧
        e = ⟨keyOf (ls ++ rest), nativeOf (bs ++ ls ++ rest), false⟩) ∨
      ((bs ++ ls ++ rest, Node.dir) ∈ t.entries ∧
        (∀ c node, (bs ++ ls ++ rest ++ [c], node) ∈ t.entries → ¬ m.Spares (keyOf (ls ++ rest ++ [c]))) ∧
        e = ⟨keyOf (ls ++ rest), nativeOf (bs ++ ls ++ rest), true⟩))) :
    ∀ x ∈ ls ++ rest, PlainName x := by
  have hmem : ∃ node, (bs ++ ls ++ rest, node) ∈ t.entries := by
    rcases h with ⟨d, hmem, -⟩ | ⟨hmem, -⟩
    · exact ⟨_, hmem⟩
    · exact ⟨_, hmem⟩
  obtain ⟨node, hmem⟩ := hmem
  intro x hx
  exact (ht.plain _ hmem).2 x (by simp only [List.mem_append] at hx ⊢; tauto)

theorem not_scannedAt_of_none (hf : t.find? (bs ++ ls) = none) (e : ScannedEntry) : ¬ ScannedAt t m bs ls e := by
  rintro ⟨rest, -, ⟨d, hmem, -⟩ | ⟨hmem, -, -⟩⟩
  · have := ht.find?_append_of_none hf rest
    rw [ht.find?_of_mem hmem] at this
    cases this
  · have := ht.find?_append_of_none hf rest
    rw [ht.find?_of_mem hmem] at this
    cases this

theorem not_scannedAt_of_excluded (hne : ls ≠ []) (hx : ¬ m.Spares (keyOf ls)) (e : ScannedEntry) :
    ¬ ScannedAt t m bs ls e := by
  rintro ⟨rest, hsp, hcase⟩
  exact hx (ExclusionMatcher.Spares.of_append hne (ScannedAt.plain ht hcase) hsp)

theorem scannedAt_file_iff {d : ByteArray} (hne : ls ≠ []) (hf : t.find? (bs ++ ls) = some (.file d))
    (hsp : m.Spares (keyOf ls)) (e : ScannedEntry) :
    ScannedAt t m bs ls e ↔ e = ⟨keyOf ls, nativeOf (bs ++ ls), false⟩ := by
  have hD : bs ++ ls ≠ [] := by simp [hne]
  constructor
  · rintro ⟨rest, -, hcase⟩
    have hrest : rest = [] := by
      by_contra hrest
      have hmem : ∃ node, (bs ++ ls ++ rest, node) ∈ t.entries := by
        rcases hcase with ⟨d', hmem, -⟩ | ⟨hmem, -⟩
        · exact ⟨_, hmem⟩
        · exact ⟨_, hmem⟩
      obtain ⟨node, hmem⟩ := hmem
      rw [ht.find?_dir_of_prefix hmem hrest] at hf
      cases hf
    subst hrest
    rcases hcase with ⟨d', -, rfl⟩ | ⟨hmem, -, -⟩
    · simp
    · rw [List.append_nil] at hmem
      rw [ht.find?_of_mem hmem] at hf
      cases hf
  · rintro rfl
    exact ⟨[], by simpa using hsp, .inl ⟨d, by simpa using FileTree.mem_of_find? hD hf, by simp⟩⟩

theorem ScannedAt.marker_leaf (hne : ls ≠ []) {e e' : ScannedEntry} (he : ScannedAt t m bs ls e)
    (hdir : e.isDirectory = true) (he' : ScannedAt t m bs ls e') :
    ¬ (e.relative.toList ++ ['/']) <+: e'.relative.toList := by
  intro hpre
  obtain ⟨rest, -, ⟨d, -, rfl⟩ | ⟨hmem, hleaf, rfl⟩⟩ := he
  · cases hdir
  obtain ⟨rest', hsp', hcase'⟩ := he'
  have hplain' := ScannedAt.plain ht hcase'
  obtain ⟨node', hmem'⟩ : ∃ node, (bs ++ ls ++ rest', node) ∈ t.entries := by
    rcases hcase' with ⟨d, hmem', -⟩ | ⟨hmem', -⟩
    · exact ⟨_, hmem'⟩
    · exact ⟨_, hmem'⟩
  have hrel' : e'.relative = keyOf (ls ++ rest') := by
    rcases hcase' with ⟨d, -, rfl⟩ | ⟨-, -, rfl⟩ <;> rfl
  have hplain : ∀ x ∈ ls ++ rest, PlainName x := fun x hx =>
    (ht.plain _ hmem).2 x (by simp only [List.mem_append] at hx ⊢; tauto)
  simp only [hrel', keyOf_toList] at hpre
  -- the second key extends the first past a separator: its path runs through a child of the marker
  obtain ⟨c, more, hext⟩ := exists_cons_of_keyChars_prefix (by simp [hne]) (no_slash_of_plain hplain)
    (by simp [hne]) (no_slash_of_plain hplain') hpre
  obtain rfl : rest' = rest ++ c :: more := by simpa using hext
  obtain ⟨node, hnode⟩ := ht.exists_child (D := bs ++ ls ++ rest) (by simpa using hmem')
  have hsp'' : m.Spares (keyOf (ls ++ rest ++ [c] ++ more)) := by simpa using hsp'
  exact hleaf c node hnode (ExclusionMatcher.Spares.of_append (by simp [hne]) (by simpa using hplain') hsp'')

omit ht in
theorem scanRule_nil (h : ∀ e, ¬ ScannedAt t m bs ls e) : ScanRule t m bs ls [] :=
  ⟨List.nodup_nil, fun e => iff_of_false List.not_mem_nil (h e)⟩

theorem scanRule_file (hne : ls ≠ []) {d : ByteArray} (hf : t.find? (bs ++ ls) = some (.file d))
    (hsp : m.Spares (keyOf ls)) : ScanRule t m bs ls [⟨keyOf ls, nativeOf (bs ++ ls), false⟩] :=
  ⟨List.nodup_singleton _, fun e => by rw [List.mem_singleton, scannedAt_file_iff ht hne hf hsp]⟩

theorem ScanRule.eq_nil_of_none {entries : List ScannedEntry} (h : ScanRule t m bs ls entries)
    (hf : t.find? (bs ++ ls) = none) : entries = [] :=
  List.eq_nil_iff_forall_not_mem.mpr fun e he => not_scannedAt_of_none ht hf e ((h.2 e).mp he)

theorem ScanRule.eq_nil_of_excluded {entries : List ScannedEntry} (h : ScanRule t m bs ls entries)
    (hne : ls ≠ []) (hx : ¬ m.Spares (keyOf ls)) : entries = [] :=
  List.eq_nil_iff_forall_not_mem.mpr fun e he => not_scannedAt_of_excluded ht hne hx e ((h.2 e).mp he)

omit ht in
theorem ScanRule.eq_singleton {entries : List ScannedEntry} (h : ScanRule t m bs ls entries) {e₀ : ScannedEntry}
    (hiff : ∀ e, ScannedAt t m bs ls e ↔ e = e₀) : entries = [e₀] := by
  refine List.perm_singleton.mp ((List.perm_ext_iff_of_nodup h.1 (List.nodup_singleton _)).mpr fun e => ?_)
  rw [h.2 e, hiff e, List.mem_singleton]

theorem ScanRule.eq_singleton_of_file {entries : List ScannedEntry} (h : ScanRule t m bs ls entries)
    (hne : ls ≠ []) {d : ByteArray} (hf : t.find? (bs ++ ls) = some (.file d)) (hsp : m.Spares (keyOf ls)) :
    entries = [⟨keyOf ls, nativeOf (bs ++ ls), false⟩] :=
  h.eq_singleton (scannedAt_file_iff ht hne hf hsp)

theorem ScanRule.marker_leaf {entries : List ScannedEntry} (h : ScanRule t m bs ls entries) (hne : ls ≠ []) :
    ∀ e ∈ entries, e.isDirectory = true → ∀ e' ∈ entries, ¬ (e.relative.toList ++ ['/']) <+: e'.relative.toList :=
  fun e he hdir e' he' => ScannedAt.marker_leaf ht hne ((h.2 e).mp he) hdir ((h.2 e').mp he')

end Rule

/-! ## The listing the scan builds from its walk -/

/-- What a scan lists from the items of its walk below the directory `native`
of the sync path `logical`: an entry for each file item, then a marker for
each directory, the sync path's own among them, that is no item's parent. -/
def scanListing (logical native : String) (items : List WalkItem) : List ScannedEntry :=
  (items.filter fun i => !i.isDir).map
      (fun i => (⟨relativeKey logical native i.path, i.path, false⟩ : ScannedEntry)) ++
    (((native, logical) :: (items.filter fun i => i.isDir).map
        fun i => (i.path, relativeKey logical native i.path)).filter
      fun x => !items.any fun j => j.parent == x.1).map
      fun x => (⟨x.2, x.1, true⟩ : ScannedEntry)

section Listing

variable {t : FileTree} (ht : t.WF) {m : ExclusionMatcher} {bs ls : List String} (hne : ls ≠ [])
  {items : List WalkItem}
  (hitems : ∀ i, i ∈ items ↔ ∃ sub node, sub ≠ [] ∧ (bs ++ ls ++ sub, node) ∈ t.entries ∧
    m.Spares (keyOf (ls ++ sub)) ∧ i = walkItemAt (bs ++ ls ++ sub) node.isDir)
include ht hne hitems

omit hne hitems in
theorem FileTree.WF.plain_below {rest : List String} {node : Node} (hmem : (bs ++ ls ++ rest, node) ∈ t.entries) :
    ∀ n ∈ rest, PlainName n :=
  fun n hn => (ht.plain _ hmem).2 n (List.mem_append_right _ hn)

omit hne in
/-- Some item's parent is a directory at or below the sync path exactly when
that directory has a spared child. -/
theorem exists_item_parent_iff (rest : List String) (hD : ∀ n ∈ bs ++ ls ++ rest, PlainName n) :
    (∃ j ∈ items, j.parent = nativeOf (bs ++ ls ++ rest)) ↔
      ∃ c node, (bs ++ ls ++ rest ++ [c], node) ∈ t.entries ∧ m.Spares (keyOf (ls ++ rest ++ [c])) := by
  constructor
  · rintro ⟨j, hj, hparent⟩
    obtain ⟨sub, node, hsub, hmem, hsp, rfl⟩ := (hitems j).mp hj
    have hdl : ∀ n ∈ (bs ++ ls ++ sub).dropLast, PlainName n :=
      fun n hn => (ht.plain _ hmem).2 n (List.dropLast_subset _ hn)
    -- the parent path determines the item's path up to its last name
    have heq := nativeOf_injective hdl hD hparent
    rw [List.dropLast_append_of_ne_nil hsub] at heq
    have hsubrest : sub.dropLast = rest := List.append_cancel_left heq
    have hsubeq : sub = rest ++ [sub.getLast hsub] := by
      rw [← hsubrest, List.dropLast_append_getLast hsub]
    refine ⟨sub.getLast hsub, node, ?_, ?_⟩
    · rw [hsubeq] at hmem
      simpa using hmem
    · rw [hsubeq] at hsp
      simpa using hsp
  · rintro ⟨c, node, hmem, hsp⟩
    refine ⟨walkItemAt (bs ++ ls ++ rest ++ [c]) node.isDir,
      (hitems _).mpr ⟨rest ++ [c], node, by simp, by simpa using hmem, by simpa using hsp, by simp⟩, ?_⟩
    simp [walkItemAt]

omit hitems in
/-- An entry strictly below the sync path is listed under the sync path's key
and its own names. -/
theorem relativeKey_entry_below {sub : List String} {node : Node} (hsub : sub ≠ [])
    (hmem : (bs ++ ls ++ sub, node) ∈ t.entries) :
    relativeKey (keyOf ls) (nativeOf (bs ++ ls)) (nativeOf (bs ++ (ls ++ sub))) = keyOf (ls ++ sub) := by
  rw [← List.append_assoc]
  exact relativeKey_nativeOf hne hsub (ht.plain_below hmem)

omit hne in
theorem item_path_ne (hD : ∀ n ∈ bs ++ ls, PlainName n) {i : WalkItem} (hi : i ∈ items) :
    i.path ≠ nativeOf (bs ++ ls) := by
  intro heq
  obtain ⟨sub, node, hsub, hmem, -, rfl⟩ := (hitems i).mp hi
  exact hsub (List.append_cancel_left ((nativeOf_injective (ht.plain _ hmem).2 (by simpa using hD) heq).trans
    (List.append_nil _).symm))

omit hne in
/-- The listing names each path once: files and markers differ by their flag,
and within each the walk's paths are distinct. -/
theorem nodup_scanListing (hD : ∀ n ∈ bs ++ ls, PlainName n) (hnodup : (items.map (·.path)).Nodup) :
    (scanListing (keyOf ls) (nativeOf (bs ++ ls)) items).Nodup := by
  unfold scanListing
  refine List.nodup_append.mpr ⟨?_, ?_, ?_⟩
  · refine List.Nodup.of_map (·.native) ?_
    simpa [List.map_map, Function.comp_def] using ((List.filter_sublist (l := items)).map (·.path)).nodup hnodup
  · refine List.Nodup.of_map (·.native) ?_
    rw [List.map_map]
    refine (List.filter_sublist.map _).nodup ?_
    simp only [Function.comp_def, List.map_cons, List.map_map]
    refine List.nodup_cons.mpr ⟨?_, ((List.filter_sublist (l := items)).map (·.path)).nodup hnodup⟩
    simp only [List.mem_map, List.mem_filter, not_exists, not_and]
    exact fun i hi h => item_path_ne ht hitems hD hi.1 h
  · intro a ha b hb hab
    obtain ⟨i, -, rfl⟩ := List.mem_map.mp ha
    obtain ⟨x, -, rfl⟩ := List.mem_map.mp hb
    simp at hab

/-- Every entry listed from the walk below a spared directory sync path is one
the scan rule names. -/
theorem scannedAt_of_mem_scanListing (hdir : (bs ++ ls, Node.dir) ∈ t.entries) (hsp : m.Spares (keyOf ls))
    {e : ScannedEntry} (he : e ∈ scanListing (keyOf ls) (nativeOf (bs ++ ls)) items) :
    ScannedAt t m bs ls e := by
  unfold scanListing at he
  rcases List.mem_append.mp he with hf | hmk
  · -- a file the walk kept
    obtain ⟨i, hi, rfl⟩ := List.mem_map.mp hf
    obtain ⟨hi, hnd⟩ := List.mem_filter.mp hi
    obtain ⟨sub, node, hsub, hmem, hspsub, rfl⟩ := (hitems i).mp hi
    cases node with
    | file d => exact ⟨sub, hspsub, .inl ⟨d, hmem, by simp [walkItemAt, relativeKey_entry_below ht hne hsub hmem]⟩⟩
    | dir => simp [walkItemAt, Node.isDir] at hnd
    | link target => exact absurd hmem fun h => ht.noLinks _ h target rfl
  · -- a directory, the sync path or one the walk kept, that is no item's parent
    obtain ⟨x, hx, rfl⟩ := List.mem_map.mp hmk
    obtain ⟨hx, hleaf⟩ := List.mem_filter.mp hx
    have hnone : ¬ ∃ j ∈ items, j.parent = x.1 := by simpa using hleaf
    rcases List.mem_cons.mp hx with rfl | hx
    · refine ⟨[], by simpa using hsp, .inr ⟨by simpa using hdir, fun c node hc hspc => hnone ?_, by simp⟩⟩
      simpa using (exists_item_parent_iff ht hitems [] (by simpa using (ht.plain _ hdir).2)).mpr
        ⟨c, node, hc, hspc⟩
    · obtain ⟨i, hi, rfl⟩ := List.mem_map.mp hx
      obtain ⟨hi, hisdir⟩ := List.mem_filter.mp hi
      obtain ⟨sub, node, hsub, hmem, hspsub, rfl⟩ := (hitems i).mp hi
      cases node with
      | dir =>
        refine ⟨sub, hspsub, .inr ⟨hmem, fun c node' hc hspc => hnone ?_,
          by simp [walkItemAt, relativeKey_entry_below ht hne hsub hmem]⟩⟩
        simpa [walkItemAt] using (exists_item_parent_iff ht hitems sub (ht.plain _ hmem).2).mpr ⟨c, node', hc, hspc⟩
      | file d => simp [walkItemAt, Node.isDir] at hisdir
      | link target => exact absurd hmem fun h => ht.noLinks _ h target rfl

theorem mem_scanListing_of_scannedAt (hdir : (bs ++ ls, Node.dir) ∈ t.entries) {e : ScannedEntry}
    (he : ScannedAt t m bs ls e) : e ∈ scanListing (keyOf ls) (nativeOf (bs ++ ls)) items := by
  unfold scanListing
  rcases he with ⟨rest, hspr, ⟨d, hmem, rfl⟩ | ⟨hmem, hleaf, rfl⟩⟩
  · -- a file strictly below the sync path, which is a directory
    have hrest : rest ≠ [] := by
      rintro rfl
      have h1 := ht.find?_of_mem hmem
      rw [List.append_nil, ht.find?_of_mem hdir] at h1
      cases h1
    refine List.mem_append_left _ (List.mem_map.mpr ⟨walkItemAt (bs ++ ls ++ rest) false,
      List.mem_filter.mpr ⟨(hitems _).mpr ⟨rest, .file d, hrest, hmem, hspr, rfl⟩, rfl⟩, ?_⟩)
    simp [walkItemAt, relativeKey_entry_below ht hne hrest hmem]
  · have hnone : ¬ ∃ j ∈ items, j.parent = nativeOf (bs ++ ls ++ rest) := fun hj => by
      obtain ⟨c, node, hc, hspc⟩ := (exists_item_parent_iff ht hitems rest (ht.plain _ hmem).2).mp hj
      exact hleaf c node hc hspc
    by_cases hrest : rest = []
    · -- the sync path itself
      subst hrest
      refine List.mem_append_right _ (List.mem_map.mpr ⟨(nativeOf (bs ++ ls), keyOf ls),
        List.mem_filter.mpr ⟨List.mem_cons_self, by simpa using hnone⟩, by simp⟩)
    · refine List.mem_append_right _ (List.mem_map.mpr ⟨(nativeOf (bs ++ ls ++ rest), keyOf (ls ++ rest)),
        List.mem_filter.mpr ⟨List.mem_cons_of_mem _ (List.mem_map.mpr ⟨walkItemAt (bs ++ ls ++ rest) true,
          List.mem_filter.mpr ⟨(hitems _).mpr ⟨rest, .dir, hrest, hmem, hspr, rfl⟩, rfl⟩, ?_⟩),
          by simpa using hnone⟩, rfl⟩)
      simp [walkItemAt, relativeKey_entry_below ht hne hrest hmem]

theorem scanRule_listing (hdir : (bs ++ ls, Node.dir) ∈ t.entries) (hsp : m.Spares (keyOf ls))
    (hnodup : (items.map (·.path)).Nodup) :
    ScanRule t m bs ls (scanListing (keyOf ls) (nativeOf (bs ++ ls)) items) :=
  ⟨nodup_scanListing ht hitems (ht.plain _ hdir).2 hnodup, fun _ =>
    ⟨scannedAt_of_mem_scanListing ht hne hitems hdir hsp, mem_scanListing_of_scannedAt ht hne hitems hdir⟩⟩

end Listing

/-! ## The scan follows the rule -/

section Sanitized

variable {b : CatalogBuilder} {bs : List String} (hbs : ∀ n ∈ bs, PlainName n) (hb : b.base = ⟨nativeOf bs⟩)
  {s logical : String} (hs : Path.sanitize s = .ok logical)
include hbs hb hs

theorem join_sanitized : b.base.join logical = ⟨nativeOf (bs ++ Path.segments logical)⟩ := by
  obtain ⟨hne, hplain, hkey⟩ := sanitize_segments hs
  conv_lhs => rw [← hkey]
  rw [hb, join_nativeOf hbs hplain hne]

theorem excludesTree_sanitized {m : ExclusionMatcher} (hm : m.base = b.base) :
    m.excludesTree ⟨nativeOf (bs ++ Path.segments logical)⟩ = false ↔ m.Spares logical := by
  obtain ⟨hne, hplain, hkey⟩ := sanitize_segments hs
  conv_rhs => rw [← hkey]
  exact (spares_iff_excludesTree (hm.trans hb) hbs hne hplain).symm

theorem scan_of_excluded {t : FileTree} {m : ExclusionMatcher} (hm : m.base = b.base) (hx : ¬ m.Spares logical) :
    b.scan t s m = .ok [] := by
  have hex : m.excludesTree ⟨nativeOf (bs ++ Path.segments logical)⟩ = true := by
    rw [← Bool.not_eq_false]
    exact fun h => hx ((excludesTree_sanitized hbs hb hs hm).mp h)
  simp [CatalogBuilder.scan, hs, Except.mapError, bind, Except.bind, join_sanitized hbs hb hs, hex, pure, Except.pure]

end Sanitized

/-- **The scan prunes as the flat prefix filter does.** In a tree of plain
names without links, a sync path accepted by `sanitize` below a native base,
with no file standing above it, scans without error to a list that follows
the scan rule. -/
theorem scan_followsRule {t : FileTree} (ht : t.WF) {b : CatalogBuilder} {bs : List String}
    (hbs : ∀ n ∈ bs, PlainName n) (hb : b.base = ⟨nativeOf bs⟩) {m : ExclusionMatcher} (hm : m.base = b.base)
    {s logical : String} (hs : Path.sanitize s = .ok logical)
    (hnf : ∀ k < (bs ++ Path.segments logical).length, ∀ d,
      t.find? ((bs ++ Path.segments logical).take k) ≠ some (.file d)) :
    ∃ entries, b.scan t s m = .ok entries ∧ ScanRule t m bs (Path.segments logical) entries := by
  obtain ⟨hne, hplain, hkey⟩ := sanitize_segments hs
  have hroot := join_sanitized hbs hb hs
  by_cases hsp : m.Spares logical
  swap
  · exact ⟨[], scan_of_excluded hbs hb hs hm hsp, scanRule_nil (not_scannedAt_of_excluded ht hne (by rwa [hkey]))⟩
  have hex := (excludesTree_sanitized hbs hb hs hm).mpr hsp
  generalize Path.segments logical = ls at hne hplain hkey hnf hroot hex ⊢
  subst hkey
  have hm' : m.base = ⟨nativeOf bs⟩ := hm.trans hb
  have hD : ∀ n ∈ bs ++ ls, PlainName n := plain_append hbs hplain
  have hDne : bs ++ ls ≠ [] := by simp [hne]
  cases hf : t.find? (bs ++ ls) with
  | none =>
    refine ⟨[], ?_, scanRule_nil (not_scannedAt_of_none ht hf)⟩
    simp [CatalogBuilder.scan, hs, Except.mapError, bind, Except.bind, hroot, hex,
      ht.metadata_nativeOf_none hD hnf hf, pure, Except.pure]
  | some node =>
    cases node with
    | file d =>
      refine ⟨_, ?_, scanRule_file ht hne hf hsp⟩
      simp [CatalogBuilder.scan, hs, Except.mapError, bind, Except.bind, hroot, hex,
        ht.metadata_nativeOf_file hD hnf hf, pure, Except.pure]
    | dir =>
      -- the walk below the sync path reaches exactly the spared entries below it
      have hfuel : ∀ e ∈ t.entries, e.1.length ≤ (bs ++ ls).length + (t.entries.length + 1) :=
        fun e he => by have := ht.length_le_of_mem he; omega
      have hitems : ∀ i, i ∈ walkBelow t (fun p => !m.matchesPath (NormalPath.ofString p)) (nativeOf (bs ++ ls))
          (bs ++ ls) (t.entries.length + 1) ↔ ∃ sub node, sub ≠ [] ∧ (bs ++ ls ++ sub, node) ∈ t.entries ∧
            m.Spares (keyOf (ls ++ sub)) ∧ i = walkItemAt (bs ++ ls ++ sub) node.isDir := by
        intro i
        rw [ht.mem_walkBelow _ _ hfuel]
        -- kept at every level below the sync path is spared
        refine exists_congr fun sub => exists_congr fun node => and_congr_right fun _ => ?_
        refine and_congr_right fun hmem => and_congr_left fun _ => ?_
        have hplain' : ∀ n ∈ ls ++ sub, PlainName n := fun n hn =>
          (ht.plain _ hmem).2 n (by simp only [List.mem_append] at hn ⊢; tauto)
        exact keptBelow_iff_spares hm' hbs sub hne hplain' hsp
      have hkept : (walkBelow t (fun p => !m.matchesPath (NormalPath.ofString p)) (nativeOf (bs ++ ls))
          (bs ++ ls) (t.entries.length + 1)).filter (fun i => !(i.isLink && t.isDir i.path)) =
          walkBelow t (fun p => !m.matchesPath (NormalPath.ofString p)) (nativeOf (bs ++ ls))
            (bs ++ ls) (t.entries.length + 1) := by
        refine List.filter_eq_self.mpr fun i hi => ?_
        obtain ⟨sub, node, -, -, -, rfl⟩ := (hitems i).mp hi
        simp [walkItemAt]
      refine ⟨_, ?_, scanRule_listing ht hne hitems (FileTree.mem_of_find? hDne hf) hsp
        (ht.nodup_walkBelow _ (t.entries.length + 1))⟩
      simp only [CatalogBuilder.scan, hs, Except.mapError, bind, Except.bind, hroot, hex,
        ht.metadata_nativeOf_dir hD hnf hf, ht.symlinkMetadata_nativeOf_dir hD hnf hf,
        ht.resolve_nativeOf_of_some hD hnf true hf, hkept, pure, Except.pure, Bool.false_eq_true, if_false,
        scanListing]
    | link target => exact absurd hf ht.not_link

/-- A scan that succeeds follows the rule: a file standing above a spared
sync path would have failed it. -/
theorem scan_ok_followsRule {t : FileTree} (ht : t.WF) {b : CatalogBuilder} {bs : List String}
    (hbs : ∀ n ∈ bs, PlainName n) (hb : b.base = ⟨nativeOf bs⟩) {m : ExclusionMatcher} (hm : m.base = b.base)
    {s : String} {entries : List ScannedEntry} (h : b.scan t s m = .ok entries) :
    ∃ logical, Path.sanitize s = .ok logical ∧ ScanRule t m bs (Path.segments logical) entries := by
  cases hs : Path.sanitize s with
  | error e => simp [CatalogBuilder.scan, hs, Except.mapError, bind, Except.bind] at h
  | ok logical =>
    refine ⟨logical, rfl, ?_⟩
    obtain ⟨hne, hplain, hkey⟩ := sanitize_segments hs
    by_cases hsp : m.Spares logical
    · by_cases hnf : ∀ k < (bs ++ Path.segments logical).length, ∀ d,
          t.find? ((bs ++ Path.segments logical).take k) ≠ some (.file d)
      · obtain ⟨entries', h', hrule⟩ := scan_followsRule ht hbs hb hm hs hnf
        rw [h] at h'
        cases h'
        exact hrule
      · -- the walk to the sync path meets the file and fails
        push Not at hnf
        obtain ⟨k, hk, d, hf⟩ := hnf
        simp [CatalogBuilder.scan, hs, Except.mapError, bind, Except.bind, join_sanitized hbs hb hs,
          (excludesTree_sanitized hbs hb hs hm).mpr hsp,
          ht.metadata_nativeOf_through_file (plain_append hbs hplain) hk hf, ENOTDIR, ENOENT,
          throw, throwThe, MonadExceptOf.throw] at h
    · rw [scan_of_excluded hbs hb hs hm hsp] at h
      cases h
      exact scanRule_nil (not_scannedAt_of_excluded ht hne (by rwa [hkey]))

/-- **The scan reports the spared entries at or below the sync path.** Under
the hypotheses of `scan_followsRule`, the scan succeeds; its result follows
the scan rule; no marker in it has another entry below it; it is empty when
the sync path is missing or excluded; and a spared file sync path yields
itself alone. -/
theorem scan_characterization {t : FileTree} (ht : t.WF) {b : CatalogBuilder} {bs : List String}
    (hbs : ∀ n ∈ bs, PlainName n) (hb : b.base = ⟨nativeOf bs⟩) {m : ExclusionMatcher} (hm : m.base = b.base)
    {s logical : String} (hs : Path.sanitize s = .ok logical)
    (hnf : ∀ k < (bs ++ Path.segments logical).length, ∀ d,
      t.find? ((bs ++ Path.segments logical).take k) ≠ some (.file d)) :
    ∃ entries, b.scan t s m = .ok entries ∧ ScanRule t m bs (Path.segments logical) entries ∧
      (∀ e ∈ entries, e.isDirectory = true →
        ∀ e' ∈ entries, ¬ (e.relative.toList ++ ['/']) <+: e'.relative.toList) ∧
      ((t.find? (bs ++ Path.segments logical) = none ∨ ¬ m.Spares logical) → entries = []) ∧
      (∀ d, t.find? (bs ++ Path.segments logical) = some (.file d) → m.Spares logical →
        entries = [⟨logical, nativeOf (bs ++ Path.segments logical), false⟩]) := by
  obtain ⟨entries, hscan, hrule⟩ := scan_followsRule ht hbs hb hm hs hnf
  obtain ⟨hne, -, hkey⟩ := sanitize_segments hs
  refine ⟨entries, hscan, hrule, hrule.marker_leaf ht hne, ?_, ?_⟩
  · rintro (hf | hx)
    · exact hrule.eq_nil_of_none ht hf
    · exact hrule.eq_nil_of_excluded ht hne (by rwa [hkey])
  · intro d hf hsp
    have hone := hrule.eq_singleton_of_file ht hne hf (by rwa [hkey])
    rwa [hkey] at hone

/-- A directory holding a file and an excluded log directory scans under the rule. -/
theorem scan_characterization_mods :
    (FileTree.mk [(["mods"], .dir), (["mods", "a.dll"], .file .empty), (["mods", "x"], .dir),
      (["mods", "x", "b.log"], .file .empty)]).WF ∧
    ∃ entries, ({ base := ⟨nativeOf []⟩ } : CatalogBuilder).scan
        (FileTree.mk [(["mods"], .dir), (["mods", "a.dll"], .file .empty), (["mods", "x"], .dir),
          (["mods", "x", "b.log"], .file .empty)]) "mods"
        ⟨⟨nativeOf []⟩, [(ExclusionSet.compile ["mods/x/*.log"]).toOption.getD {}]⟩ = .ok entries ∧
      ScanRule (FileTree.mk [(["mods"], .dir), (["mods", "a.dll"], .file .empty), (["mods", "x"], .dir),
          (["mods", "x", "b.log"], .file .empty)])
        ⟨⟨nativeOf []⟩, [(ExclusionSet.compile ["mods/x/*.log"]).toOption.getD {}]⟩ [] ["mods"] entries := by
  have ht : (FileTree.mk [(["mods"], .dir), (["mods", "a.dll"], .file .empty), (["mods", "x"], .dir),
      (["mods", "x", "b.log"], .file .empty)]).WF := by
    refine ⟨by decide, ?_, ?_, ?_⟩
    · unfold PlainName PlainSeg
      decide
    · intro e he
      simp only [List.mem_cons, List.not_mem_nil, or_false] at he
      rcases he with rfl | rfl | rfl | rfl <;> rfl
    · intro e he target
      simp only [List.mem_cons, List.not_mem_nil, or_false] at he
      rcases he with rfl | rfl | rfl | rfl <;> simp
  have hs : Path.sanitize "mods" = .ok "mods" := by decide
  have hseg : Path.segments "mods" = ["mods"] := by decide
  obtain ⟨entries, hscan, hrule, -⟩ := scan_characterization ht (b := { base := ⟨nativeOf []⟩ })
    (by simp : ∀ n ∈ ([] : List String), PlainName n) rfl
    (m := ⟨⟨nativeOf []⟩, [(ExclusionSet.compile ["mods/x/*.log"]).toOption.getD {}]⟩) rfl hs (by
    rw [hseg]
    intro k hk d
    obtain rfl : k = 0 := by simpa using hk
    simp [FileTree.find?])
  exact ⟨ht, entries, hscan, by rwa [hseg] at hrule⟩

/-- A sync path below a regular file fails with the error of the file system:
the file is not a directory. -/
theorem scan_below_file_errors :
    (({ base := ⟨nativeOf []⟩ } : CatalogBuilder).scan ⟨[(["a.dll"], .file .empty)]⟩ "a.dll/x"
      ⟨⟨nativeOf []⟩, []⟩) = .error (.fs (.io "$ROOT/a.dll/x" (.os ENOTDIR))) := by
  have hs : Path.sanitize "a.dll/x" = .ok "a.dll/x" := by decide
  have hj : (⟨nativeOf []⟩ : NormalPath).join "a.dll/x" = ⟨"$ROOT/a.dll/x"⟩ := by decide
  have hx : (⟨⟨nativeOf []⟩, []⟩ : ExclusionMatcher).excludesTree ⟨"$ROOT/a.dll/x"⟩ = false := by decide
  have hn : namesOf "$ROOT/a.dll/x" = some ["a.dll", "x"] := by decide
  -- the walk meets the file with a name still to resolve
  have hw : (FileTree.mk [(["a.dll"], .file .empty)]).walk true [] ["a.dll", "x"] 40 = .error (.os ENOTDIR) := by
    simp [FileTree.walk, FileTree.find?]
  simp [CatalogBuilder.scan, hs, hj, hx, Except.mapError, bind, Except.bind, FileTree.metadata,
    FileTree.resolve, hn, hw, ENOTDIR, ENOENT, throw, throwThe, MonadExceptOf.throw]

end ModMirror
