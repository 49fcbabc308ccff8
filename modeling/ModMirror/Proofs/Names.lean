import Mathlib
import ModMirror.Fs.Tree
import ModMirror.Path.Relative

/-!
# Paths of plain names

Inside the tree a path is a list of names. A *plain* name is one a directory
can hold: not empty, not `.` or `..`, and free of both separators. For paths
of plain names every text the library builds from them is a faithful
spelling, which the walk, the exclusion matcher and the scan rely on:

    (keyChars names).splitOn '/' = names.map toList             (splitOn_keyChars)
    (nativeOf names).toList = keyChars (treeRoot :: names)      (nativeOf_toList)
    NormalPath.ofString (nativeOf names) = ⟨nativeOf names⟩      (ofString_nativeOf)
    ⟨nativeOf bs⟩.join (keyOf ls) = ⟨nativeOf (bs ++ ls)⟩        (join_nativeOf)
    namesOf (nativeOf names) = some names                       (namesOf_nativeOf)

and a sync path accepted by `sanitize` is the key of its plain segments
(`sanitize_segments`).
-/

namespace ModMirror

open Text ModMirror.Path

/-- A piece of path text that is one plain name. -/
def PlainSeg (cs : List Char) : Prop :=
  cs ≠ [] ∧ cs ≠ ['.'] ∧ cs ≠ ['.', '.'] ∧ '/' ∉ cs ∧ '\\' ∉ cs

/-- A name a directory can hold, written with neither separator. -/
def PlainName (n : String) : Prop := PlainSeg n.toList

instance (cs : List Char) : Decidable (PlainSeg cs) :=
  inferInstanceAs (Decidable (cs ≠ [] ∧ cs ≠ ['.'] ∧ cs ≠ ['.', '.'] ∧ '/' ∉ cs ∧ '\\' ∉ cs))

instance : DecidablePred PlainName := fun n => inferInstanceAs (Decidable (PlainSeg n.toList))

theorem plainSeg_of_not_dots {s : List Char} (hdot : ¬(s = [] ∨ s = ['.'])) (hup : ¬s = ['.', '.'])
    (hsep : '/' ∉ s ∧ '\\' ∉ s) : PlainSeg s :=
  ⟨fun e => hdot (.inl e), fun e => hdot (.inr e), hup, hsep.1, hsep.2⟩

/-- The relative text of a path given by its names: the names joined by `/`. -/
def keyChars (names : List String) : List Char := joinWith '/' (names.map String.toList)

/-- The relative key of a path given by its names, as a text. -/
def keyOf (names : List String) : String := String.ofList (keyChars names)

/-- The names of a relative path text, split at every `/`. -/
def Path.segments (p : String) : List String := (p.toList.splitOn '/').map String.ofList

@[simp] theorem keyOf_toList (names : List String) : (keyOf names).toList = keyChars names :=
  String.toList_ofList

theorem plainName_treeRoot : PlainName treeRoot := by
  simp [PlainName, PlainSeg, treeRoot]

theorem treeRoot_toList : treeRoot.toList = ['$', 'R', 'O', 'O', 'T'] := by
  simp [treeRoot]

/-! ## Text -/

theorem unifySlashes_of_no_backslash {cs : List Char} (h : '\\' ∉ cs) : unifySlashes cs = cs := by
  rw [unifySlashes_eq_map]
  conv_rhs => rw [← List.map_id cs]
  apply List.map_congr_left
  intro c hc
  have hne : c ≠ '\\' := fun e => h (e ▸ hc)
  simp [slashOf, hne]

theorem mem_of_mem_splitOn {sep x : Char} : ∀ {cs w : List Char}, w ∈ cs.splitOn sep → x ∈ w →
    x ∈ cs ∧ x ≠ sep
  | [], w, hw, hx => by simp [List.splitOn_nil] at hw; subst hw; simp at hx
  | c :: cs, w, hw, hx => by
    rw [List.splitOn_cons_eq_if_modifyHead] at hw
    split_ifs at hw with hc
    · rcases List.mem_cons.mp hw with rfl | hw
      · simp at hx
      · exact (mem_of_mem_splitOn hw hx).imp (List.mem_cons_of_mem _) id
    · obtain ⟨r, rs, hr⟩ := List.exists_cons_of_ne_nil (List.splitOn_ne_nil sep cs)
      rw [hr, List.modifyHead_cons] at hw
      rcases List.mem_cons.mp hw with rfl | hw
      · rcases List.mem_cons.mp hx with rfl | hx
        · exact ⟨List.mem_cons_self, by simpa using hc⟩
        · exact (mem_of_mem_splitOn (hr ▸ List.mem_cons_self) hx).imp (List.mem_cons_of_mem _) id
      · exact (mem_of_mem_splitOn (hr ▸ List.mem_cons_of_mem _ hw) hx).imp (List.mem_cons_of_mem _) id

theorem mem_of_mem_splitRoot {x : Char} {cs : List Char} (h : x ∈ (splitRoot cs).2) : x ∈ cs := by
  unfold splitRoot at h
  split at h
  · simp only [trimStart] at h
    exact List.mem_cons_of_mem _ (List.mem_cons_of_mem _ (List.mem_cons_of_mem _ ((List.dropWhile_suffix _).subset h)))
  · exact List.mem_cons_of_mem _ (List.mem_cons_of_mem _ h)
  · simp only [trimStart] at h
    exact List.mem_cons_of_mem _ ((List.dropWhile_suffix _).subset h)
  · split at h
    · simp only [trimStart] at h
      exact List.mem_cons_of_mem _ (List.mem_cons_of_mem _ ((List.dropWhile_suffix _).subset h))
    · exact h
  · exact h

/-! ## Joined names -/

theorem joinWith_eq_intercalate (sep : Char) : ∀ ps : List (List Char), joinWith sep ps = [sep].intercalate ps
  | [] => rfl
  | [p] => by simp [joinWith]
  | p :: q :: ps => by
    rw [joinWith, joinWith_eq_intercalate sep (q :: ps), List.intercalate_cons_cons]
    · simp
    · simp

theorem keyChars_cons_cons (n n' : String) (names : List String) :
    keyChars (n :: n' :: names) = n.toList ++ '/' :: keyChars (n' :: names) := rfl

theorem keyChars_singleton (n : String) : keyChars [n] = n.toList := rfl

theorem keyChars_append {a b : List String} (ha : a ≠ []) (hb : b ≠ []) :
    keyChars (a ++ b) = keyChars a ++ '/' :: keyChars b := by
  induction a with
  | nil => exact absurd rfl ha
  | cons n rest ih =>
    cases rest with
    | nil =>
      obtain ⟨n', b', rfl⟩ := List.exists_cons_of_ne_nil hb
      rfl
    | cons n'' rest' =>
      rw [List.cons_append, List.cons_append, keyChars_cons_cons, ← List.cons_append, ih (by simp),
        keyChars_cons_cons]
      simp

theorem mem_keyChars {c : Char} : ∀ {names : List String}, c ∈ keyChars names →
    c = '/' ∨ ∃ n ∈ names, c ∈ n.toList
  | [], h => by simp [keyChars, joinWith] at h
  | [n], h => .inr ⟨n, by simp, h⟩
  | n :: n' :: names, h => by
    rw [keyChars_cons_cons, List.mem_append, List.mem_cons] at h
    rcases h with h | rfl | h
    · exact .inr ⟨n, by simp, h⟩
    · exact .inl rfl
    · rcases mem_keyChars h with h | ⟨m, hm, hc⟩
      · exact .inl h
      · exact .inr ⟨m, List.mem_cons_of_mem _ hm, hc⟩

/-- Splitting a key at `/` gives back the names. -/
theorem splitOn_keyChars {names : List String} (hne : names ≠ []) (h : ∀ n ∈ names, '/' ∉ n.toList) :
    (keyChars names).splitOn '/' = names.map String.toList := by
  rw [keyChars, joinWith_eq_intercalate]
  exact List.splitOn_intercalate '/' (by simpa using h) (by simpa using hne)

theorem segments_keyOf {names : List String} (hne : names ≠ []) (h : ∀ n ∈ names, '/' ∉ n.toList) :
    Path.segments (keyOf names) = names := by
  simp [Path.segments, splitOn_keyChars hne h, List.map_map, Function.comp_def, String.ofList_toList]

theorem nativeOf_snoc (names : List String) (n : String) :
    nativeOf (names ++ [n]) = nativeOf names ++ "/" ++ n := by
  simp [nativeOf, List.foldl_append]

/-- A native path is the key of its names below the root name. -/
theorem nativeOf_toList (names : List String) : (nativeOf names).toList = keyChars (treeRoot :: names) := by
  induction names using List.reverseRecOn with
  | nil => rfl
  | append_singleton names n ih =>
    rw [nativeOf_snoc, String.toList_append, String.toList_append, ih, ← List.cons_append,
      keyChars_append (by simp) (by simp), keyChars_singleton]
    simp

theorem nativeOf_append_toList (a : List String) {b : List String} (hb : b ≠ []) :
    (nativeOf (a ++ b)).toList = (nativeOf a).toList ++ '/' :: keyChars b := by
  rw [nativeOf_toList, nativeOf_toList, ← List.cons_append, keyChars_append (by simp) hb]

theorem keyOf_append {a b : List String} (ha : a ≠ []) (hb : b ≠ []) : keyOf (a ++ b) = keyOf a ++ "/" ++ keyOf b := by
  apply String.toList_injective
  simp [keyChars_append ha hb, String.toList_append]

theorem exists_cons_of_keyChars_prefix {a b : List String} (ha : a ≠ []) (hpa : ∀ n ∈ a, '/' ∉ n.toList)
    (hb : b ≠ []) (hpb : ∀ n ∈ b, '/' ∉ n.toList) (h : keyChars a ++ ['/'] <+: keyChars b) :
    ∃ c more, b = a ++ c :: more := by
  obtain ⟨x, hx⟩ := h
  have hsplit : b.map String.toList = a.map String.toList ++ x.splitOn '/' := by
    rw [← splitOn_keyChars hb hpb, ← hx, List.append_assoc, List.singleton_append,
      List.splitOn_append_cons_self, splitOn_keyChars ha hpa]
  obtain ⟨a', rest, rfl, ha', hrest⟩ := List.map_eq_append_iff.mp hsplit
  obtain rfl := (List.map_inj_right fun _ _ h => String.toList_injective h).mp ha'
  obtain ⟨c, more, rfl⟩ := List.exists_cons_of_ne_nil fun e : rest = [] =>
    List.splitOn_ne_nil '/' x (by simpa [e] using hrest.symm)
  exact ⟨c, more, rfl⟩

/-! ## Plain keys are normal -/

section Plain

variable {names : List String}

theorem PlainName.ne_empty {n : String} (h : PlainName n) : n ≠ "" := by
  rintro rfl
  exact h.1 rfl

theorem PlainName.ne_dot {n : String} (h : PlainName n) : n ≠ "." := by
  rintro rfl
  exact h.2.1 rfl

theorem PlainName.ne_dotDot {n : String} (h : PlainName n) : n ≠ ".." := by
  rintro rfl
  exact h.2.2.1 rfl

theorem no_slash_of_plain (h : ∀ n ∈ names, PlainName n) : ∀ n ∈ names, '/' ∉ n.toList :=
  fun n hn => (h n hn).2.2.2.1

theorem no_backslash_keyChars (h : ∀ n ∈ names, PlainName n) : '\\' ∉ keyChars names := by
  intro hmem
  rcases mem_keyChars hmem with h' | ⟨n, hn, hc⟩
  · exact absurd h' (by decide)
  · exact (h n hn).2.2.2.2 hc

theorem plain_cons_root (h : ∀ n ∈ names, PlainName n) : ∀ n ∈ treeRoot :: names, PlainName n := by
  intro n hn
  rcases List.mem_cons.mp hn with rfl | hn
  · exact plainName_treeRoot
  · exact h n hn

theorem plain_append {a b : List String} (ha : ∀ n ∈ a, PlainName n) (hb : ∀ n ∈ b, PlainName n) :
    ∀ n ∈ a ++ b, PlainName n := by
  intro n hn
  rcases List.mem_append.mp hn with hn | hn
  · exact ha n hn
  · exact hb n hn

theorem resolveRev_plain {segs : List (List Char)} (h : ∀ s ∈ segs, PlainSeg s) (acc : List (List Char)) :
    resolveRev acc segs = segs.reverse ++ acc := by
  induction segs generalizing acc with
  | nil => rfl
  | cons s ss ih =>
    obtain ⟨h1, h2, h3, -, -⟩ := h s List.mem_cons_self
    rw [resolveRev, if_neg (by tauto), if_neg h3, ih (fun s hs => h s (List.mem_cons_of_mem _ hs))]
    simp

theorem clean_nativeOf (h : ∀ n ∈ names, PlainName n) :
    clean (nativeOf names).toList = (nativeOf names).toList := by
  have hall := plain_cons_root h
  have hsplit : splitRoot (keyChars (treeRoot :: names)) = (.none, keyChars (treeRoot :: names)) := by
    cases names with
    | nil => rw [keyChars_singleton, treeRoot_toList]; rfl
    | cons n rest =>
      rw [keyChars_cons_cons, treeRoot_toList]
      rfl
  have hsegs : ∀ s ∈ (treeRoot :: names).map String.toList, PlainSeg s := by
    simpa [PlainName] using hall
  rw [nativeOf_toList, clean, unifySlashes_of_no_backslash (no_backslash_keyChars hall), hsplit]
  simp only [Root.render, resolve, splitOn_keyChars (List.cons_ne_nil _ _) (no_slash_of_plain hall),
    resolveRev_plain hsegs, List.append_nil, List.reverse_reverse]
  rfl

theorem ofString_nativeOf (h : ∀ n ∈ names, PlainName n) :
    NormalPath.ofString (nativeOf names) = ⟨nativeOf names⟩ := by
  rw [NormalPath.ofString, clean_nativeOf h, String.ofList_toList]

theorem getLast?_keyChars_ne (hne : names ≠ []) (h : ∀ n ∈ names, PlainName n) :
    (keyChars names).getLast? ≠ some '/' := by
  obtain ⟨init, n, rfl⟩ := (List.eq_nil_or_concat names).resolve_left hne
  rw [List.concat_eq_append] at h ⊢
  have hn : PlainName n := h n (by simp)
  obtain ⟨cs, c, hc⟩ := (List.eq_nil_or_concat n.toList).resolve_left hn.1
  rw [List.concat_eq_append] at hc
  have hslash : c ≠ '/' := fun e => hn.2.2.2.1 (by simp [hc, e])
  rcases List.eq_nil_or_concat init with rfl | ⟨init', m, rfl⟩
  · simp [keyChars_singleton, hc, hslash]
  · rw [List.concat_eq_append, keyChars_append (by simp) (by simp), keyChars_singleton, hc,
      ← List.cons_append, ← List.append_assoc, List.getLast?_concat]
    simpa using hslash

/-- Joining a plain relative key below a native directory is appending its names. -/
theorem join_nativeOf {bs ls : List String} (hbs : ∀ n ∈ bs, PlainName n) (hls : ∀ n ∈ ls, PlainName n)
    (hne : ls ≠ []) : (⟨nativeOf bs⟩ : NormalPath).join (keyOf ls) = ⟨nativeOf (bs ++ ls)⟩ := by
  have hall : ∀ n ∈ bs ++ ls, PlainName n := by
    intro n hn
    rcases List.mem_append.mp hn with hn | hn
    · exact hbs n hn
    · exact hls n hn
  have hinner : (nativeOf bs).toList ≠ [] := by
    rw [nativeOf_toList]
    cases bs with
    | nil => simp [keyChars_singleton, treeRoot_toList]
    | cons n rest => simp [keyChars_cons_cons, treeRoot_toList]
  have hlast : (nativeOf bs).toList.getLast? ≠ some '/' := by
    rw [nativeOf_toList]
    exact getLast?_keyChars_ne (List.cons_ne_nil _ _) (plain_cons_root hbs)
  simp only [NormalPath.join, keyOf_toList, unifySlashes_of_no_backslash (no_backslash_keyChars hls),
    if_neg hinner, if_neg hlast, ← nativeOf_append_toList bs hne, clean_nativeOf hall, String.ofList_toList]

/-- Reading a native path of plain names gives the names back. -/
theorem namesOf_nativeOf (h : ∀ n ∈ names, PlainName n) : namesOf (nativeOf names) = some names := by
  cases names with
  | nil => simp [namesOf, nativeOf, treeRoot_toList, stripPrefix?]
  | cons n rest =>
    have hdrop : ((n :: rest).map String.toList).map String.ofList = n :: rest := by
      simp [List.map_map, Function.comp_def, String.ofList_toList]
    have hkeep : (n :: rest).filter (· ≠ "") = n :: rest :=
      List.filter_eq_self.mpr fun m hm => by simpa using (h m hm).ne_empty
    have hchars : (nativeOf (n :: rest)).toList = treeRoot.toList ++ '/' :: keyChars (n :: rest) :=
      nativeOf_append_toList [] (List.cons_ne_nil n rest)
    simp only [namesOf, hchars, stripPrefix?_append, splitOn_keyChars (List.cons_ne_nil _ _) (no_slash_of_plain h),
      hdrop, hkeep]

end Plain

/-- The names the walk reaches are exactly the names of a native path:
native paths of plain names are spelled apart. -/
theorem nativeOf_injective {a b : List String} (ha : ∀ n ∈ a, PlainName n) (hb : ∀ n ∈ b, PlainName n)
    (h : nativeOf a = nativeOf b) : a = b := by
  have := (namesOf_nativeOf ha).symm.trans (h ▸ namesOf_nativeOf hb)
  exact Option.some.inj this

/-! ## Sanitized sync paths -/

theorem resolveInside_plain : ∀ {acc ss r : List (List Char)}, resolveInside acc ss = some r →
    (∀ s ∈ acc, PlainSeg s) → (∀ s ∈ ss, '/' ∉ s ∧ '\\' ∉ s) → ∀ s ∈ r, PlainSeg s
  | acc, [], r, h, hacc, _ => by
    simp only [resolveInside, Option.some.injEq] at h
    exact h ▸ hacc
  | acc, s :: ss, r, h, hacc, hss => by
    have hrest : ∀ s ∈ ss, '/' ∉ s ∧ '\\' ∉ s := fun s' hs' => hss s' (List.mem_cons_of_mem _ hs')
    unfold resolveInside at h
    split_ifs at h with hdot hup
    · exact resolveInside_plain h hacc hrest
    · cases acc with
      | nil => simp at h
      | cons a acc' =>
        exact resolveInside_plain h (fun s' hs' => hacc s' (List.mem_cons_of_mem _ hs')) hrest
    · exact resolveInside_plain h
        (List.forall_mem_cons.mpr ⟨plainSeg_of_not_dots hdot hup (hss s List.mem_cons_self), hacc⟩) hrest

/-- A sync path accepted by `sanitize` is the key of its segments, which are
plain and at least one. -/
theorem sanitize_segments {s logical : String} (h : Path.sanitize s = .ok logical) :
    Path.segments logical ≠ [] ∧ (∀ n ∈ Path.segments logical, PlainName n) ∧
      keyOf (Path.segments logical) = logical := by
  unfold Path.sanitize at h
  dsimp only at h
  generalize hsr : splitRoot (unifySlashes s.toList) = sr at h
  obtain ⟨root, rest⟩ := sr
  dsimp only at h
  split_ifs at h with hbad
  split at h
  · cases h
  · cases h
  · rename_i segs hnil hres
    simp only [Except.ok.injEq] at h
    subst h
    have hplain : ∀ x ∈ segs, PlainSeg x := by
      refine resolveInside_plain hres (by simp) ?_
      intro w hw
      constructor
      · intro hx
        exact (mem_of_mem_splitOn hw hx).2 rfl
      · intro hx
        have hin : '\\' ∈ (splitRoot (unifySlashes s.toList)).2 := by
          rw [hsr]
          exact (mem_of_mem_splitOn hw hx).1
        exact unifySlashes_no_backslash _ (mem_of_mem_splitRoot hin)
    have hnames : ∀ n ∈ segs.reverse.map String.ofList, PlainName n := by
      simpa [PlainName, String.toList_ofList] using hplain
    have hkey : keyChars (segs.reverse.map String.ofList) = joinWith '/' segs.reverse := by
      simp [keyChars, List.map_map, Function.comp_def, String.toList_ofList]
    have hne : segs.reverse.map String.ofList ≠ [] := by simpa using hnil
    rw [← hkey]
    change Path.segments (keyOf _) ≠ [] ∧ (∀ n ∈ Path.segments (keyOf _), PlainName n) ∧
      keyOf (Path.segments (keyOf _)) = keyOf _
    rw [segments_keyOf hne (no_slash_of_plain hnames)]
    exact ⟨hne, hnames, rfl⟩

end ModMirror
