import ModMirror.Proofs.Names
import ModMirror.Sync.Exclusion

/-!
# Exclusions along a path of plain names

`matchesPrefix` tests a relative path and each of its ancestors at once; a
walk tests each entry it is about to enter, having entered its parent. For
keys of plain names the two agree one level at a time:

    s.matchesPrefix (keyOf (names ++ [n])) =
      s.matchesPrefix (keyOf names) || s.matches? (keyOf (names ++ [n]))   (matchesPrefix_snoc)

A matcher based at a native directory reads a native path below it as the
key of the names below the base (`below_nativeOf`), so `excludesTree` is
`matchesPrefix` of that key and `matchesPath` is `matches?` of it. A path
that no set of the matcher reaches, itself or through an ancestor, is
*spared* (`ExclusionMatcher.Spares`); a child is spared exactly when its
parent is and the child itself matches nothing (`spares_snoc`).

For any text `p`, a match is a match through an ancestor, and a match through
an ancestor reaches every `p/q`, unless `p` names the base itself:

    s.matchesPrefix p → normalize p ∉ {"", "."} → s.matchesPrefix (p ++ "/" ++ q)
                                                     (matchesPrefix_covers_subtree)
-/

namespace ModMirror

open Text

/-- No exclusion set of the matcher names the relative path or one of its ancestors. -/
def ExclusionMatcher.Spares (m : ExclusionMatcher) (r : String) : Prop :=
  ∀ s ∈ m.sets, s.matchesPrefix r = false

/-! ## Plain keys are matched as written -/

section Normal

variable {names : List String}

theorem trimStart_of_head {c : Char} {cs : List Char} (hhead : cs.head? ≠ some c) : trimStart c cs = cs := by
  cases cs with
  | nil => rfl
  | cons x xs =>
    have hx : x ≠ c := fun e => hhead (by simp [e])
    simp [trimStart, hx]

theorem trimEnd_of_getLast {c : Char} {cs : List Char} (hlast : cs.getLast? ≠ some c) : trimEnd c cs = cs := by
  have hend : (cs.reverse).dropWhile (· = c) = cs.reverse := by
    cases hr : cs.reverse with
    | nil => rfl
    | cons x xs =>
      have hx : x ≠ c := by
        intro e
        apply hlast
        rw [← List.head?_reverse, hr, e]
        rfl
      simp [hx]
  rw [trimEnd, hend, List.reverse_reverse]

theorem trimBoth_of_ends {c : Char} {cs : List Char} (hhead : cs.head? ≠ some c) (hlast : cs.getLast? ≠ some c) :
    trimBoth c cs = cs := by
  rw [trimBoth, trimStart_of_head hhead, trimEnd_of_getLast hlast]

theorem keyChars_cons_eq (n : String) (rest : List String) : ∃ tail, keyChars (n :: rest) = n.toList ++ tail := by
  cases rest with
  | nil => exact ⟨[], by simp [keyChars_singleton]⟩
  | cons n' rest' => exact ⟨_, keyChars_cons_cons n n' rest'⟩

theorem keyChars_ne_nil (hne : names ≠ []) (h : ∀ n ∈ names, PlainName n) : keyChars names ≠ [] := by
  obtain ⟨n, rest, rfl⟩ := List.exists_cons_of_ne_nil hne
  obtain ⟨tail, htail⟩ := keyChars_cons_eq n rest
  rw [htail]
  exact fun e => (h n List.mem_cons_self).1 (List.append_eq_nil_iff.mp e).1

theorem head?_keyChars_ne (hne : names ≠ []) (h : ∀ n ∈ names, PlainName n) :
    (keyChars names).head? ≠ some '/' := by
  obtain ⟨n, rest, rfl⟩ := List.exists_cons_of_ne_nil hne
  obtain ⟨tail, htail⟩ := keyChars_cons_eq n rest
  have hn := h n List.mem_cons_self
  obtain ⟨c, cs, hc⟩ := List.exists_cons_of_ne_nil hn.1
  have hslash : c ≠ '/' := fun e => hn.2.2.2.1 (by simp [hc, e])
  simp [htail, hc, hslash]

theorem stripPrefix?_dotSlash_keyChars (hne : names ≠ []) (h : ∀ n ∈ names, PlainName n) :
    stripPrefix? ['.', '/'] (keyChars names) = none := by
  obtain ⟨n, rest, rfl⟩ := List.exists_cons_of_ne_nil hne
  obtain ⟨tail, htail⟩ := keyChars_cons_eq n rest
  obtain ⟨hempty, hdot, -, hslash, -⟩ := h n List.mem_cons_self
  obtain ⟨c, cs, hc⟩ := List.exists_cons_of_ne_nil hempty
  rw [htail, hc]
  by_cases hcd : c = '.'
  · subst hcd
    -- the first name is longer than `.`, and its second character is no separator
    obtain ⟨d, ds, rfl⟩ := List.exists_cons_of_ne_nil (fun e : cs = [] => hdot (by rw [hc, e]))
    have hd : d ≠ '/' := fun e => hslash (by simp [hc, e])
    simp [stripPrefix?, Ne.symm hd]
  · simp [stripPrefix?, Ne.symm hcd]

theorem normalize_keyOf (hne : names ≠ []) (h : ∀ n ∈ names, PlainName n) :
    ExclusionSet.normalize (keyOf names) = keyChars names := by
  have hpiece : trimStartPiece ['.', '/'] (keyChars names) = keyChars names := by
    simp [trimStartPiece, trimStartPiece.go, stripPrefix?_dotSlash_keyChars hne h]
  rw [ExclusionSet.normalize, keyOf_toList, unifySlashes_of_no_backslash (no_backslash_keyChars h), hpiece,
    trimBoth_of_ends (head?_keyChars_ne hne h) (getLast?_keyChars_ne hne h)]

theorem prefixes_keyChars_snoc {n : String} (hne : names ≠ []) (h : ∀ m ∈ names ++ [n], PlainName m) :
    ExclusionSet.prefixes (keyChars (names ++ [n])) =
      ExclusionSet.prefixes (keyChars names) ++ [keyChars (names ++ [n])] := by
  have hslash := no_slash_of_plain h
  have hslash' : ∀ m ∈ names, '/' ∉ m.toList := fun m hm => hslash m (List.mem_append_left _ hm)
  simp only [ExclusionSet.prefixes, splitOn_keyChars (by simp) hslash, splitOn_keyChars hne hslash',
    List.map_append, List.length_append, List.length_map, List.length_singleton, List.range_succ]
  congr 1
  · apply List.map_congr_left
    intro k hk
    have hk' := List.mem_range.mp hk
    rw [List.take_append_of_le_length (by simp at hk' ⊢; omega)]
  · simp only [List.map_cons, List.map_nil]
    rw [List.take_of_length_le (by simp)]
    simp [keyChars]

end Normal

/-! ## Prefix matching one level at a time -/

section Sets

variable (s : ExclusionSet) {names : List String}

theorem matchesPrefix_eq_any (r : String) :
    s.matchesPrefix r = (ExclusionSet.prefixes (ExclusionSet.normalize r)).any s.matchesText := by
  unfold ExclusionSet.matchesPrefix
  cases hg : s.globs with
  | nil => simp [ExclusionSet.matchesText, hg]
  | cons g gs => simp

/-- A child matches through an ancestor exactly when its parent does or it matches itself. -/
theorem matchesPrefix_snoc {n : String} (hne : names ≠ []) (h : ∀ m ∈ names ++ [n], PlainName m) :
    s.matchesPrefix (keyOf (names ++ [n])) = (s.matchesPrefix (keyOf names) || s.matches? (keyOf (names ++ [n]))) := by
  have h' : ∀ m ∈ names, PlainName m := fun m hm => h m (List.mem_append_left _ hm)
  rw [matchesPrefix_eq_any, matchesPrefix_eq_any, normalize_keyOf (by simp) h, normalize_keyOf hne h',
    prefixes_keyChars_snoc hne h, List.any_append, ExclusionSet.matches?, normalize_keyOf (by simp) h]
  simp

end Sets

/-! ## Matchers based at a native directory -/

section Matcher

variable {m : ExclusionMatcher} {bs rel : List String}

/-- Below a native base the matcher sees the key of the names below it. -/
theorem below_nativeOf (hm : m.base = ⟨nativeOf bs⟩) (hbs : ∀ n ∈ bs, PlainName n) (hne : rel ≠ [])
    (hrel : ∀ n ∈ rel, PlainName n) : m.below ⟨nativeOf (bs ++ rel)⟩ = some (keyOf rel) := by
  have hbase : (nativeOf bs).toList ≠ [] := by
    rw [nativeOf_toList]
    exact keyChars_ne_nil (List.cons_ne_nil _ _) (plain_cons_root hbs)
  have htrim : trimEnd '/' (nativeOf bs).toList = (nativeOf bs).toList := by
    rw [nativeOf_toList]
    exact trimEnd_of_getLast (getLast?_keyChars_ne (List.cons_ne_nil _ _) (plain_cons_root hbs))
  have hkey : (keyOf rel).isEmpty = false := by
    rw [Bool.eq_false_iff]
    intro he
    have h0 := congrArg String.toList
      (String.utf8ByteSize_eq_zero_iff.mp (String.isEmpty_iff_utf8ByteSize_eq_zero.mp he))
    rw [keyOf_toList, String.toList_empty] at h0
    exact keyChars_ne_nil hne hrel h0
  simp only [ExclusionMatcher.below, NormalPath.stripBase, hm, NormalPath.relativeTo, if_neg hbase, htrim,
    nativeOf_append_toList bs hne, stripPrefix?_append]
  have hstrip : stripPrefix? ['/'] ('/' :: keyChars rel) = some (keyChars rel) := stripPrefix?_append ['/'] _
  simp only [hstrip, Option.map_some]
  change (if (keyOf rel).isEmpty = true then none else some (keyOf rel)) = some (keyOf rel)
  rw [hkey]
  rfl

/-- A native path below the base is excluded as a tree when some set matches
its key or an ancestor's. -/
theorem excludesTree_nativeOf (hm : m.base = ⟨nativeOf bs⟩) (hbs : ∀ n ∈ bs, PlainName n) (hne : rel ≠ [])
    (hrel : ∀ n ∈ rel, PlainName n) :
    m.excludesTree ⟨nativeOf (bs ++ rel)⟩ = m.sets.any (·.matchesPrefix (keyOf rel)) := by
  simp only [ExclusionMatcher.excludesTree, below_nativeOf hm hbs hne hrel]

theorem matchesPath_nativeOf (hm : m.base = ⟨nativeOf bs⟩) (hbs : ∀ n ∈ bs, PlainName n) (hne : rel ≠ [])
    (hrel : ∀ n ∈ rel, PlainName n) :
    m.matchesPath ⟨nativeOf (bs ++ rel)⟩ = m.sets.any (·.matches? (keyOf rel)) := by
  simp only [ExclusionMatcher.matchesPath, below_nativeOf hm hbs hne hrel, ExclusionMatcher.matches?]

theorem spares_iff_excludesTree (hm : m.base = ⟨nativeOf bs⟩) (hbs : ∀ n ∈ bs, PlainName n) (hne : rel ≠ [])
    (hrel : ∀ n ∈ rel, PlainName n) :
    m.Spares (keyOf rel) ↔ m.excludesTree ⟨nativeOf (bs ++ rel)⟩ = false := by
  rw [excludesTree_nativeOf hm hbs hne hrel, ExclusionMatcher.Spares]
  simp

end Matcher

/-! ## Spared paths -/

section Spares

variable {m : ExclusionMatcher} {rel : List String}

/-- A child is spared when its parent is and the child matches no set by itself. -/
theorem spares_snoc {n : String} (hne : rel ≠ []) (h : ∀ x ∈ rel ++ [n], PlainName x) :
    m.Spares (keyOf (rel ++ [n])) ↔ m.Spares (keyOf rel) ∧ m.sets.any (·.matches? (keyOf (rel ++ [n]))) = false := by
  simp only [ExclusionMatcher.Spares, matchesPrefix_snoc _ hne h, Bool.or_eq_false_iff, List.any_eq_false]
  constructor
  · intro hs
    exact ⟨fun s hs' => (hs s hs').1, fun s hs' => by simp [(hs s hs').2]⟩
  · rintro ⟨hp, hc⟩ s hs
    exact ⟨hp s hs, by simpa using hc s hs⟩

theorem ExclusionMatcher.Spares.of_append {more : List String} (hne : rel ≠ []) (h : ∀ x ∈ rel ++ more, PlainName x)
    (hs : m.Spares (keyOf (rel ++ more))) : m.Spares (keyOf rel) := by
  induction more using List.reverseRecOn with
  | nil => simpa using hs
  | append_singleton more n ih =>
    rw [← List.append_assoc] at h hs
    have h' : ∀ x ∈ rel ++ more, PlainName x := fun x hx => h x (List.mem_append_left _ hx)
    exact ih h' ((spares_snoc (by simp [hne]) h).mp hs).1

end Spares

/-! ## Excluding a path excludes its subtree

For any text, not only keys of plain names: the normal form of `p/q` extends the
normal form of `p` past a separator, so every ancestor tested for `p` is tested
again for `p/q`. The two corner cases are the texts that name the base itself:
a text that normalizes to nothing or to `.`. A leading `./` is removed but a
lone `.` is not, so the `.` tested for `p = "."` is gone from `./q`. -/

namespace ExclusionSet

section Subtree

theorem eq_append_of_stripPrefix? : ∀ {p cs r : List Char}, stripPrefix? p cs = some r → cs = p ++ r
  | [], cs, r, h => by simpa [stripPrefix?] using h
  | _ :: _, [], r, h => by simp [stripPrefix?] at h
  | x :: xs, c :: cs, r, h => by
    unfold stripPrefix? at h
    split_ifs at h with hx
    subst hx
    rw [eq_append_of_stripPrefix? h, List.cons_append]

theorem trimStartPiece_go_fuel : ∀ {n m : Nat} {cs : List Char}, cs.length < n → cs.length < m →
    trimStartPiece.go ['.', '/'] cs n = trimStartPiece.go ['.', '/'] cs m
  | 0, _, _, hn, _ => absurd hn (Nat.not_lt_zero _)
  | _, 0, _, _, hm => absurd hm (Nat.not_lt_zero _)
  | n + 1, m + 1, cs, hn, hm => by
    unfold trimStartPiece.go
    cases hs : stripPrefix? ['.', '/'] cs with
    | none => rfl
    | some rest =>
      -- each round drops two characters, so the shorter rest still fits both budgets
      have hlen : rest.length + 2 = cs.length := by simp [eq_append_of_stripPrefix? hs]
      exact trimStartPiece_go_fuel (by omega) (by omega)

@[simp] theorem trimStartPiece_dotSlash_cons (cs : List Char) :
    trimStartPiece ['.', '/'] ('.' :: '/' :: cs) = trimStartPiece ['.', '/'] cs := by
  unfold trimStartPiece
  rw [trimStartPiece.go]
  simp only [List.length_cons, stripPrefix?, if_true, List.isEmpty_cons, Bool.false_eq_true, if_false]
  exact trimStartPiece_go_fuel (by omega) (by omega)

theorem trimStartPiece_of_none {cs : List Char} (h : stripPrefix? ['.', '/'] cs = none) :
    trimStartPiece ['.', '/'] cs = cs := by
  simp [trimStartPiece, trimStartPiece.go, h]

theorem stripPrefix?_append_slash {u : List Char} (v : List Char) (h : stripPrefix? ['.', '/'] u = none)
    (hdot : u ≠ ['.']) : stripPrefix? ['.', '/'] (u ++ '/' :: v) = none := by
  match u, h, hdot with
  | [], _, _ => simp [stripPrefix?]
  | [c], _, hd =>
    have hc : c ≠ '.' := fun e => hd (by rw [e])
    simp [stripPrefix?, Ne.symm hc]
  | c :: d :: w, hs, _ => simpa [stripPrefix?] using hs

/-- Leading `./` pieces of a parent are those of the parent followed by a child, unless the
parent is reduced to `.`, whose `./` only appears with the separator. -/
theorem trimStartPiece_append_slash (v u : List Char) (h : trimStartPiece ['.', '/'] u ≠ ['.']) :
    trimStartPiece ['.', '/'] (u ++ '/' :: v) = trimStartPiece ['.', '/'] u ++ '/' :: v := by
  cases hs : stripPrefix? ['.', '/'] u with
  | some rest =>
    have hu : u = '.' :: '/' :: rest := eq_append_of_stripPrefix? hs
    have hlt : rest.length < u.length := by simp [hu]
    rw [hu, trimStartPiece_dotSlash_cons] at h
    rw [hu, List.cons_append, List.cons_append, trimStartPiece_dotSlash_cons, trimStartPiece_dotSlash_cons]
    exact trimStartPiece_append_slash v rest h
  | none =>
    rw [trimStartPiece_of_none hs] at h ⊢
    rw [trimStartPiece_of_none (stripPrefix?_append_slash v hs h)]
termination_by u.length

theorem trimStart_append (c : Char) (x y : List Char) :
    trimStart c (x ++ y) = if trimStart c x = [] then trimStart c y else trimStart c x ++ y := by
  unfold trimStart
  rw [List.dropWhile_append]
  simp [List.isEmpty_iff]

theorem trimEnd_append (c : Char) (x y : List Char) :
    trimEnd c (x ++ y) = if trimEnd c y = [] then trimEnd c x else x ++ trimEnd c y := by
  unfold trimEnd
  rw [List.reverse_append, List.dropWhile_append]
  by_cases h : y.reverse.dropWhile (· = c) = []
  · simp [h]
  · simp [h, List.isEmpty_iff]

theorem trimEnd_cases (c : Char) (l : List Char) : l = trimEnd c l ∨ ∃ s, l = trimEnd c l ++ c :: s := by
  have hsplit : l = trimEnd c l ++ (l.reverse.takeWhile (· = c)).reverse := by
    conv_lhs => rw [← List.reverse_reverse l, ← List.takeWhile_append_dropWhile (p := (· = c)) (l := l.reverse)]
    rw [List.reverse_append, trimEnd]
  rcases hw : (l.reverse.takeWhile (· = c)).reverse with _ | ⟨x, s⟩
  · exact .inl (by simpa [hw] using hsplit)
  · have hx : x = c := by
      have hmem : x ∈ l.reverse.takeWhile (· = c) := by
        rw [← List.mem_reverse, hw]
        exact List.mem_cons_self
      simpa using List.mem_takeWhile_imp hmem
    exact .inr ⟨s, hsplit.trans (by rw [hw, hx])⟩

/-- Normalizing a path extended past a separator extends the parent's normal form past a
separator, or keeps it, unless the parent normalizes to nothing or to `.`. -/
theorem normalize_append_slash (p q : String) (hne : normalize p ≠ []) (hdot : normalize p ≠ ['.']) :
    normalize (p ++ "/" ++ q) = normalize p ∨ ∃ r, normalize (p ++ "/" ++ q) = normalize p ++ '/' :: r := by
  have hunify : unifySlashes (p ++ "/" ++ q).toList = unifySlashes p.toList ++ '/' :: unifySlashes q.toList := by
    simp [unifySlashes, slashOf]
  set a := trimStartPiece ['.', '/'] (unifySlashes p.toList) with ha
  have hp : normalize p = trimEnd '/' (trimStart '/' a) := rfl
  have ha_dot : a ≠ ['.'] := by
    intro e
    apply hdot
    rw [hp, e]
    decide
  have hw : trimStart '/' a ≠ [] := fun e => hne (by rw [hp, e]; rfl)
  -- after the `./` pieces and the leading separators the child's text is the parent's, a separator, the rest
  have hstart : trimStart '/' (trimStartPiece ['.', '/'] (unifySlashes (p ++ "/" ++ q).toList)) =
      trimStart '/' a ++ '/' :: unifySlashes q.toList := by
    rw [hunify, trimStartPiece_append_slash _ _ ha_dot, trimStart_append, if_neg hw]
  have hslash : trimEnd '/' ('/' :: unifySlashes q.toList) = [] ∨
      trimEnd '/' ('/' :: unifySlashes q.toList) = '/' :: trimEnd '/' (unifySlashes q.toList) := by
    rw [← List.singleton_append, trimEnd_append]
    split_ifs
    · exact .inl rfl
    · exact .inr rfl
  have hq : normalize (p ++ "/" ++ q) = trimEnd '/' (trimStart '/' a ++ '/' :: unifySlashes q.toList) := by
    rw [normalize, trimBoth, hstart]
  rw [hq, trimEnd_append, ← hp]
  split_ifs with htail
  · exact .inl rfl
  · rcases hslash with h0 | h1
    · exact absurd h0 htail
    rw [h1, hp]
    -- the parent's own trailing separators, if any, now stand before the child
    rcases trimEnd_cases '/' (trimStart '/' a) with heq | ⟨s, hs⟩
    · refine .inr ⟨trimEnd '/' (unifySlashes q.toList), ?_⟩
      nth_rewrite 1 [heq]
      rfl
    · refine .inr ⟨s ++ '/' :: trimEnd '/' (unifySlashes q.toList), ?_⟩
      nth_rewrite 1 [hs]
      simp

theorem prefixes_append_slash (b s : List Char) : prefixes b <+: prefixes (b ++ '/' :: s) := by
  simp only [prefixes]
  rw [List.splitOn_append_cons_self, List.length_append, List.range_add, List.map_append]
  refine ⟨_, congrArg (· ++ _) ?_⟩
  apply List.map_congr_left
  intro k hk
  rw [List.take_append_of_le_length (by simpa using List.mem_range.mp hk)]

theorem mem_prefixes_self (t : List Char) : t ∈ prefixes t := by
  have hpos : 0 < (t.splitOn '/').length := List.length_pos_iff.mpr (List.splitOn_ne_nil _ _)
  simp only [prefixes, List.mem_map, List.mem_range]
  refine ⟨(t.splitOn '/').length - 1, by omega, ?_⟩
  rw [Nat.sub_add_cancel hpos, List.take_length, joinWith_eq_intercalate, List.intercalate_splitOn]

variable {s : ExclusionSet} {p : String}

theorem matchesPrefix_of_matches (h : s.matches? p = true) : s.matchesPrefix p = true := by
  rw [matchesPrefix_eq_any, List.any_eq_true]
  exact ⟨normalize p, mem_prefixes_self _, h⟩

/-- A path matched through an ancestor has all of its descendants matched, unless it names the
base itself. -/
theorem matchesPrefix_append_slash (q : String) (h : s.matchesPrefix p = true) (hne : normalize p ≠ [])
    (hdot : normalize p ≠ ['.']) : s.matchesPrefix (p ++ "/" ++ q) = true := by
  rw [matchesPrefix_eq_any, List.any_eq_true] at h ⊢
  obtain ⟨x, hx, hm⟩ := h
  refine ⟨x, ?_, hm⟩
  rcases normalize_append_slash p q hne hdot with heq | ⟨r, hr⟩
  · rwa [heq]
  · rw [hr]
    exact (prefixes_append_slash _ _).subset hx

/-- A path that matches excludes itself, and a path excluded through an ancestor excludes
everything below it, unless it names the base itself (normalizes to nothing or to `.`). -/
theorem matchesPrefix_covers_subtree (s : ExclusionSet) (p q : String) :
    (s.matches? p = true → s.matchesPrefix p = true) ∧
    (s.matchesPrefix p = true → normalize p ≠ [] → normalize p ≠ ['.'] →
      s.matchesPrefix (p ++ "/" ++ q) = true) :=
  ⟨matchesPrefix_of_matches, fun h hne hdot => matchesPrefix_append_slash q h hne hdot⟩

/-- A literal directory pattern reaches a file two levels below the directory. -/
theorem matchesPrefix_covers_subtree_user_mods :
    ∃ s, compile ["user/mods/x"] = .ok s ∧ s.matches? "user/mods/x" = true ∧
      s.matchesPrefix ("user/mods/x" ++ "/" ++ "deep/file.json") = true := by
  refine ⟨_, rfl, ?_⟩
  constructor
  · decide +kernel
  · apply (matchesPrefix_covers_subtree _ _ _).2 _ (by decide) (by decide)
    apply (matchesPrefix_covers_subtree _ _ "").1
    decide +kernel

end Subtree

end ExclusionSet

end ModMirror
