import ModMirror.Proofs.Names

/-!
# Well-formed trees

A tree that a directory on disk could be: every entry sits under a non-empty
path of plain names, no path twice, and the parent of every entry is a
directory (the root included). The scan is stated for trees without
symbolic links, so `FileTree.WF` also excludes them.

In such a tree a native path resolves to its own names, unless a directory
on the way is missing; it never meets a link, so following links or not
gives the same answer. Where no file stands on the way:

    t.metadata (nativeOf D) = .ok (.file d.size)   when t.find? D = some (.file d)
    t.metadata (nativeOf D) = .ok .dir             when t.find? D = some .dir
    t.metadata (nativeOf D) = .error (.os ENOENT)  when t.find? D = none

and the names below a directory are exactly those of its child entries
(`mem_childNames`), each once. A path is never longer than the tree has
entries, since each of its prefixes is an entry (`length_le_of_mem`).

Each condition of well-formedness is a test on one entry (`wf_iff`), so
whether a given tree is well formed is decided by evaluation.
-/

namespace ModMirror

def Node.isDir : Node → Bool
  | .dir => true
  | _ => false

/-- Whether a node is a symbolic link. -/
def Node.isLink : Node → Bool
  | .link _ => true
  | _ => false

namespace FileTree

/-- A tree a directory on disk could be, without symbolic links. -/
structure WF (t : FileTree) : Prop where
  nodup : (t.entries.map Prod.fst).Nodup
  plain : ∀ e ∈ t.entries, e.1 ≠ [] ∧ ∀ n ∈ e.1, PlainName n
  parent : ∀ e ∈ t.entries, t.find? e.1.dropLast = some .dir
  noLinks : ∀ e ∈ t.entries, ∀ target, e.2 ≠ .link target

theorem any_isDir_iff {o : Option Node} : o.any Node.isDir = true ↔ o = some .dir := by
  rcases o with _ | (_ | _ | _) <;> simp [Node.isDir]

theorem isLink_eq_false_iff {n : Node} : n.isLink = false ↔ ∀ target, n ≠ .link target := by
  cases n <;> simp [Node.isLink]

/-- Well-formedness entry by entry, with each condition a test. -/
theorem wf_iff {t : FileTree} : t.WF ↔ (t.entries.map Prod.fst).Nodup ∧ ∀ e ∈ t.entries,
    (e.1 ≠ [] ∧ ∀ n ∈ e.1, PlainName n) ∧ (t.find? e.1.dropLast).any Node.isDir = true ∧ e.2.isLink = false := by
  constructor
  · rintro ⟨hnd, hplain, hparent, hlinks⟩
    exact ⟨hnd, fun e he => ⟨hplain e he, any_isDir_iff.mpr (hparent e he), isLink_eq_false_iff.mpr (hlinks e he)⟩⟩
  · rintro ⟨hnd, h⟩
    exact ⟨hnd, fun e he => (h e he).1, fun e he => any_isDir_iff.mp (h e he).2.1,
      fun e he => isLink_eq_false_iff.mp (h e he).2.2⟩

instance (t : FileTree) : Decidable t.WF := decidable_of_iff _ wf_iff.symm

section WF

variable {t : FileTree} (ht : t.WF)
include ht

/-! ## Lookups -/

theorem WF.find?_of_mem {p : List String} {n : Node} (h : (p, n) ∈ t.entries) : t.find? p = some n := by
  have hp : p ≠ [] := (ht.plain _ h).1
  rw [find?, if_neg hp]
  have hnd := ht.nodup
  generalize t.entries = es at h hnd
  induction es with
  | nil => cases h
  | cons e rest ih =>
    simp only [List.map_cons, List.nodup_cons] at hnd
    rcases List.mem_cons.mp h with rfl | hmem
    · simp
    · -- a later entry has another path than the head
      have hne : (p == e.1) = false :=
        beq_eq_false_iff_ne.mpr fun heq => hnd.1 (heq ▸ List.mem_map.mpr ⟨_, hmem, rfl⟩)
      rw [List.lookup_cons, hne]
      exact ih hmem hnd.2

omit ht in
theorem mem_of_find? {p : List String} {n : Node} (hp : p ≠ []) (h : t.find? p = some n) : (p, n) ∈ t.entries := by
  rw [find?, if_neg hp, List.lookup_eq_some_iff] at h
  obtain ⟨l₁, l₂, heq, -⟩ := h
  rw [heq]
  simp

theorem WF.find?_dir_of_prefix {D sub : List String} {n : Node} (h : (D ++ sub, n) ∈ t.entries)
    (hsub : sub ≠ []) : t.find? D = some .dir := by
  induction sub using List.reverseRecOn generalizing n with
  | nil => exact absurd rfl hsub
  | append_singleton sub c ih =>
    have hparent := ht.parent _ h
    rw [← List.append_assoc, List.dropLast_concat] at hparent
    rcases List.eq_nil_or_concat sub with rfl | ⟨_, _, _⟩
    · simpa using hparent
    · have hne : D ++ sub ≠ [] := by simp_all
      exact ih (mem_of_find? hne hparent) (by simp_all)

theorem WF.exists_child {D more : List String} {c : String} {n : Node} (h : (D ++ c :: more, n) ∈ t.entries) :
    ∃ n', (D ++ [c], n') ∈ t.entries := by
  cases more with
  | nil => exact ⟨n, h⟩
  | cons c' more' =>
    have hdeep : (D ++ [c] ++ c' :: more', n) ∈ t.entries := by simpa using h
    exact ⟨_, mem_of_find? (by simp) (ht.find?_dir_of_prefix hdeep (by simp))⟩

theorem WF.not_link {p : List String} {target : String} : t.find? p ≠ some (.link target) := by
  intro h
  by_cases hp : p = []
  · simp [find?, hp] at h
  · exact ht.noLinks _ (mem_of_find? hp h) target rfl

theorem WF.find?_append_of_none {D : List String} (h : t.find? D = none) (sub : List String) :
    t.find? (D ++ sub) = none := by
  rcases List.eq_nil_or_concat sub with rfl | ⟨_, _, _⟩
  · simpa using h
  · cases hf : t.find? (D ++ sub) with
    | none => rfl
    | some n =>
      have hne : D ++ sub ≠ [] := by simp_all
      rw [ht.find?_dir_of_prefix (mem_of_find? hne hf) (by simp_all)] at h
      cases h

/-! ## Path length -/

/-- A path is never longer than the tree has entries: each of its prefixes
is an entry of its own. -/
theorem WF.length_le_of_mem {e : List String × Node} (he : e ∈ t.entries) : e.1.length ≤ t.entries.length := by
  let prefixes := (List.range e.1.length).map fun k => e.1.take (k + 1)
  have hnodup : prefixes.Nodup := by
    refine (List.nodup_range).map_on ?_
    intro i hi j hj hij
    have := congrArg List.length hij
    simp only [List.length_take] at this
    have hi' := List.mem_range.mp hi
    have hj' := List.mem_range.mp hj
    omega
  have hsub : prefixes ⊆ t.entries.map Prod.fst := by
    intro q hq
    obtain ⟨k, hk, rfl⟩ := List.mem_map.mp hq
    have hk' := List.mem_range.mp hk
    by_cases hlast : k + 1 = e.1.length
    · rw [List.take_of_length_le (by omega)]
      exact List.mem_map.mpr ⟨e, he, rfl⟩
    · -- a proper prefix: a directory, hence an entry
      have hsplit : (e.1.take (k + 1) ++ e.1.drop (k + 1), e.2) ∈ t.entries := by simpa using he
      have hdir := ht.find?_dir_of_prefix hsplit (by simp; omega)
      have hne : e.1 ≠ [] := List.ne_nil_of_length_pos (by omega)
      exact List.mem_map.mpr ⟨_, mem_of_find? (by simp [hne]) hdir, rfl⟩
  have := (List.subperm_of_subset hnodup hsub).length_le
  simpa [prefixes] using this

/-! ## Children -/

omit ht in
theorem mem_childNames {D : List String} {c : String} :
    c ∈ t.childNames D ↔ ∃ n, (D ++ [c], n) ∈ t.entries := by
  simp only [childNames, List.mem_reverse, List.mem_filterMap]
  constructor
  · rintro ⟨⟨q, n⟩, hq, hc⟩
    simp only [Bool.and_eq_true, decide_eq_true_eq, List.isPrefixOf_iff_prefix] at hc
    split_ifs at hc with hcond
    obtain ⟨hlen, r, rfl⟩ := hcond
    obtain ⟨x, rfl⟩ : ∃ x, r = [x] := List.length_eq_one_iff.mp (by simpa using hlen)
    simp only [List.getLast?_append, List.getLast?_singleton, Option.some_or, Option.some.injEq] at hc
    exact ⟨n, hc ▸ hq⟩
  · rintro ⟨n, hn⟩
    exact ⟨(D ++ [c], n), hn, by simp⟩

theorem WF.nodup_childNames (D : List String) : (t.childNames D).Nodup := by
  rw [childNames, List.nodup_reverse]
  -- a child name is read off the path alone, and paths are distinct
  change (t.entries.filterMap ((fun q => if q.length = D.length + 1 && D.isPrefixOf q then q.getLast? else none) ∘
    Prod.fst)).Nodup
  rw [← List.filterMap_map]
  refine ht.nodup.filterMap ?_
  intro q q' c hc hc'
  simp only [Option.mem_def, Bool.and_eq_true, decide_eq_true_eq, List.isPrefixOf_iff_prefix] at hc hc'
  split_ifs at hc hc' with h h'
  obtain ⟨hlen, r, rfl⟩ := h
  obtain ⟨hlen', r', rfl⟩ := h'
  obtain ⟨x, rfl⟩ : ∃ x, r = [x] := List.length_eq_one_iff.mp (by simpa using hlen)
  obtain ⟨x', rfl⟩ : ∃ x, r' = [x] := List.length_eq_one_iff.mp (by simpa using hlen')
  simp only [List.getLast?_append, List.getLast?_singleton, Option.some_or, Option.some.injEq] at hc hc'
  rw [hc, hc']

/-! ## Resolving native paths -/

/-- Resolving plain names from a resolved directory, with no file on the way,
reaches the whole path, or reports `ENOENT` when a proper prefix is missing
(and then the path is missing too). -/
theorem WF.walk_plain (follow : Bool) (fuel : Nat) :
    ∀ {ns : List String} (done : List String), (∀ n ∈ ns, PlainName n) →
    (∀ k < ns.length, ∀ d, t.find? (done ++ ns.take k) ≠ some (.file d)) →
    t.walk follow done ns fuel = .ok (some (done ++ ns)) ∨
      (t.walk follow done ns fuel = .error (.os ENOENT) ∧ t.find? (done ++ ns) = none)
  | [], done, _, _ => .inl (by rw [walk.eq_1, List.append_nil])
  | n :: rest, done, hplain, hnf => by
    have hn := hplain n List.mem_cons_self
    have hrest : ∀ m ∈ rest, PlainName m := fun m hm => hplain m (List.mem_cons_of_mem _ hm)
    rw [walk.eq_4 _ _ _ _ _ _ hn.ne_dot hn.ne_dotDot]
    cases hf : t.find? (done ++ [n]) with
    | none =>
      cases rest with
      | nil => exact .inl (by simp)
      | cons m rest' =>
        refine .inr ⟨by simp, ?_⟩
        simpa using ht.find?_append_of_none hf (m :: rest')
    | some node =>
      cases node with
      | dir =>
        -- one level down: the same statement from the directory just entered
        have hnf' : ∀ k < rest.length, ∀ d, t.find? ((done ++ [n]) ++ rest.take k) ≠ some (.file d) := by
          intro k hk d
          simpa using hnf (k + 1) (by simp; omega) d
        simpa using WF.walk_plain follow fuel (done ++ [n]) hrest hnf'
      | file d =>
        cases rest with
        | nil => exact .inl (by simp)
        | cons m rest' => exact absurd hf (by simpa using hnf 1 (by simp) d)
      | link target => exact absurd hf ht.not_link

theorem WF.walk_through_file (follow : Bool) (fuel : Nat) : ∀ {ns : List String} (done : List String) {k : Nat}
    {d : ByteArray}, (∀ n ∈ ns, PlainName n) → 0 < k → k < ns.length →
    t.find? (done ++ ns.take k) = some (.file d) → t.walk follow done ns fuel = .error (.os ENOTDIR)
  | [], _, _, _, _, _, hk, _ => absurd hk (by simp)
  | n :: rest, done, k, d, hplain, hpos, hk, hf => by
    have hn := hplain n List.mem_cons_self
    have hrest : ∀ m ∈ rest, PlainName m := fun m hm => hplain m (List.mem_cons_of_mem _ hm)
    rw [walk.eq_4 _ _ _ _ _ _ hn.ne_dot hn.ne_dotDot]
    obtain ⟨k, rfl⟩ : ∃ k', k = k' + 1 := ⟨k - 1, by omega⟩
    have hlen : k < rest.length := by simp at hk; omega
    cases k with
    | zero =>
      have hne : rest ≠ [] := List.ne_nil_of_length_pos hlen
      simp only [List.take_succ_cons, List.take_zero] at hf
      simp [hf, hne]
    | succ k =>
      have hmem : (done ++ [n] ++ rest.take (k + 1), Node.file d) ∈ t.entries :=
        mem_of_find? (by simp) (by simpa using hf)
      have hdir := ht.find?_dir_of_prefix hmem (by simpa using List.ne_nil_of_length_pos (by omega : 0 < rest.length))
      simp only [hdir]
      exact WF.walk_through_file follow fuel (done ++ [n]) hrest (by omega) hlen (by simpa using hf)

/-- A native path of plain names with no file above it resolves to its names,
unless it is missing. -/
theorem WF.resolve_nativeOf {D : List String} (hD : ∀ n ∈ D, PlainName n)
    (hnf : ∀ k < D.length, ∀ d, t.find? (D.take k) ≠ some (.file d)) (follow : Bool) :
    t.resolve (nativeOf D) follow = .ok D ∨
      (t.resolve (nativeOf D) follow = .error (.os ENOENT) ∧ t.find? D = none) := by
  rcases ht.walk_plain follow 40 [] hD (by simpa using hnf) with h | ⟨h, hnone⟩
  · left
    simp [resolve, namesOf_nativeOf hD, h]
  · right
    simp_all [resolve, namesOf_nativeOf hD]

theorem WF.resolve_nativeOf_of_some {D : List String} (hD : ∀ n ∈ D, PlainName n)
    (hnf : ∀ k < D.length, ∀ d, t.find? (D.take k) ≠ some (.file d)) (follow : Bool) {node : Node}
    (h : t.find? D = some node) : t.resolve (nativeOf D) follow = .ok D := by
  rcases ht.resolve_nativeOf hD hnf follow with hres | ⟨-, hnone⟩
  · exact hres
  · rw [h] at hnone
    cases hnone

section Native

variable {D : List String} (hD : ∀ n ∈ D, PlainName n)
  (hnf : ∀ k < D.length, ∀ d, t.find? (D.take k) ≠ some (.file d))
include hD hnf

theorem WF.metadata_nativeOf_file {d : ByteArray} (h : t.find? D = some (.file d)) :
    t.metadata (nativeOf D) = .ok (.file d.size) := by
  simp [metadata, ht.resolve_nativeOf_of_some hD hnf true h, h, bind, Except.bind, pure, Except.pure]

theorem WF.metadata_nativeOf_dir (h : t.find? D = some .dir) : t.metadata (nativeOf D) = .ok .dir := by
  simp [metadata, ht.resolve_nativeOf_of_some hD hnf true h, h, bind, Except.bind, pure, Except.pure]

theorem WF.symlinkMetadata_nativeOf_dir (h : t.find? D = some .dir) :
    t.symlinkMetadata (nativeOf D) = .ok .dir := by
  simp [symlinkMetadata, ht.resolve_nativeOf_of_some hD hnf false h, h, bind, Except.bind, pure, Except.pure]

theorem WF.metadata_nativeOf_none (h : t.find? D = none) : t.metadata (nativeOf D) = .error (.os ENOENT) := by
  rcases ht.resolve_nativeOf hD hnf true with hres | ⟨hres, -⟩
  · simp [metadata, hres, h, bind, Except.bind, throw, throwThe, MonadExceptOf.throw]
  · simp [metadata, hres, bind, Except.bind]

end Native

theorem WF.metadata_nativeOf_through_file {D : List String} (hD : ∀ n ∈ D, PlainName n) {k : Nat} {d : ByteArray}
    (hk : k < D.length) (hf : t.find? (D.take k) = some (.file d)) : t.metadata (nativeOf D) = .error (.os ENOTDIR) := by
  have hpos : 0 < k := Nat.pos_of_ne_zero fun h0 => by simp [h0, find?] at hf
  have hw := ht.walk_through_file true 40 [] hD hpos hk (by simpa using hf)
  simp [metadata, resolve, namesOf_nativeOf hD, hw, bind, Except.bind]

end WF

end FileTree

end ModMirror
