import ModMirror.Fs.Store
import ModMirror.Proofs.Tree

/-!
# Writes keep a tree well formed

A state file is written below the root of the install in three steps: its
missing parent directories are made one level at a time, a `.lock` sidecar
is touched, and the content is put in place. In a well-formed tree each
step at a native path of plain names puts one entry whose parent is a
directory, and so the tree stays well formed (`WF.writeAtomic_spec`), the
content stands at the file's path, and nothing changes but the file, its lock
and the missing parents.

A successful walk over plain names ends at those names (`WF.walk_plain_ok`),
so each operation puts its entry exactly at the path it was given, and one
lemma (`WF.put`) says when putting an entry keeps the tree well formed.
Making the parents is summed up once, in `DirsMade`: what every later proof
about a write needs of it.
-/

namespace ModMirror

open Text

/-- The lock sidecar of a plain name is a plain name. -/
theorem PlainName.lock {n : String} (h : PlainName n) : PlainName (n ++ ".lock") := by
  obtain ⟨hne, -, -, hslash, hback⟩ := h
  refine ⟨by simp, ?_, ?_, ?_, ?_⟩
  · intro heq
    have := congrArg List.length heq
    simp at this
  · intro heq
    have := congrArg List.length heq
    simp at this
  · simp [hslash]
  · simp [hback]

theorem mapError_eq_ok {ε ε' α : Type} {f : ε → ε'} {x : Except ε α} {a : α} :
    x.mapError f = .ok a ↔ x = .ok a := by
  cases x <;> simp [Except.mapError]

/-- A save that succeeds rendered the value in the format its path names and
wrote the text atomically. -/
theorem Codec.save_eq_ok {α : Type} {c : Codec α} {t t' : FileTree} {p : NormalPath} {v : α}
    (h : c.save t p v = .ok t') :
    ∃ fmt text, ConfigFormat.ofPath p = .ok fmt ∧ c.render fmt p.text v = .ok text ∧
      writeAtomic t p.text text.toUTF8 = .ok t' := by
  unfold Codec.save at h
  cases hf : ConfigFormat.ofPath p with
  | error e => simp [hf, bind, Except.bind] at h
  | ok fmt =>
    cases hr : c.render fmt p.text v with
    | error e => simp [hf, hr, bind, Except.bind] at h
    | ok text =>
      simp only [hf, hr, bind, Except.bind] at h
      exact ⟨fmt, text, rfl, hr, h⟩

/-- A load that succeeds found the file and left the tree, or found none and
saved the initial value. -/
theorem Codec.loadOrInit_eq_ok {α : Type} {c : Codec α} {t t' : FileTree} {p : NormalPath} {init v : α}
    (h : c.loadOrInit t p init = .ok (v, t')) :
    (c.loadIfExists t p = .ok (some v) ∧ t' = t) ∨
      (c.loadIfExists t p = .ok none ∧ v = init ∧ c.save t p init = .ok t') := by
  unfold Codec.loadOrInit at h
  cases hl : c.loadIfExists t p with
  | error e => simp [hl, bind, Except.bind] at h
  | ok o =>
    cases o with
    | some v' =>
      simp only [hl, bind, Except.bind, pure, Except.pure, Except.ok.injEq, Prod.mk.injEq] at h
      exact .inl ⟨by rw [h.1], h.2.symm⟩
    | none =>
      cases hs : c.save t p init with
      | error e => simp [hl, hs, bind, Except.bind] at h
      | ok t1 =>
        simp only [hl, hs, bind, Except.bind, pure, Except.pure, Except.ok.injEq, Prod.mk.injEq] at h
        exact .inr ⟨rfl, h.1.symm, by rw [h.2]⟩

namespace FileTree

/-! ## Parents of native paths -/

theorem parentText_nativeOf_nil : parentText (nativeOf []) = none := by decide

theorem parentText_nativeOf_snoc {D : List String} {n : String} (hD : ∀ x ∈ D, PlainName x) (hn : PlainName n) :
    parentText (nativeOf (D ++ [n])) = some (nativeOf D) := by
  have hall : ∀ x ∈ treeRoot :: (D ++ [n]), PlainName x :=
    plain_cons_root fun x hx => by
      rcases List.mem_append.mp hx with hx | hx
      · exact hD x hx
      · exact (List.mem_singleton.mp hx) ▸ hn
  unfold parentText
  rw [nativeOf_toList, splitOn_keyChars (by simp) (no_slash_of_plain hall), ← List.cons_append, List.map_append,
    List.map_singleton, List.dropLast_concat, List.map_cons]
  simp only [Option.some.injEq]
  rw [← String.ofList_toList (s := nativeOf D), nativeOf_toList]
  rfl

/-! ## Putting one entry -/

theorem lookup_filter_append (l : List (List String × Node)) (D q : List String) (n : Node) :
    (l.filter (·.1 ≠ D) ++ [(D, n)]).lookup q = if q = D then some n else l.lookup q := by
  induction l with
  | nil =>
    by_cases hq : q = D
    · simp [hq]
    · simp [hq, List.lookup_cons, beq_eq_false_iff_ne.mpr hq]
  | cons e l ih =>
    obtain ⟨k, v⟩ := e
    by_cases hk : k = D
    · -- the old entry at `D` is dropped
      subst hk
      rw [List.filter_cons_of_neg (by simp), ih]
      by_cases hq : q = k
      · simp [hq]
      · simp [hq, List.lookup_cons, beq_eq_false_iff_ne.mpr hq]
    · rw [List.filter_cons_of_pos (by simpa using hk), List.cons_append, List.lookup_cons, List.lookup_cons, ih]
      by_cases hq : q = k
      · subst hq
        simp [hk]
      · simp [beq_eq_false_iff_ne.mpr hq]

theorem find?_put_self {t : FileTree} {D : List String} (hD : D ≠ []) (n : Node) :
    (t.put D n).find? D = some n := by
  simp only [find?, put, if_neg hD]
  rw [lookup_filter_append, if_pos rfl]

theorem mem_put {t : FileTree} {D : List String} {n : Node} {e : List String × Node} (he : e ∈ (t.put D n).entries) :
    e ∈ t.entries ∨ e = (D, n) := by
  simp only [put, List.mem_append, List.mem_filter, List.mem_singleton] at he
  rcases he with ⟨he, -⟩ | rfl
  · exact .inl he
  · exact .inr rfl

theorem find?_put_of_ne {t : FileTree} {D q : List String} (hq : q ≠ D) (n : Node) :
    (t.put D n).find? q = t.find? q := by
  unfold find? put
  split
  · rfl
  · simp only [lookup_filter_append, if_neg hq]

theorem find?_put_of_none {t : FileTree} {D q : List String} (hD : t.find? D = none) {n₀ : Node}
    (hq : t.find? q = some n₀) (n : Node) : (t.put D n).find? q = some n₀ := by
  rw [find?_put_of_ne fun h => by rw [h, hD] at hq; cases hq]
  exact hq

section WF

variable {t : FileTree} (ht : t.WF)
include ht

/-- Putting a node at a path of plain names whose parent is a directory keeps
the tree well formed, unless it would replace a directory, whose entries
would lose their parent. -/
theorem WF.put {D : List String} {n : Node} (hD : D ≠ []) (hplain : ∀ x ∈ D, PlainName x)
    (hparent : t.find? D.dropLast = some .dir) (hdir : t.find? D ≠ some .dir)
    (hlink : ∀ target, n ≠ .link target) : (t.put D n).WF := by
  have hdrop : D.dropLast ≠ D := fun h => by
    have := congrArg List.length h
    have : 0 < D.length := List.length_pos_iff.mpr hD
    simp at *
    omega
  refine ⟨?_, ?_, ?_, ?_⟩
  · -- the kept paths are distinct and none is `D`
    simp only [FileTree.put, List.map_append, List.map_cons, List.map_nil]
    refine List.nodup_append.mpr ⟨(ht.nodup.sublist (List.filter_sublist.map Prod.fst)), List.nodup_singleton _, ?_⟩
    intro a ha b hb
    obtain ⟨e, he, rfl⟩ := List.mem_map.mp ha
    simp only [List.mem_filter, decide_eq_true_eq] at he
    simp only [List.mem_singleton] at hb
    exact hb ▸ he.2
  · intro e he
    simp only [FileTree.put, List.mem_append, List.mem_filter, List.mem_singleton] at he
    rcases he with ⟨he, -⟩ | rfl
    · exact ht.plain e he
    · exact ⟨hD, hplain⟩
  · intro e he
    simp only [FileTree.put, List.mem_append, List.mem_filter, List.mem_singleton, decide_eq_true_eq] at he
    rcases he with ⟨he, hne⟩ | rfl
    · -- an old entry keeps its parent: `D` is no directory, so it is no parent
      have hp := ht.parent e he
      have hpD : e.1.dropLast ≠ D := fun h => hdir (h ▸ hp)
      rw [find?_put_of_ne hpD]
      exact hp
    · rw [find?_put_of_ne hdrop]
      exact hparent
  · intro e he target
    simp only [FileTree.put, List.mem_append, List.mem_filter, List.mem_singleton] at he
    rcases he with ⟨he, -⟩ | rfl
    · exact ht.noLinks e he target
    · exact hlink target

/-! ## Resolving plain names -/

/-- A successful walk over plain names ends at those names. -/
theorem WF.walk_plain_ok (follow : Bool) (fuel : Nat) : ∀ {ns : List String} (done : List String) {r : List String},
    (∀ n ∈ ns, PlainName n) → t.walk follow done ns fuel = .ok (some r) → r = done ++ ns
  | [], done, r, _, h => by
    rw [walk.eq_1] at h
    cases h
    simp
  | n :: rest, done, r, hplain, h => by
    have hn := hplain n List.mem_cons_self
    have hrest : ∀ m ∈ rest, PlainName m := fun m hm => hplain m (List.mem_cons_of_mem _ hm)
    rw [walk.eq_4 _ _ _ _ _ _ hn.ne_dot hn.ne_dotDot] at h
    cases hf : t.find? (done ++ [n]) with
    | none =>
      cases rest with
      | nil => simp_all
      | cons m rest' => simp [hf] at h
    | some node =>
      cases node with
      | dir =>
        simp only [hf] at h
        simpa using WF.walk_plain_ok follow fuel (done ++ [n]) hrest h
      | file d =>
        cases rest with
        | nil => simp_all
        | cons m rest' => simp [hf] at h
      | link target => exact absurd hf ht.not_link

theorem WF.resolve_nativeOf_eq {D r : List String} (hD : ∀ n ∈ D, PlainName n) {follow : Bool}
    (h : t.resolve (nativeOf D) follow = .ok r) : r = D := by
  unfold resolve at h
  rw [namesOf_nativeOf hD] at h
  simp only at h
  split at h
  · rename_i r' hw
    cases h
    simpa using ht.walk_plain_ok follow 40 [] hD hw
  · cases h
  · cases h

/-- An operation that starts by resolving a plain path and succeeds went on
from the path's own names. -/
theorem WF.resolve_nativeOf_bind {α : Type} {D : List String} (hD : ∀ n ∈ D, PlainName n) {follow : Bool}
    {k : List String → Except IoError α} {x : α} (h : (t.resolve (nativeOf D) follow >>= k) = .ok x) :
    k D = .ok x := by
  cases hr : t.resolve (nativeOf D) follow with
  | error e => simp [hr, bind, Except.bind] at h
  | ok r =>
    obtain rfl := ht.resolve_nativeOf_eq hD hr
    simpa only [hr, bind, Except.bind] using h

/-- A plain native path of a well-formed tree that has metadata names a file or a directory
the tree holds, and the metadata says which. -/
theorem WF.metadata_nativeOf_eq_ok {D : List String} (hD : ∀ n ∈ D, PlainName n) {m : EntryKind}
    (h : t.metadata (nativeOf D) = .ok m) :
    (∃ d, t.find? D = some (.file d) ∧ m = .file d.size) ∨ (t.find? D = some .dir ∧ m = .dir) := by
  unfold metadata at h
  have h := ht.resolve_nativeOf_bind hD h
  cases hf : t.find? D with
  | none => simp [hf, throw, throwThe, MonadExceptOf.throw] at h
  | some node =>
    rw [hf] at h
    cases node with
    | file d =>
      simp only [pure, Except.pure, Except.ok.injEq] at h
      exact .inl ⟨d, rfl, h.symm⟩
    | dir =>
      simp only [pure, Except.pure, Except.ok.injEq] at h
      exact .inr ⟨rfl, h.symm⟩
    | link target => exact absurd hf ht.not_link

theorem WF.find?_of_isDir {D : List String} (hD : ∀ n ∈ D, PlainName n) (h : t.isDir (nativeOf D) = true) :
    t.find? D = some .dir := by
  unfold isDir at h
  cases hm : t.metadata (nativeOf D) with
  | error e => simp [hm] at h
  | ok k =>
    rcases ht.metadata_nativeOf_eq_ok hD hm with ⟨d, -, rfl⟩ | ⟨hdir, -⟩
    · simp [hm] at h
    · exact hdir

end WF

/-! ## What each write puts -/

theorem parentIsDir_eq_ok {t : FileTree} {r : List String} {u : Unit} :
    t.parentIsDir r = .ok u ↔ t.find? r.dropLast = some .dir := by
  unfold parentIsDir
  split <;> simp_all

/-- The conditions under which a write at `D` puts a node there and nothing else. -/
structure PutsAt (t : FileTree) (D : List String) : Prop where
  ne_nil : D ≠ []
  parent : t.find? D.dropLast = some .dir
  not_dir : t.find? D ≠ some .dir

section Ops

variable {t t' : FileTree} (ht : t.WF) {D : List String} (hD : ∀ n ∈ D, PlainName n)
include ht hD

theorem WF.of_putsAt {n : Node} (h : t.PutsAt D) (hlink : ∀ target, n ≠ .link target) : (t.put D n).WF :=
  ht.put h.ne_nil hD h.parent h.not_dir hlink

theorem WF.createDir_nativeOf (h : t.createDir (nativeOf D) = .ok t') :
    t' = t.put D .dir ∧ t.PutsAt D ∧ t.find? D = none := by
  unfold createDir at h
  have h := ht.resolve_nativeOf_bind hD h
  cases hf : t.find? D with
  | some n => simp [hf, throw, throwThe, MonadExceptOf.throw] at h
  | none =>
    have hne : D ≠ [] := fun h0 => by simp [find?, h0] at hf
    simp only [hf] at h
    cases hp : t.parentIsDir D with
    | error e => simp [hp] at h
    | ok u =>
      simp only [hp, bind, Except.bind, pure, Except.pure, Except.ok.injEq] at h
      exact ⟨h.symm, ⟨hne, parentIsDir_eq_ok.mp hp, by simp [hf]⟩, rfl⟩

theorem WF.writeFile_nativeOf {data : ByteArray} (h : t.writeFile (nativeOf D) data = .ok t') :
    t' = t.put D (.file data) ∧ t.PutsAt D := by
  unfold writeFile at h
  have h := ht.resolve_nativeOf_bind hD h
  have hnd : t.find? D ≠ some .dir := fun hf => by
    simp [hf, throw, throwThe, MonadExceptOf.throw] at h
  have hne : D ≠ [] := fun h0 => hnd (by simp [find?, h0])
  split at h
  · simp [throw, throwThe, MonadExceptOf.throw] at h
  · cases hp : t.parentIsDir D with
    | error e => simp [hp] at h
    | ok u =>
      simp only [hp, bind, Except.bind, pure, Except.pure, Except.ok.injEq] at h
      exact ⟨h.symm, ⟨hne, parentIsDir_eq_ok.mp hp, hnd⟩⟩

theorem WF.touch_nativeOf (h : touch t (nativeOf D) = .ok t') :
    t' = t ∨ (t' = t.put D (.file .empty) ∧ t.PutsAt D) := by
  unfold touch at h
  split at h
  · cases h
    exact .inl rfl
  · cases h
  · exact .inr (ht.writeFile_nativeOf hD h)

theorem WF.replaceContent_nativeOf {c : ByteArray} (h : replaceContent t (nativeOf D) c = .ok t') :
    t' = t.put D (.file c) ∧ D ≠ [] ∧ t.find? D ≠ some .dir := by
  unfold replaceContent at h
  cases hr : t.resolve (nativeOf D) false with
  | error e => simp [hr, Except.mapError, bind, Except.bind] at h
  | ok r =>
    obtain rfl := ht.resolve_nativeOf_eq hD hr
    simp only [hr, Except.mapError, bind, Except.bind] at h
    have hnd : t.find? r ≠ some .dir := fun hf => by
      simp [hf, throw, throwThe, MonadExceptOf.throw] at h
    have hne : r ≠ [] := fun h0 => hnd (by simp [find?, h0])
    split at h
    · simp [throw, throwThe, MonadExceptOf.throw] at h
    · simp only [pure, Except.pure, Except.ok.injEq] at h
      exact ⟨h.symm, hne, hnd⟩

end Ops

/-! ## Making a directory with its parents -/

/-- What making a directory with its missing parents does to a well-formed
tree: it stays well formed, a directory stands at the path, every entry that
was there stays, and every new entry is at a prefix of the path. -/
structure DirsMade (t : FileTree) (D : List String) (t' : FileTree) : Prop where
  wf : t'.WF
  dir : t'.find? D = some .dir
  keeps : ∀ E n, t.find? E = some n → t'.find? E = some n
  within : ∀ e ∈ t'.entries, e ∈ t.entries ∨ e.1 <+: D

theorem dirsMade_refl {t : FileTree} {D : List String} (ht : t.WF) (hdir : t.find? D = some .dir) :
    t.DirsMade D t :=
  ⟨ht, hdir, fun _ _ h => h, fun _ he => .inl he⟩

theorem DirsMade.mono {t t' : FileTree} {D D' : List String} (hm : t.DirsMade D' t') (hp : D' <+: D)
    (hdir : t'.find? D = some .dir) : t.DirsMade D t' :=
  ⟨hm.wf, hdir, hm.keeps, fun e he => (hm.within e he).imp_right fun h => h.trans hp⟩

theorem DirsMade.createDir {t t₁ t₂ : FileTree} {D D' : List String} (hm : t.DirsMade D' t₁)
    (hD : ∀ n ∈ D, PlainName n) (hp : D' <+: D) (hc : t₁.createDir (nativeOf D) = .ok t₂) :
    t.DirsMade D t₂ := by
  obtain ⟨rfl, hput, hnone⟩ := hm.wf.createDir_nativeOf hD hc
  refine ⟨hm.wf.of_putsAt hD hput (by simp), find?_put_self hput.ne_nil _,
    fun E m hE => find?_put_of_none hnone (hm.keeps E m hE) _, fun e he => ?_⟩
  rcases mem_put he with he | rfl
  · exact (hm.within e he).imp_right fun h => h.trans hp
  · exact .inr (List.prefix_refl _)

section Parents

variable {t t' : FileTree} (ht : t.WF) {D : List String} (hD : ∀ n ∈ D, PlainName n)
include ht hD

/-- Making a directory with its missing parents puts directories at prefixes
of the path only, over every entry that was there. -/
theorem WF.createDirAll_go_spec (fuel : Nat) (h : createDirAll.go t (nativeOf D) fuel = .ok t') :
    t.DirsMade D t' := by
  induction fuel generalizing D t' with
  | zero => simp [createDirAll.go] at h
  | succ fuel ih =>
    rw [createDirAll.go] at h
    cases hc : t.createDir (nativeOf D) with
    | ok t1 =>
      simp only [hc, Except.ok.injEq] at h
      subst h
      exact (dirsMade_refl ht (by simp [find?])).createDir hD (List.nil_prefix) hc
    | error e =>
      simp only [hc] at h
      split at h
      · -- the parent is missing: it is made first, then the path below it
        rcases List.eq_nil_or_concat D with rfl | ⟨D', n, rfl⟩
        · simp [parentText_nativeOf_nil] at h
        · rw [List.concat_eq_append] at hD ⊢ h
          have hD' : ∀ x ∈ D', PlainName x := fun x hx => hD x (List.mem_append_left _ hx)
          rw [parentText_nativeOf_snoc hD' (hD n (by simp))] at h
          simp only at h
          cases hg : createDirAll.go t (nativeOf D') fuel with
          | error e' => simp [hg] at h
          | ok t1 =>
            have hm := ih hD' hg
            simp only [hg] at h
            cases hc1 : t1.createDir (nativeOf (D' ++ [n])) with
            | ok t2 =>
              simp only [hc1, Except.ok.injEq] at h
              subst h
              exact hm.createDir hD (List.prefix_append _ _) hc1
            | error e'' =>
              simp only [hc1] at h
              split at h
              · cases h
                exact hm.mono (List.prefix_append _ _) (hm.wf.find?_of_isDir hD ‹_›)
              · cases h
      · split at h
        · cases h
          exact dirsMade_refl ht (ht.find?_of_isDir hD ‹_›)
        · cases h

theorem WF.createDirAll_go_frame (fuel : Nat) (h : createDirAll.go t (nativeOf D) fuel = .ok t')
    {E : List String} (hE : ¬ E <+: D) : t'.find? E = t.find? E := by
  have hm := ht.createDirAll_go_spec hD fuel h
  cases hE0 : t.find? E with
  | some n => exact hm.keeps E n hE0
  | none =>
    cases hE1 : t'.find? E with
    | none => rfl
    | some n =>
      have hne : E ≠ [] := fun e => by simp [find?, e] at hE0
      rcases hm.within _ (mem_of_find? hne hE1) with hmem | hpre
      · rw [ht.find?_of_mem hmem] at hE0
        cases hE0
      · exact absurd hpre hE

/-- Making a directory and its missing parents keeps the tree well formed and
leaves a directory at the path. -/
theorem WF.createDirAll_go (fuel : Nat) (h : createDirAll.go t (nativeOf D) fuel = .ok t') :
    t'.WF ∧ t'.find? D = some .dir :=
  ⟨(ht.createDirAll_go_spec hD fuel h).wf, (ht.createDirAll_go_spec hD fuel h).dir⟩

end Parents

/-! ## Writing a file atomically -/

section Atomic

variable {t t' : FileTree} (ht : t.WF) {D : List String} (hD : ∀ x ∈ D, PlainName x) {n : String}
  (hn : PlainName n)
include ht hD hn

/-- Writing a state file atomically keeps the tree well formed, puts the
content at the file's path, and changes nothing but the missing parents and
the lock beside it. -/
theorem WF.writeAtomic_spec {c : ByteArray} (h : writeAtomic t (nativeOf (D ++ [n])) c = .ok t') :
    t'.WF ∧ t'.find? (D ++ [n]) = some (.file c) ∧
      ∀ E, ¬ E <+: D → E ≠ D ++ [n] → E ≠ D ++ [n ++ ".lock"] → t'.find? E = t.find? E := by
  have hDn : ∀ x ∈ D ++ [n], PlainName x := plain_append hD (by simpa using hn)
  have hDl : ∀ x ∈ D ++ [n ++ ".lock"], PlainName x := plain_append hD (by simpa using hn.lock)
  have hlock : lockPathOf (nativeOf (D ++ [n])) = nativeOf (D ++ [n ++ ".lock"]) := by
    simp only [lockPathOf, nativeOf_snoc, String.append_assoc]
  unfold writeAtomic ensureParent at h
  rw [parentText_nativeOf_snoc hD hn] at h
  cases h1 : createDirAll t (nativeOf D) with
  | error e => simp [h1, Except.mapError, bind, Except.bind] at h
  | ok t1 =>
    obtain ⟨ht1, hdir1⟩ := ht.createDirAll_go hD _ h1
    have hframe1 : ∀ E, ¬ E <+: D → t1.find? E = t.find? E := fun _ hE => ht.createDirAll_go_frame hD _ h1 hE
    simp only [h1, Except.mapError, bind, Except.bind] at h
    rw [hlock] at h
    cases h2 : touch t1 (nativeOf (D ++ [n ++ ".lock"])) with
    | error e => simp [h2] at h
    | ok t2 =>
      obtain ⟨ht2, hD2, hframe2⟩ : t2.WF ∧ t2.find? D = some .dir ∧
          ∀ E, E ≠ D ++ [n ++ ".lock"] → t2.find? E = t1.find? E := by
        rcases ht1.touch_nativeOf hDl h2 with rfl | ⟨rfl, hput⟩
        · exact ⟨ht1, hdir1, fun _ _ => rfl⟩
        · refine ⟨ht1.of_putsAt hDl hput (by simp), ?_, fun E hE => find?_put_of_ne hE _⟩
          rw [find?_put_of_ne (by simp)]
          exact hdir1
      simp only [h2] at h
      obtain ⟨rfl, hne, hnd⟩ := ht2.replaceContent_nativeOf hDn h
      refine ⟨ht2.put hne hDn (by simpa using hD2) hnd (by simp), find?_put_self hne _, ?_⟩
      intro E hE hEn hEl
      rw [find?_put_of_ne hEn, hframe2 E hEl, hframe1 E hE]

/-- Saving a value writes its rendered text at the file's path, and changes
nothing but the missing parents and the lock beside it. -/
theorem WF.save_spec {α : Type} {codec : Codec α} {p : NormalPath} (hp : p.text = nativeOf (D ++ [n])) {v : α}
    (h : codec.save t p v = .ok t') :
    ∃ fmt text, ConfigFormat.ofPath p = .ok fmt ∧ codec.render fmt p.text v = .ok text ∧
      t'.WF ∧ t'.find? (D ++ [n]) = some (.file text.toUTF8) ∧
      ∀ E, ¬ E <+: D → E ≠ D ++ [n] → E ≠ D ++ [n ++ ".lock"] → t'.find? E = t.find? E := by
  obtain ⟨fmt, text, hf, hr, hw⟩ := Codec.save_eq_ok h
  rw [hp] at hw
  exact ⟨fmt, text, hf, hr, ht.writeAtomic_spec hD hn hw⟩

theorem WF.loadOrInit_nativeOf {α : Type} {codec : Codec α} {p : NormalPath} (hp : p.text = nativeOf (D ++ [n]))
    {init v : α} (h : codec.loadOrInit t p init = .ok (v, t')) : t'.WF := by
  rcases Codec.loadOrInit_eq_ok h with ⟨-, rfl⟩ | ⟨-, -, hs⟩
  · exact ht
  · obtain ⟨-, -, -, -, ht', -⟩ := ht.save_spec hD hn hp hs
    exact ht'

end Atomic

end FileTree

end ModMirror
