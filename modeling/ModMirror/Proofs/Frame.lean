import ModMirror.Proofs.Landing
import ModMirror.Proofs.Overlay

/-!
# Changes below a directory

A step on the files *edits below* `R` when every path not strictly below `R`
holds afterwards what it held before (`FileTree.EditsBelow`). In a tree of
plain names without links in which `R` is a directory, each way the client
writes stays below the directory it aims at: making a directory with its
parents adds only names below `R`, since those above are there already;
writing a state file adds its lock and its content; a download replaces one
file's content.

From these follow the files of the data directory, the commit, and a
transfer whose two roots lie at or below `R`, whatever the schedule:

    t.WF → t.find? R = some .dir → m.RootsBelow R →
      m.execute plans fetch source cancelled schedule t = .ok run →
        run.tree.WF ∧ t.EditsBelow R run.tree                        (execute_editsBelow)
-/

namespace ModMirror

/-- `E` lies strictly below `R`: it is `R` followed by at least one more name. -/
def StrictlyBelow (R E : List String) : Prop := ∃ x, x ≠ [] ∧ E = R ++ x

theorem not_strictlyBelow_self (R : List String) : ¬ StrictlyBelow R R := by
  rintro ⟨x, hx, h⟩
  exact hx (by simpa using h)

theorem strictlyBelow_append {R D : List String} (h : R <+: D) {sub : List String} (hsub : sub ≠ []) :
    StrictlyBelow R (D ++ sub) := by
  obtain ⟨y, rfl⟩ := h
  exact ⟨y ++ sub, by simp [hsub], by simp⟩

theorem StrictlyBelow.ne_nil {R D : List String} (h : StrictlyBelow R D) : D ≠ [] := by
  obtain ⟨x, hx, rfl⟩ := h
  simp [hx]

theorem StrictlyBelow.atOrBelow {R D : List String} (h : StrictlyBelow R D) : R <+: D := by
  obtain ⟨x, -, rfl⟩ := h
  exact List.prefix_append R x

theorem prefix_of_not_strictlyBelow {R D E : List String} (hRD : R <+: D) (hED : E <+: D)
    (hE : ¬ StrictlyBelow R E) : E <+: R := by
  rcases le_total E.length R.length with hle | hle
  · exact List.prefix_of_prefix_length_le hED hRD hle
  · obtain ⟨x, rfl⟩ := List.prefix_of_prefix_length_le hRD hED hle
    by_cases hx : x = []
    · simp [hx]
    · exact absurd ⟨x, hx, rfl⟩ hE

namespace FileTree

/-- Every path not strictly below `R` holds in `t'` what it holds in `t`. -/
def EditsBelow (R : List String) (t t' : FileTree) : Prop :=
  ∀ E, ¬ StrictlyBelow R E → t'.find? E = t.find? E

section Edits

variable {R : List String} {t t₁ t₂ : FileTree}

theorem EditsBelow.refl (R : List String) (t : FileTree) : t.EditsBelow R t := fun _ _ => rfl

theorem EditsBelow.trans (h₁ : t.EditsBelow R t₁) (h₂ : t₁.EditsBelow R t₂) : t.EditsBelow R t₂ :=
  fun E hE => (h₂ E hE).trans (h₁ E hE)

theorem EditsBelow.find?_root (h : t.EditsBelow R t₁) : t₁.find? R = t.find? R :=
  h R (not_strictlyBelow_self R)

theorem editsBelow_put {D : List String} (h : StrictlyBelow R D) (n : Node) : t.EditsBelow R (t.put D n) :=
  fun E hE => find?_put_of_ne (fun e => hE (by rw [e]; exact h)) n

theorem lookup_filter_of_key {E : List String} {p : List String × Node → Bool} (hp : ∀ n, p (E, n) = true) :
    ∀ l : List (List String × Node), (l.filter p).lookup E = l.lookup E
  | [] => rfl
  | (q, n) :: l => by
    by_cases hq : E = q
    · subst hq
      simp [List.filter, hp, List.lookup]
    · have hne : (E == q) = false := by simpa using hq
      cases hpq : p (q, n) <;> simp [List.filter, hpq, List.lookup, hne, lookup_filter_of_key hp l]

theorem find?_drop_outside {D E : List String} (h : ¬ D <+: E) : (t.drop D).find? E = t.find? E := by
  have hnp : D.isPrefixOf E = false := Bool.eq_false_iff.mpr fun h' => h (List.isPrefixOf_iff_prefix.mp h')
  unfold find? drop
  split
  · rfl
  · exact lookup_filter_of_key (fun n => by simp [hnp]) t.entries

theorem editsBelow_drop {D : List String} (h : StrictlyBelow R D) : t.EditsBelow R (t.drop D) := by
  intro E hE
  refine find?_drop_outside fun hDE => hE ?_
  obtain ⟨x, hx, rfl⟩ := h
  obtain ⟨y, rfl⟩ := hDE
  exact ⟨x ++ y, by simp [hx], by simp⟩

end Edits

section Sound

variable {t t' : FileTree} (ht : t.WF)
include ht

theorem WF.drop (D : List String) : (t.drop D).WF where
  nodup := ht.nodup.sublist (List.filter_sublist.map _)
  plain := fun e he => ht.plain e (List.mem_of_mem_filter he)
  parent := fun e he => by
    -- the parent of a kept entry is kept: `D` is no prefix of the entry, so none of its parent
    have hkeep : D.isPrefixOf e.1 = false := by simpa [drop] using (List.mem_filter.mp he).2
    have hpar : ¬ D <+: e.1.dropLast := fun hpre => by
      rw [List.isPrefixOf_iff_prefix.mpr (hpre.trans (List.dropLast_prefix _))] at hkeep
      cases hkeep
    rw [find?_drop_outside hpar]
    exact ht.parent e (List.mem_of_mem_filter he)
  noLinks := fun e he => ht.noLinks e (List.mem_of_mem_filter he)

theorem WF.removeDirAll_nativeOf {D : List String} (hD : ∀ n ∈ D, PlainName n)
    (h : t.removeDirAll (nativeOf D) = .ok t') : t' = t.drop D := by
  unfold removeDirAll at h
  have h := ht.resolve_nativeOf_bind hD h
  split at h
  · split at h
    · simp [throw, throwThe, MonadExceptOf.throw] at h
    · simpa [pure, Except.pure] using h.symm
  · simpa [pure, Except.pure] using h.symm
  · simp [throw, throwThe, MonadExceptOf.throw] at h
  · simp [throw, throwThe, MonadExceptOf.throw] at h

variable {R : List String} (hR : t.find? R = some .dir)
include hR

theorem WF.find?_of_prefix {E : List String} (hE : E <+: R) : t.find? E = some .dir := by
  obtain ⟨sub, rfl⟩ := hE
  by_cases hsub : sub = []
  · simpa [hsub] using hR
  · have hne : E ++ sub ≠ [] := by simp [hsub]
    exact ht.find?_dir_of_prefix (mem_of_find? hne hR) hsub

/-- Making a directory at or below `R`, with its missing parents, changes
nothing outside `R`: the parents above `R` are there already. -/
theorem WF.editsBelow_createDirAll {D : List String} (hD : ∀ n ∈ D, PlainName n) (hRD : R <+: D) (fuel : Nat)
    (h : createDirAll.go t (nativeOf D) fuel = .ok t') : t.EditsBelow R t' := by
  intro E hE
  by_cases hED : E <+: D
  · -- a prefix of the path outside `R` is a prefix of `R`: a directory already, and kept
    have hdir := ht.find?_of_prefix hR (prefix_of_not_strictlyBelow hRD hED hE)
    rw [(ht.createDirAll_go_spec hD fuel h).keeps E _ hdir, hdir]
  · exact ht.createDirAll_go_frame hD fuel h hED

theorem WF.editsBelow_writeAtomic {D : List String} (hD : ∀ x ∈ D, PlainName x) {n : String} (hn : PlainName n)
    (hRD : R <+: D) {c : ByteArray} (h : writeAtomic t (nativeOf (D ++ [n])) c = .ok t') : t.EditsBelow R t' := by
  obtain ⟨ht', hfile, hframe⟩ := ht.writeAtomic_spec hD hn h
  intro E hE
  by_cases hED : E <+: D
  · -- a prefix of the path outside `R` is a prefix of `R`: a directory before and after
    have hER := prefix_of_not_strictlyBelow hRD hED hE
    obtain ⟨sub, hsub⟩ := hED
    rw [← hsub, List.append_assoc] at hfile
    rw [ht'.find?_dir_of_prefix (mem_of_find? (by simp) hfile) (by simp), ht.find?_of_prefix hR hER]
  · -- the file and its lock lie strictly below `R`
    have hbelow : ∀ m, StrictlyBelow R (D ++ [m]) := fun _ => strictlyBelow_append hRD (by simp)
    exact hframe E hED (fun he => hE (he ▸ hbelow n)) (fun he => hE (he ▸ hbelow _))

theorem WF.editsBelow_replaceFile {D : List String} (hD : ∀ n ∈ D, PlainName n) (hRD : StrictlyBelow R D)
    {c : ByteArray} (h : replaceFile t (nativeOf D) c = .ok t') : t.EditsBelow R t' := by
  obtain ⟨x, hx, rfl⟩ := hRD
  obtain ⟨x', m, rfl⟩ := (List.eq_nil_or_concat x).resolve_left hx
  rw [List.concat_eq_append, ← List.append_assoc] at hD h
  have hD' : ∀ y ∈ R ++ x', PlainName y := fun y hy => hD y (List.mem_append_left _ hy)
  unfold replaceFile ensureParent at h
  rw [parentText_nativeOf_snoc hD' (hD m (by simp))] at h
  cases h1 : createDirAll t (nativeOf (R ++ x')) with
  | error e => simp [h1, Except.mapError, bind, Except.bind] at h
  | ok t1 =>
    have he1 := ht.editsBelow_createDirAll hR hD' (List.prefix_append R x') _ h1
    have ht1 := (ht.createDirAll_go hD' _ h1).1
    simp only [h1, Except.mapError, bind, Except.bind] at h
    obtain ⟨rfl, -, -⟩ := ht1.replaceContent_nativeOf hD h
    exact he1.trans (editsBelow_put (strictlyBelow_append (List.prefix_append R x') (by simp)) _)

end Sound

end FileTree

/-! ## Saving state files -/

namespace FileTree

section Save

variable {t t' : FileTree} (ht : t.WF) {R : List String} (hR : t.find? R = some .dir) {D : List String}
  (hD : ∀ x ∈ D, PlainName x) {n : String} (hn : PlainName n) (hRD : R <+: D)
include ht hR hD hn hRD

theorem WF.editsBelow_save {α : Type} {codec : Codec α} {p : NormalPath} (hp : p.text = nativeOf (D ++ [n]))
    {v : α} (h : codec.save t p v = .ok t') : t.EditsBelow R t' := by
  obtain ⟨_, _, -, -, hw⟩ := Codec.save_eq_ok h
  rw [hp] at hw
  exact ht.editsBelow_writeAtomic hR hD hn hRD hw

theorem WF.editsBelow_loadOrInit {α : Type} {codec : Codec α} {p : NormalPath} (hp : p.text = nativeOf (D ++ [n]))
    {init v : α} (h : codec.loadOrInit t p init = .ok (v, t')) : t.EditsBelow R t' := by
  rcases Codec.loadOrInit_eq_ok h with ⟨-, rfl⟩ | ⟨-, -, hs⟩
  · exact .refl R _
  · exact ht.editsBelow_save hR hD hn hRD hp hs

end Save

end FileTree

/-! ## Steps on the files -/

/-- The files a step on the files ended with, whether it returned or failed. -/
def treeAfter {ε α : Type} : EStateM.Result ε FileTree α → FileTree
  | .ok _ t => t
  | .error _ t => t

/-- Run on a well-formed tree in which `R` is a directory, the step ends,
returning or failing, on a well-formed tree changed only strictly below `R`. -/
def EditsOnlyBelow {ε α : Type} (R : List String) (m : EStateM ε FileTree α) : Prop :=
  ∀ t, t.WF → t.find? R = some .dir → (treeAfter (m t)).WF ∧ t.EditsBelow R (treeAfter (m t))

section EditsOnly

variable {ε α β : Type} {R : List String}

theorem EditsOnlyBelow.bind {m : EStateM ε FileTree α} {f : α → EStateM ε FileTree β} (hm : EditsOnlyBelow R m)
    (hf : ∀ a, EditsOnlyBelow R (f a)) : EditsOnlyBelow R (m >>= f) := by
  intro t ht hR
  show (treeAfter (EStateM.bind m f t)).WF ∧ t.EditsBelow R (treeAfter (EStateM.bind m f t))
  have hfirst := hm t ht hR
  unfold EStateM.bind
  revert hfirst
  cases m t with
  | ok a t₁ =>
    rintro ⟨ht₁, he₁⟩
    obtain ⟨ht₂, he₂⟩ := hf a t₁ ht₁ (he₁.find?_root.trans hR)
    exact ⟨ht₂, he₁.trans he₂⟩
  | error e t₁ => exact id

theorem editsOnlyBelow_pure (a : α) : EditsOnlyBelow R (pure a : EStateM ε FileTree α) :=
  fun t ht _ => ⟨ht, .refl R t⟩

theorem editsOnlyBelow_reading (r : FileTree → Except ε α) : EditsOnlyBelow R (FileTree.reading r) := by
  intro t ht _
  unfold FileTree.reading
  cases r t <;> exact ⟨ht, .refl R t⟩

theorem editsOnlyBelow_changing {f : FileTree → Except ε FileTree}
    (hf : ∀ t t', t.WF → t.find? R = some .dir → f t = .ok t' → t'.WF ∧ t.EditsBelow R t') :
    EditsOnlyBelow R (FileTree.changing f) := by
  intro t ht hR
  unfold FileTree.changing
  cases hft : f t with
  | ok t' => exact hf t t' ht hR hft
  | error e => exact ⟨ht, .refl R t⟩

end EditsOnly

/-! ## The data directory -/

theorem plainName_syncLock : PlainName "sync.lock" := by decide

section DataFiles

variable {bs : List String} (hbs : ∀ n ∈ bs, PlainName n)
include hbs

theorem forRoot_dir : (DataDir.forRoot ⟨nativeOf bs⟩).dir = ⟨nativeOf (bs ++ [dataDirName])⟩ :=
  join_plainName_nativeOf hbs plainName_dataDirName

theorem plain_dataDir : ∀ n ∈ bs ++ [dataDirName], PlainName n :=
  plain_append hbs (by simpa using plainName_dataDirName)

theorem forRoot_join {n : String} (hn : PlainName n) :
    (DataDir.forRoot ⟨nativeOf bs⟩).dir.join n = ⟨nativeOf (bs ++ [dataDirName] ++ [n])⟩ := by
  rw [forRoot_dir hbs]
  exact join_plainName_nativeOf (plain_dataDir hbs) hn

theorem forRoot_staging :
    (DataDir.forRoot ⟨nativeOf bs⟩).staging = ⟨nativeOf (bs ++ [dataDirName] ++ ["PendingUpdates"])⟩ :=
  forRoot_join hbs (by decide)

theorem plain_staging : ∀ n ∈ bs ++ [dataDirName] ++ ["PendingUpdates"], PlainName n :=
  plain_append (plain_dataDir hbs) (by simp only [List.mem_singleton, forall_eq]; decide)

/-- Taking the lock makes the data directory with its missing parents, then
touches the lock file in it. -/
theorem acquireLock_eq_ok_iff {t t' : FileTree} :
    (DataDir.forRoot ⟨nativeOf bs⟩).acquireLock t = .ok t' ↔
      ∃ t₁, t.createDirAll (nativeOf (bs ++ [dataDirName])) = .ok t₁ ∧
        touch t₁ (nativeOf (bs ++ [dataDirName] ++ ["sync.lock"])) = .ok t' := by
  have hlock : (DataDir.forRoot ⟨nativeOf bs⟩).lockFile.text = nativeOf (bs ++ [dataDirName] ++ ["sync.lock"]) :=
    congrArg NormalPath.text (forRoot_join hbs plainName_syncLock)
  unfold DataDir.acquireLock ensureParent
  rw [hlock]
  dsimp only
  rw [FileTree.parentText_nativeOf_snoc (plain_dataDir hbs) plainName_syncLock]
  cases h1 : t.createDirAll (nativeOf (bs ++ [dataDirName])) with
  | error e => simp [h1, Except.mapError, bind, Except.bind]
  | ok t₁ =>
    simp only [h1, Except.mapError, bind, Except.bind, Except.ok.injEq, exists_eq_left']
    exact mapError_eq_ok

variable {t t' : FileTree} (ht : t.WF) (hR : t.find? bs = some .dir)
include ht hR

theorem save_dataFile_editsBelow {α : Type} {codec : Codec α} {n : String} (hn : PlainName n) {v : α}
    (h : codec.save t ((DataDir.forRoot ⟨nativeOf bs⟩).dir.join n) v = .ok t') : t'.WF ∧ t.EditsBelow bs t' := by
  have hp := congrArg NormalPath.text (forRoot_join hbs hn)
  obtain ⟨-, -, -, -, ht', -⟩ := ht.save_spec (plain_dataDir hbs) hn hp h
  exact ⟨ht', ht.editsBelow_save hR (plain_dataDir hbs) hn (List.prefix_append _ _) hp h⟩

theorem saveLocalHashes_editsBelow {loc : CatalogSet}
    (h : (DataDir.forRoot ⟨nativeOf bs⟩).saveLocalHashes t loc = .ok t') : t'.WF ∧ t.EditsBelow bs t' :=
  save_dataFile_editsBelow hbs ht hR (by decide) (mapError_eq_ok.mp h)

theorem loadLocalExclusions_editsBelow {headless : Bool} {patterns : List String}
    (h : (DataDir.forRoot ⟨nativeOf bs⟩).loadLocalExclusions t headless = .ok (patterns, t')) :
    t'.WF ∧ t.EditsBelow bs t' := by
  have hn : PlainName "Exclusions.json" := by decide
  rcases DataDir.loadLocalExclusions_cases h with hl | rfl
  · have hp := congrArg NormalPath.text (forRoot_join hbs hn)
    exact ⟨ht.loadOrInit_nativeOf (plain_dataDir hbs) hn hp hl,
      ht.editsBelow_loadOrInit hR (plain_dataDir hbs) hn (List.prefix_append _ _) hp hl⟩
  · exact ⟨ht, .refl bs _⟩

theorem acquireLock_editsBelow (h : (DataDir.forRoot ⟨nativeOf bs⟩).acquireLock t = .ok t') :
    t'.WF ∧ t.EditsBelow bs t' := by
  have hD := plain_dataDir hbs
  have hlock : ∀ n ∈ bs ++ [dataDirName] ++ ["sync.lock"], PlainName n :=
    plain_append hD (by simpa using plainName_syncLock)
  obtain ⟨t1, h1, h2⟩ := (acquireLock_eq_ok_iff hbs).mp h
  have he1 := ht.editsBelow_createDirAll hR hD (List.prefix_append _ _) _ h1
  have ht1 := (ht.createDirAll_go hD _ h1).1
  rcases ht1.touch_nativeOf hlock h2 with rfl | ⟨rfl, hput⟩
  · exact ⟨ht1, he1⟩
  · exact ⟨ht1.of_putsAt hlock hput (by simp),
      he1.trans (FileTree.editsBelow_put (strictlyBelow_append (List.prefix_append _ _) (by simp)) _)⟩

omit hR in
/-- Clearing the staging directory drops it, or, when there is nothing to remove, leaves the
tree as it was. -/
theorem clearStaging_cases (h : ((DataDir.forRoot ⟨nativeOf bs⟩).clearStaging t).map Prod.snd = .ok t') :
    t' = t ∨ t' = t.drop (bs ++ [dataDirName] ++ ["PendingUpdates"]) := by
  unfold DataDir.clearStaging DataDir.removeDirIfExists at h
  rw [forRoot_staging hbs] at h
  cases hr : t.removeDirAll (nativeOf (bs ++ [dataDirName] ++ ["PendingUpdates"])) with
  | ok t1 =>
    simp only [hr, Except.mapError, Except.map, Except.ok.injEq] at h
    subst h
    exact .inr (ht.removeDirAll_nativeOf (plain_staging hbs) hr)
  | error e =>
    simp only [hr] at h
    split at h
    · simp only [Except.mapError, Except.map, Except.ok.injEq] at h
      exact .inl h.symm
    · simp [Except.mapError, Except.map] at h

omit hR in
theorem clearStaging_editsBelow (h : ((DataDir.forRoot ⟨nativeOf bs⟩).clearStaging t).map Prod.snd = .ok t') :
    t'.WF ∧ t.EditsBelow bs t' := by
  have hbelow : StrictlyBelow bs (bs ++ [dataDirName] ++ ["PendingUpdates"]) :=
    ⟨[dataDirName, "PendingUpdates"], by simp, by simp⟩
  rcases clearStaging_cases hbs ht h with rfl | rfl
  · exact ⟨ht, .refl bs _⟩
  · exact ⟨ht.drop _, FileTree.editsBelow_drop hbelow⟩

end DataFiles

theorem commit_editsOnlyBelow {bs : List String} (hbs : ∀ n ∈ bs, PlainName n) (remote : CatalogSet)
    (removed : List String) : EditsOnlyBelow bs ((DataDir.forRoot ⟨nativeOf bs⟩).commit remote removed) := by
  have hsave : ∀ {α : Type} {codec : Codec α} {n : String} {v : α}, PlainName n → ∀ t t', t.WF →
      t.find? bs = some .dir →
        (codec.save t ((DataDir.forRoot ⟨nativeOf bs⟩).dir.join n) v).mapError SyncError.fs = .ok t' →
        t'.WF ∧ t.EditsBelow bs t' :=
    fun hn _ _ ht hR h => save_dataFile_editsBelow hbs ht hR hn (mapError_eq_ok.mp h)
  unfold DataDir.commit
  refine (editsOnlyBelow_reading _).bind fun snapshot =>
    (editsOnlyBelow_changing (hsave (by decide))).bind fun _ => ?_
  cases removed.isEmpty
  · exact (editsOnlyBelow_reading _).bind fun manifest =>
      editsOnlyBelow_changing (hsave (by decide))
  · exact editsOnlyBelow_pure _

/-! ## Downloads below the root -/

/-- A unit whose destination is a path of plain names strictly below `R`. -/
def TransferUnit.Below (R : List String) (u : TransferUnit) : Prop :=
  ∃ D, (∀ n ∈ D, PlainName n) ∧ StrictlyBelow R D ∧ u.destination = nativeOf D

namespace TransferManager

variable {m : TransferManager} {R : List String}

/-- Both download roots are paths of plain names at or below `R`. -/
structure RootsBelow (R : List String) (m : TransferManager) : Prop where
  live : ∃ L, (∀ n ∈ L, PlainName n) ∧ R <+: L ∧ m.live = ⟨nativeOf L⟩
  staging : ∃ S, (∀ n ∈ S, PlainName n) ∧ R <+: S ∧ m.staging = ⟨nativeOf S⟩

theorem RootsBelow.join (hm : m.RootsBelow R) (r : Bool) {rel clean : String} (hs : Path.sanitize rel = .ok clean) :
    ∃ D, (∀ n ∈ D, PlainName n) ∧ StrictlyBelow R D ∧ ((m.rootFor r).join clean).text = nativeOf D := by
  obtain ⟨L, hL, hRL, hroot⟩ : ∃ L, (∀ n ∈ L, PlainName n) ∧ R <+: L ∧ m.rootFor r = ⟨nativeOf L⟩ := by
    cases r
    · exact hm.live
    · exact hm.staging
  obtain ⟨hne, hplain, -⟩ := sanitize_segments hs
  exact ⟨L ++ Path.segments clean, plain_append hL hplain, strictlyBelow_append hRL hne,
    by rw [hroot, join_sanitize_nativeOf hL hs]⟩

theorem units_below (hm : m.RootsBelow R) {plans : PlanSet} {us : List TransferUnit} (h : m.units plans = .ok us) :
    ∀ u ∈ us, u.Below R := by
  intro u hu
  obtain ⟨x, -, clean, hs, rfl⟩ := mem_of_forall₂ (units_ok h) hu
  exact hm.join _ hs

variable (hm : m.RootsBelow R) (plans : PlanSet) {t : FileTree} (ht : t.WF) (hR : t.find? R = some .dir)
include hm ht hR

theorem createDirectories_editsBelow :
    (m.createDirectories plans t).2.WF ∧ t.EditsBelow R (m.createDirectories plans t).2 := by
  -- both folds keep: the tree is well formed and changed only below `R`
  let Inv : Nat × FileTree → Prop := fun acc => acc.2.WF ∧ t.EditsBelow R acc.2
  unfold createDirectories
  refine List.foldlRecOn (motive := Inv) _ _ ⟨ht, .refl R t⟩ fun acc hacc p _ => ?_
  refine List.foldlRecOn (motive := Inv) _ _ hacc fun acc' hacc' dir _ => ?_
  obtain ⟨n, t'⟩ := acc'
  obtain ⟨ht', he'⟩ := hacc'
  dsimp only
  unfold createDirectory
  cases hs : Path.sanitize dir with
  | error e => exact ⟨ht', he'⟩
  | ok clean =>
    obtain ⟨D, hD, hRD, hjoin⟩ := hm.join p.spec.restartRequired hs
    dsimp only
    rw [hjoin]
    cases hc : t'.createDirAll (nativeOf D) with
    | error e => exact ⟨ht', he'⟩
    | ok t'' =>
      exact ⟨(ht'.createDirAll_go hD _ hc).1,
        he'.trans (ht'.editsBelow_createDirAll (he'.find?_root.trans hR) hD hRD.atOrBelow _ hc)⟩

end TransferManager

namespace TransferBatch

variable {σ : Type} {fetch : Fetch σ} {m : TransferManager} {us : List TransferUnit} {b : TransferBatch σ}

theorem step_tree (hb : b.Sound m.retry us) (ev : TransferEvent) :
    (b.step m fetch ev).tree = b.tree ∨
      ∃ u ∈ us, ∃ bytes, replaceFile b.tree u.destination bytes = .ok (b.step m fetch ev).tree := by
  cases ev with
  | start =>
    dsimp only [step]
    rcases start_cases m.capacity b with h | ⟨-, h⟩ | ⟨u, rest, -, -, -, h⟩ <;> rw [h] <;> exact .inl rfl
  | advance i =>
    dsimp only [step]
    cases hk : b.tasks[i]? with
    | none =>
      unfold advance
      rw [hk]
      exact .inl rfl
    | some k =>
      have hmem := List.mem_of_getElem? hk
      obtain ⟨k', hm⟩ := advance_moves fetch hk (hb.tasks k hmem)
      rcases hm.writes with ⟨htree, -⟩ | ⟨bytes, -, -, hw⟩
      · exact .inl htree
      · exact .inr ⟨k.unit, hb.unit_mem hmem, bytes, hw⟩
  | cancel => exact .inl rfl

end TransferBatch

namespace TransferManager

variable {σ : Type} {m : TransferManager} {fetch : Fetch σ} {R : List String}

/-- Whatever the schedule, a batch whose units lie strictly below `R` changes
nothing outside `R`. -/
theorem runBatch_editsBelow {us : List TransferUnit} (hus : ∀ u ∈ us, u.Below R) (source : σ) (cancelled : Bool)
    (schedule : List TransferEvent) {t : FileTree} (ht : t.WF) (hR : t.find? R = some .dir) :
    (m.runBatch fetch us source cancelled schedule t).tree.WF ∧
      t.EditsBelow R (m.runBatch fetch us source cancelled schedule t).tree := by
  refine runBatch_invariant (fun c => c.tree.WF ∧ t.EditsBelow R c.tree) (fun c ev hc hinv => ?_)
    source cancelled schedule t ⟨ht, .refl R t⟩
  obtain ⟨hw, he⟩ := hinv
  rcases TransferBatch.step_tree hc ev with h | ⟨u, hu, bytes, hrep⟩
  · rw [h]
    exact ⟨hw, he⟩
  · obtain ⟨D, hD, hRD, hdest⟩ := hus u hu
    rw [hdest] at hrep
    exact ⟨(hw.replaceFile_nativeOf hD hRD.ne_nil hrep).1,
      he.trans (hw.editsBelow_replaceFile (he.find?_root.trans hR) hD hRD hrep)⟩

/-- A transfer under roots at or below `R` changes nothing outside `R`. -/
theorem execute_editsBelow (hm : m.RootsBelow R) {plans : PlanSet} {source : σ} {cancelled : Bool}
    {schedule : List TransferEvent} {t : FileTree} {run : TransferRun σ}
    (h : m.execute plans fetch source cancelled schedule t = .ok run) (ht : t.WF) (hR : t.find? R = some .dir) :
    run.tree.WF ∧ t.EditsBelow R run.tree := by
  cases hu : m.units plans with
  | error e =>
    rw [execute, hu] at h
    cases h
  | ok us =>
    rw [execute_of_units hu] at h
    cases h
    obtain ⟨hw, he⟩ := createDirectories_editsBelow hm plans ht hR
    obtain ⟨hw', he'⟩ : (m.runBatch fetch us source cancelled schedule (m.createDirectories plans t).2).tree.WF ∧ _ :=
      runBatch_editsBelow (units_below hm hu) source cancelled schedule hw (he.find?_root.trans hR)
    exact ⟨hw', he.trans he'⟩

end TransferManager

end ModMirror
