import ModMirror.Catalog.Basic
import ModMirror.Proofs.KeyMap
import ModMirror.Proofs.Names

/-!
# Catalog invariants and what lookups mean

Every catalog the operations build keeps its entries in key order, stores
each path in its clean spelling (forward slashes, no outer slashes), and
keys it by the folded spelling (`PathCatalog.WF`); a catalog set does the
same for its sync paths and holds only such catalogs (`CatalogSet.WF`).

Under the invariant each lookup reads as a statement about the stored
spellings, compared through their keys:

    c.contains x = true ↔ some stored path has the key of x          (WF.contains_iff)
    c.hasDescendant x = true ↔ some stored key extends key x ++ "/"   (WF.hasDescendant_iff)

The descendant query looks at the first stored key at or after `key x ++ "/"`
only; in key order that key decides (`hasDescendant_iff_key_below`).
    c.get x = some r ↔ (y, r) is stored with the key of x            (WF.get_eq_some_iff)
-/

namespace ModMirror

open Text

/-! ## Clean spellings -/

theorem mem_of_mem_trimBoth {c x : Char} {cs : List Char} (h : x ∈ trimBoth c cs) : x ∈ cs := by
  have hpre : trimBoth c cs <+: trimStart c cs := List.rdropWhile_prefix _ _
  exact (List.dropWhile_suffix _).subset (hpre.subset h)

theorem trimStart_trimBoth (c : Char) (cs : List Char) : trimStart c (trimBoth c cs) = trimBoth c cs := by
  have hhead : ∀ h : 0 < (trimStart c cs).length, (trimStart c cs)[0] ≠ c := by
    intro h
    simpa [trimStart] using List.dropWhile_get_zero_not (fun x => decide (x = c)) cs h
  have hpre : trimBoth c cs <+: trimStart c cs := List.rdropWhile_prefix _ _
  apply List.dropWhile_eq_self_iff.mpr
  intro hl
  have hl' : 0 < (trimStart c cs).length := lt_of_lt_of_le hl hpre.length_le
  rw [hpre.getElem hl]
  simpa using hhead hl'

theorem trimEnd_trimBoth (c : Char) (cs : List Char) : trimEnd c (trimBoth c cs) = trimBoth c cs :=
  List.rdropWhile_idempotent _ _

theorem trimBoth_trimBoth (c : Char) (cs : List Char) : trimBoth c (trimBoth c cs) = trimBoth c cs := by
  show trimEnd c (trimStart c (trimBoth c cs)) = trimBoth c cs
  rw [trimStart_trimBoth, trimEnd_trimBoth]

theorem cleanKeyPath_cleanKeyPath (p : String) : cleanKeyPath (cleanKeyPath p) = cleanKeyPath p := by
  unfold cleanKeyPath
  rw [String.toList_ofList]
  have hno : '\\' ∉ trimBoth '/' (unifySlashes p.toList) :=
    fun h => unifySlashes_no_backslash _ (mem_of_mem_trimBoth h)
  rw [unifySlashes_of_no_backslash hno, trimBoth_trimBoth]

theorem catalogKey_of_clean {p : String} (h : cleanKeyPath p = p) : catalogKey p = Path.foldKey p := by
  rw [catalogKey, h]

namespace PathCatalog

/-! ## The catalog invariant -/

/-- What every catalog the operations build satisfies. -/
structure WF (c : PathCatalog) : Prop where
  sorted : KeyMap.Sorted c.entries
  clean : ∀ e ∈ c.entries, cleanKeyPath e.2.path = e.2.path
  keyed : ∀ e ∈ c.entries, e.1 = Path.foldKey e.2.path

theorem wf_empty : (empty : PathCatalog).WF :=
  ⟨List.Pairwise.nil, by simp [empty], by simp [empty]⟩

theorem WF.add {c : PathCatalog} (h : c.WF) (p : String) (r : FileRecord) : (c.add p r).WF := by
  refine ⟨KeyMap.sorted_insert _ _ h.sorted, ?_, ?_⟩
  · intro e he
    rcases KeyMap.mem_insert he with rfl | he
    · exact cleanKeyPath_cleanKeyPath p
    · exact h.clean e he
  · intro e he
    rcases KeyMap.mem_insert he with rfl | he
    · rfl
    · exact h.keyed e he

theorem WF.retain {c : PathCatalog} (h : c.WF) (keep : String → FileRecord → Bool) : (c.retain keep).WF :=
  ⟨h.sorted.filter _, fun e he => h.clean e (List.mem_of_mem_filter he),
    fun e he => h.keyed e (List.mem_of_mem_filter he)⟩

theorem WF.foldl_add {c : PathCatalog} (h : c.WF) (xs : List (String × FileRecord)) :
    (xs.foldl (fun c (p, r) => c.add p r) c).WF := by
  induction xs generalizing c with
  | nil => exact h
  | cons x xs ih => exact ih (h.add x.1 x.2)

theorem wf_ofList (xs : List (String × FileRecord)) : (ofList xs).WF :=
  wf_empty.foldl_add xs

theorem wf_ofJson (j : Json) : (ofJson j).WF := wf_ofList _

/-! ## Lookups under the invariant -/

/-- `c` holds `x` under some spelling: a stored path has the key of `x`. -/
def Holds (c : PathCatalog) (x : String) : Prop := ∃ e ∈ c.toList, catalogKey e.1 = catalogKey x

/-- Some stored path lies strictly below the directory `x`. -/
def HoldsBelow (c : PathCatalog) (x : String) : Prop :=
  ∃ e ∈ c.toList, (catalogKey x ++ "/").toList <+: (catalogKey e.1).toList

instance (c : PathCatalog) (x : String) : Decidable (c.Holds x) :=
  inferInstanceAs (Decidable (∃ e ∈ c.toList, _))

instance (c : PathCatalog) (x : String) : Decidable (c.HoldsBelow x) :=
  inferInstanceAs (Decidable (∃ e ∈ c.toList, _))

theorem mem_toList {c : PathCatalog} {y : String} {r : FileRecord} :
    (y, r) ∈ c.toList ↔ ∃ k, (k, (⟨y, r⟩ : CatalogEntry)) ∈ c.entries := by
  simp only [toList, List.mem_map, Prod.mk.injEq]
  constructor
  · rintro ⟨⟨k, ⟨y, r⟩⟩, he, rfl, rfl⟩
    exact ⟨k, he⟩
  · rintro ⟨k, he⟩
    exact ⟨_, he, rfl, rfl⟩

section WF

variable {c : PathCatalog} (h : c.WF)
include h

theorem WF.key_eq {e : String × CatalogEntry} (he : e ∈ c.entries) : e.1 = catalogKey e.2.path := by
  rw [h.keyed e he, catalogKey_of_clean (h.clean e he)]

theorem WF.catalogKey_eq_foldKey {y : String} {r : FileRecord} (he : (y, r) ∈ c.toList) :
    catalogKey y = Path.foldKey y := by
  obtain ⟨k, hk⟩ := mem_toList.mp he
  have hclean := h.clean _ hk
  exact catalogKey_of_clean hclean

theorem WF.contains_iff (x : String) : c.contains x = true ↔ c.Holds x := by
  simp only [contains, get, entry, Option.isSome_map]
  rw [KeyMap.isSome_find?_iff]
  constructor
  · rintro ⟨e, he⟩
    exact ⟨(e.path, e.record), mem_toList.mpr ⟨_, he⟩, (h.key_eq he).symm⟩
  · rintro ⟨⟨y, r⟩, he, hkey⟩
    obtain ⟨k, hk⟩ := mem_toList.mp he
    have hk' : k = catalogKey x := (h.key_eq hk).trans hkey
    exact ⟨_, hk' ▸ hk⟩

theorem WF.hasDescendant_iff (x : String) : c.hasDescendant x = true ↔ c.HoldsBelow x := by
  simp only [hasDescendant]
  rw [KeyMap.Sorted.firstFrom?_prefix_iff h.sorted]
  constructor
  · rintro ⟨⟨k, e⟩, he, hpre⟩
    have hkey : k = catalogKey e.path := h.key_eq he
    rw [hkey] at hpre
    exact ⟨(e.path, e.record), mem_toList.mpr ⟨_, he⟩, hpre⟩
  · rintro ⟨⟨y, r⟩, he, hpre⟩
    obtain ⟨k, hk⟩ := mem_toList.mp he
    have hkey : k = catalogKey y := h.key_eq hk
    rw [← hkey] at hpre
    exact ⟨_, hk, hpre⟩

theorem WF.get_eq_some_iff (x : String) (r : FileRecord) :
    c.get x = some r ↔ ∃ y, (y, r) ∈ c.toList ∧ catalogKey y = catalogKey x := by
  simp only [get, entry, Option.map_eq_some_iff]
  constructor
  · rintro ⟨e, he, rfl⟩
    have hmem := KeyMap.mem_of_find?_eq_some he
    exact ⟨e.path, mem_toList.mpr ⟨_, hmem⟩, (h.key_eq hmem).symm⟩
  · rintro ⟨y, hy, hkey⟩
    obtain ⟨k, hk⟩ := mem_toList.mp hy
    have hk' : k = catalogKey x := (h.key_eq hk).trans hkey
    exact ⟨_, (KeyMap.find?_eq_some_iff h.sorted).mpr (hk' ▸ hk), rfl⟩

theorem WF.get_eq_none_iff (x : String) : c.get x = none ↔ ¬ c.Holds x := by
  rw [← h.contains_iff, contains, Option.not_isSome_iff_eq_none]

theorem WF.nodup_foldKey : (c.toList.map fun e => Path.foldKey e.1).Nodup := by
  have hmap : (c.toList.map fun e => Path.foldKey e.1) = c.entries.map Prod.fst := by
    simp only [toList, List.map_map]
    exact List.map_congr_left fun e he => (h.keyed e he).symm
  rw [hmap]
  exact h.sorted.nodup_keys

theorem WF.nodup_paths : (c.toList.map Prod.fst).Nodup := by
  have hmap : (c.toList.map Prod.fst).map Path.foldKey = c.toList.map fun e => Path.foldKey e.1 := by
    rw [List.map_map]
    rfl
  exact List.Nodup.of_map Path.foldKey (hmap ▸ h.nodup_foldKey)

theorem WF.eq_of_catalogKey_eq {e e' : String × FileRecord} (he : e ∈ c.toList) (he' : e' ∈ c.toList)
    (hkey : catalogKey e.1 = catalogKey e'.1) : e = e' := by
  rw [h.catalogKey_eq_foldKey he, h.catalogKey_eq_foldKey he'] at hkey
  exact List.inj_on_of_nodup_map h.nodup_foldKey he he' hkey

theorem WF.get_of_mem {e : String × FileRecord} (he : e ∈ c.toList) : c.get e.1 = some e.2 :=
  (h.get_eq_some_iff e.1 e.2).mpr ⟨e.1, he, rfl⟩

end WF

/-! ## Lookups after insertion -/

theorem get_congr (c : PathCatalog) {x y : String} (h : catalogKey x = catalogKey y) : c.get x = c.get y := by
  simp only [get, entry, h]

theorem get_add (c : PathCatalog) (p q : String) (r : FileRecord) :
    (c.add p r).get q = if catalogKey q = catalogKey p then some r else c.get q := by
  have hkey : Path.foldKey (cleanKeyPath p) = catalogKey p := rfl
  simp only [get, entry, add, insert]
  rw [KeyMap.find?_insert, hkey]
  split_ifs <;> simp

/-- Inserting records one after the other leaves each key with the record of
the last insertion under it. -/
theorem get_foldl_add (l : List (String × FileRecord)) (init : PathCatalog) (q : String) :
    (l.foldl (fun c e => c.add e.1 e.2) init).get q =
      (((l.filter fun e => catalogKey e.1 = catalogKey q).getLast?).map Prod.snd).or (init.get q) := by
  induction l generalizing init with
  | nil => simp
  | cons x l ih =>
    rw [List.foldl_cons, ih, get_add]
    by_cases hk : catalogKey q = catalogKey x.1
    · have hk' : catalogKey x.1 = catalogKey q := hk.symm
      simp only [List.filter_cons, hk', decide_true, if_true, List.getLast?_cons]
      cases (l.filter fun e => catalogKey e.1 = catalogKey q).getLast? <;> rfl
    · have hk' : ¬ catalogKey x.1 = catalogKey q := fun h => hk h.symm
      simp only [if_neg hk, List.filter_cons, hk', decide_false, Bool.false_eq_true, if_false]

theorem hasDescendant_add {c : PathCatalog} {dir : String} (h : c.hasDescendant dir = true) (p : String)
    (r : FileRecord) : (c.add p r).hasDescendant dir = true := by
  simp only [hasDescendant, add, insert, Option.any_eq_true, List.isPrefixOf_iff_prefix] at h ⊢
  exact KeyMap.firstFrom?_insert_prefix _ _ _ h

theorem hasDescendant_foldl_add {c : PathCatalog} {dir : String} (h : c.hasDescendant dir = true)
    (l : List (String × FileRecord)) : (l.foldl (fun c e => c.add e.1 e.2) c).hasDescendant dir = true := by
  induction l generalizing c with
  | nil => exact h
  | cons x l ih => exact ih (hasDescendant_add h x.1 x.2)

/-- The descendant probe looks at one key only, the first at or after
`key dir ++ "/"`; in the key order of a catalog that key decides whether any
stored key starts with `key dir ++ "/"`. -/
theorem hasDescendant_iff_key_below (c : PathCatalog) (hs : KeyMap.Sorted c.entries) (dir : String) :
    c.hasDescendant dir = true ↔ ∃ e ∈ c.entries, (catalogKey dir ++ "/").toList <+: e.1.toList := by
  simp only [hasDescendant]
  exact hs.firstFrom?_prefix_iff _

/-- A directory with a file below it, and a sibling whose name extends the
directory's name. -/
def segmentCatalog : PathCatalog :=
  ofList [("mods/a/file.txt", .file "h"), ("mods/ab", .directory)]

theorem hasDescendant_iff_key_below_segments :
    KeyMap.Sorted segmentCatalog.entries ∧
    (segmentCatalog.hasDescendant "MODS/a" = true ↔
      ∃ e ∈ segmentCatalog.entries, (catalogKey "MODS/a" ++ "/").toList <+: e.1.toList) :=
  ⟨(wf_ofList _).sorted, hasDescendant_iff_key_below _ (wf_ofList _).sorted "MODS/a"⟩

-- the probe is segment aware: `mods/ab` is no directory of `mods/a/file.txt`
example : segmentCatalog.hasDescendant "MODS" = true := by decide
example : segmentCatalog.hasDescendant "mods/ab" = false := by decide

end PathCatalog

namespace CatalogSet

/-! ## The catalog set invariant -/

/-- What every catalog set the operations build satisfies. -/
structure WF (s : CatalogSet) : Prop where
  sorted : KeyMap.Sorted s.slots
  clean : ∀ e ∈ s.slots, cleanKeyPath e.2.syncPath = e.2.syncPath
  keyed : ∀ e ∈ s.slots, e.1 = Path.foldKey e.2.syncPath
  catalogs : ∀ e ∈ s.slots, e.2.catalog.WF

theorem wf_empty : (empty : CatalogSet).WF :=
  ⟨List.Pairwise.nil, by simp [empty], by simp [empty], by simp [empty]⟩

theorem WF.add {s : CatalogSet} (h : s.WF) (p : String) {c : PathCatalog} (hc : c.WF) : (s.add p c).WF := by
  refine ⟨KeyMap.sorted_insert _ _ h.sorted, ?_, ?_, ?_⟩
  · intro e he
    rcases KeyMap.mem_insert he with rfl | he
    · exact cleanKeyPath_cleanKeyPath p
    · exact h.clean e he
  · intro e he
    rcases KeyMap.mem_insert he with rfl | he
    · rfl
    · exact h.keyed e he
  · intro e he
    rcases KeyMap.mem_insert he with rfl | he
    · exact hc
    · exact h.catalogs e he

theorem WF.get {s : CatalogSet} (h : s.WF) {p : String} {c : PathCatalog} (hp : s.get p = some c) : c.WF := by
  simp only [CatalogSet.get, Option.map_eq_some_iff] at hp
  obtain ⟨e, he, rfl⟩ := hp
  exact h.catalogs _ (KeyMap.mem_of_find?_eq_some he)

theorem WF.getOrEmpty {s : CatalogSet} (h : s.WF) (p : String) : (s.getOrEmpty p).WF := by
  unfold CatalogSet.getOrEmpty
  cases hp : s.get p with
  | none => exact PathCatalog.wf_empty
  | some c => exact h.get hp

theorem WF.merge {s : CatalogSet} (h : s.WF) {other : CatalogSet} (ho : other.WF) : (s.merge other).WF := by
  unfold CatalogSet.merge
  have hcat : ∀ e ∈ other.toList, e.2.WF := by
    intro e he
    simp only [toList, List.mem_map] at he
    obtain ⟨x, hx, rfl⟩ := he
    exact ho.catalogs x hx
  generalize other.toList = xs at hcat ⊢
  induction xs generalizing s with
  | nil => exact h
  | cons e rest ih =>
    simp only [List.foldl_cons]
    exact ih (h.add e.1 (hcat e (by simp))) fun x hx => hcat x (List.mem_cons_of_mem _ hx)

theorem wf_ofJson (j : Json) : (ofJson j).WF := by
  unfold ofJson
  generalize (j.obj?).getD [] = xs
  suffices ∀ s : CatalogSet, s.WF →
      (xs.foldl (fun s x => s.add x.1 (PathCatalog.ofJson x.2)) s).WF from this _ wf_empty
  induction xs with
  | nil => exact fun s h => h
  | cons x xs ih => exact fun s h => ih _ (h.add x.1 (PathCatalog.wf_ofJson x.2))

/-! ## Lookups after insertion -/

theorem get_add (s : CatalogSet) (p q : String) (c : PathCatalog) :
    (s.add p c).get q = if catalogKey q = catalogKey p then some c else s.get q := by
  have hkey : Path.foldKey (cleanKeyPath p) = catalogKey p := rfl
  simp only [CatalogSet.get, add, insert]
  rw [KeyMap.find?_insert, hkey]
  split_ifs <;> simp

/-- Inserting catalogs one after the other leaves each sync path with the
catalog of the last insertion under its key. -/
theorem get_foldl_add {α : Type} (l : List α) (path : α → String) (f : α → PathCatalog) (init : CatalogSet)
    (q : String) :
    (l.foldl (fun acc x => acc.add (path x) (f x)) init).get q =
      (((l.filter fun x => catalogKey (path x) = catalogKey q).getLast?).map f).or (init.get q) := by
  induction l generalizing init with
  | nil => simp
  | cons x l ih =>
    rw [List.foldl_cons, ih, get_add]
    by_cases hk : catalogKey q = catalogKey (path x)
    · have hk' : catalogKey (path x) = catalogKey q := hk.symm
      simp only [List.filter_cons, hk', decide_true, if_true, List.getLast?_cons]
      -- the element itself is last unless a later one has the same key
      cases (l.filter fun x => catalogKey (path x) = catalogKey q).getLast? <;> rfl
    · have hk' : ¬ catalogKey (path x) = catalogKey q := fun h => hk h.symm
      simp only [if_neg hk, List.filter_cons, hk', decide_false, Bool.false_eq_true, if_false]

/-- Merging replaces the catalog of every sync path the other set holds and
keeps the rest. -/
theorem get_merge (s : CatalogSet) {other : CatalogSet} (ho : other.WF) (q : String) :
    (s.merge other).get q = (other.get q).or (s.get q) := by
  obtain ⟨slots⟩ := other
  induction slots generalizing s with
  | nil => rfl
  | cons x rest ih =>
    obtain ⟨k, e⟩ := x
    have hhead : ∀ y ∈ rest, k < y.1 := (List.pairwise_cons.mp ho.sorted).1
    have hrest : (⟨rest⟩ : CatalogSet).WF :=
      ⟨(List.pairwise_cons.mp ho.sorted).2, fun y hy => ho.clean y (List.mem_cons_of_mem _ hy),
        fun y hy => ho.keyed y (List.mem_cons_of_mem _ hy), fun y hy => ho.catalogs y (List.mem_cons_of_mem _ hy)⟩
    have hk : k = catalogKey e.syncPath := by
      have hmem : (k, e) ∈ (k, e) :: rest := List.mem_cons_self
      exact (ho.keyed _ hmem).trans (catalogKey_of_clean (ho.clean _ hmem)).symm
    have hstep : s.merge ⟨(k, e) :: rest⟩ = (s.add e.syncPath e.catalog).merge ⟨rest⟩ := rfl
    have hget : (⟨(k, e) :: rest⟩ : CatalogSet).get q =
        if catalogKey q = k then some e.catalog else (⟨rest⟩ : CatalogSet).get q := by
      simp only [get, KeyMap.find?]
      split_ifs <;> rfl
    rw [hstep, ih _ hrest, hget, get_add, ← hk]
    by_cases hq : catalogKey q = k
    · -- the rest holds only larger keys
      have hnone : (⟨rest⟩ : CatalogSet).get q = none := by
        simp only [get, hq, KeyMap.find?_eq_none_of_lt hhead, Option.map_none]
      simp [hq, hnone]
    · simp [hq]

end CatalogSet

end ModMirror
