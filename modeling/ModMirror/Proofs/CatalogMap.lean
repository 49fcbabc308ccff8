import Mathlib
import ModMirror.Proofs.Catalog

/-!
# Catalogs as finite maps over path classes

Two paths name one entry of a catalog when their catalog keys agree: the
folded form of their clean spelling. Every catalog the operations reach from
the empty one (`PathCatalog.Reachable`) stores each entry under the folded
form of its own clean spelling, and then behaves as a finite map over these
classes (`PathCatalog.ClassMap`):

    (c.insert p r).1.entry q = if catalogKey q = catalogKey p then some ⟨cleanKeyPath p, r⟩ else c.entry q
    (c.remove p).1.entry q   = if catalogKey q = catalogKey p then none else c.entry q
    iteration yields each class once, in the order of its folded key, and
    every yielded pair is found again by `get`

A catalog set is the same map one level up, keyed by sync path. Both are an
ordered key map whose values carry the spelling they are stored under
(`KeyMap.Spelled`), and the lookup laws are proved once for that.
-/

namespace ModMirror

namespace KeyMap

variable {α : Type} {spell : α → String}

/-- An ordered map whose values carry their spelling: each key is the folded
form of the clean spelling of its value. -/
structure Spelled (spell : α → String) (m : KeyMap α) : Prop where
  sorted : Sorted m
  clean : ∀ e ∈ m, cleanKeyPath (spell e.2) = spell e.2
  keyed : ∀ e ∈ m, e.1 = Path.foldKey (spell e.2)

section Spelled

variable {m : KeyMap α}

theorem Spelled.sublist (h : Spelled spell m) {m' : KeyMap α} (hsub : m'.Sublist m) : Spelled spell m' :=
  ⟨h.sorted.sublist hsub, fun e he => h.clean e (hsub.subset he), fun e he => h.keyed e (hsub.subset he)⟩

theorem Spelled.insert (h : Spelled spell m) (p : String) {v : α} (hv : spell v = cleanKeyPath p) :
    Spelled spell (insert (catalogKey p) v m) := by
  refine ⟨sorted_insert _ _ h.sorted, ?_, ?_⟩
  · intro e he
    rcases mem_insert he with rfl | he
    · rw [hv, cleanKeyPath_cleanKeyPath]
    · exact h.clean e he
  · intro e he
    rcases mem_insert he with rfl | he
    · rw [hv]
      rfl
    · exact h.keyed e he

theorem Spelled.key_eq (h : Spelled spell m) {e : String × α} (he : e ∈ m) : e.1 = catalogKey (spell e.2) := by
  rw [h.keyed e he, catalogKey_of_clean (h.clean e he)]

theorem Spelled.find?_eq_some_iff (h : Spelled spell m) (q : String) (v : α) :
    find? (catalogKey q) m = some v ↔ ∃ k, (k, v) ∈ m ∧ catalogKey (spell v) = catalogKey q := by
  rw [KeyMap.find?_eq_some_iff h.sorted]
  constructor
  · intro hmem
    exact ⟨_, hmem, (h.key_eq hmem).symm⟩
  · rintro ⟨k, hmem, hkey⟩
    have hk : k = catalogKey q := (h.key_eq hmem).trans hkey
    exact hk ▸ hmem

theorem Spelled.find?_spell (h : Spelled spell m) {e : String × α} (he : e ∈ m) :
    find? (catalogKey (spell e.2)) m = some e.2 :=
  (h.find?_eq_some_iff _ _).mpr ⟨e.1, he, rfl⟩

theorem Spelled.sorted_spellings (h : Spelled spell m) : (m.map fun e => Path.foldKey (spell e.2)).Pairwise (· < ·) := by
  have hmap : (m.map fun e => Path.foldKey (spell e.2)) = m.map Prod.fst :=
    List.map_congr_left fun e he => (h.keyed e he).symm
  rw [hmap, List.pairwise_map]
  exact h.sorted

theorem Spelled.length_eq_card (h : Spelled spell m) :
    m.length = (m.map fun e => catalogKey (spell e.2)).toFinset.card := by
  have hmap : (m.map fun e => catalogKey (spell e.2)) = m.map Prod.fst :=
    List.map_congr_left fun e he => (h.key_eq he).symm
  rw [hmap, List.toFinset_card_of_nodup h.sorted.nodup_keys, List.length_map]

end Spelled

end KeyMap

/-! ## Catalogs -/

namespace PathCatalog

/-- The catalogs the operations reach from the empty one: inserting,
removing, retaining, and decoding a stored or collected form. -/
inductive Reachable : PathCatalog → Prop
  | empty : Reachable empty
  | insert {c : PathCatalog} (p : String) (r : FileRecord) : Reachable c → Reachable (c.insert p r).1
  | remove {c : PathCatalog} (p : String) : Reachable c → Reachable (c.remove p).1
  | retain {c : PathCatalog} (keep : String → FileRecord → Bool) : Reachable c → Reachable (c.retain keep)
  | collect (xs : List (String × FileRecord)) : Reachable (ofList xs)
  | decode (j : Json) : Reachable (ofJson j)

theorem WF.spelled {c : PathCatalog} (h : c.WF) : KeyMap.Spelled CatalogEntry.path c.entries :=
  ⟨h.sorted, h.clean, h.keyed⟩

theorem WF.remove {c : PathCatalog} (h : c.WF) (p : String) : (c.remove p).1.WF :=
  let hs := h.spelled.sublist (KeyMap.erase_sublist (catalogKey p) c.entries)
  ⟨hs.sorted, hs.clean, hs.keyed⟩

theorem Reachable.wf {c : PathCatalog} (h : c.Reachable) : c.WF := by
  induction h with
  | empty => exact wf_empty
  | insert p r _ ih => exact ih.add p r
  | remove p _ ih => exact ih.remove p
  | retain keep _ ih => exact ih.retain keep
  | collect xs => exact wf_ofList xs
  | decode j => exact wf_ofJson j

/-! ### One law per operation -/

theorem insert_snd (c : PathCatalog) (p : String) (r : FileRecord) : (c.insert p r).2 = c.get p := rfl

theorem remove_snd (c : PathCatalog) (p : String) : (c.remove p).2 = c.get p := rfl

/-- Inserting sets the entry of the path's class to the new record under the
clean spelling of the path, and leaves every other class alone. -/
theorem entry_insert (c : PathCatalog) (p : String) (r : FileRecord) (q : String) :
    (c.insert p r).1.entry q = if catalogKey q = catalogKey p then some ⟨cleanKeyPath p, r⟩ else c.entry q := by
  simp only [entry, insert]
  rw [KeyMap.find?_insert]
  rfl

theorem entry_remove {c : PathCatalog} (h : c.WF) (p q : String) :
    (c.remove p).1.entry q = if catalogKey q = catalogKey p then none else c.entry q := by
  simp only [entry, remove]
  rw [KeyMap.find?_erase h.sorted]

theorem get_remove {c : PathCatalog} (h : c.WF) (p q : String) :
    (c.remove p).1.get q = if catalogKey q = catalogKey p then none else c.get q := by
  simp only [get, entry_remove h]
  split_ifs <;> rfl

theorem entry_retain {c : PathCatalog} (h : c.WF) (keep : String → FileRecord → Bool) (q : String) :
    (c.retain keep).entry q = (c.entry q).filter fun e => keep e.path e.record := by
  simp only [entry, retain]
  rw [KeyMap.find?_filter h.sorted]

/-! ### The catalog as a finite map -/

/-- What a catalog is as a finite map from path classes to stored entries:
the stored keys, the effect of each operation on lookups, and what iteration
yields. -/
structure ClassMap (c : PathCatalog) : Prop where
  /-- Each entry is stored under the folded form of its clean spelling. -/
  stored : ∀ e ∈ c.entries, e.1 = Path.foldKey e.2.path ∧ cleanKeyPath e.2.path = e.2.path
  insert_returns : ∀ p r, (c.insert p r).2 = c.get p
  get_insert : ∀ p r q, (c.insert p r).1.get q = if catalogKey q = catalogKey p then some r else c.get q
  entry_insert : ∀ p r q,
    (c.insert p r).1.entry q = if catalogKey q = catalogKey p then some ⟨cleanKeyPath p, r⟩ else c.entry q
  remove_returns : ∀ p, (c.remove p).2 = c.get p
  get_remove : ∀ p q, (c.remove p).1.get q = if catalogKey q = catalogKey p then none else c.get q
  entry_remove : ∀ p q, (c.remove p).1.entry q = if catalogKey q = catalogKey p then none else c.entry q
  entry_retain : ∀ keep q, (c.retain keep).entry q = (c.entry q).filter fun e => keep e.path e.record
  /-- Iteration yields the classes in strictly increasing order of their folded keys. -/
  iter_sorted : (c.toList.map fun e => Path.foldKey e.1).Pairwise (· < ·)
  /-- A path has a record exactly when iteration yields a path of its class. -/
  contains_iff : ∀ q, c.contains q = true ↔ ∃ e ∈ c.toList, catalogKey e.1 = catalogKey q
  get_iter : ∀ e ∈ c.toList, c.get e.1 = some e.2
  /-- The length counts the classes. -/
  len_classes : c.len = (c.toList.map fun e => catalogKey e.1).toFinset.card

theorem WF.classMap {c : PathCatalog} (h : c.WF) : c.ClassMap where
  stored e he := ⟨h.keyed e he, h.clean e he⟩
  insert_returns := insert_snd c
  get_insert p r q := get_add c p q r
  entry_insert := entry_insert c
  remove_returns := remove_snd c
  get_remove := get_remove h
  entry_remove := entry_remove h
  entry_retain := entry_retain h
  iter_sorted := by
    simpa [toList, List.map_map, Function.comp_def] using h.spelled.sorted_spellings
  contains_iff q := by
    rw [h.contains_iff]
    rfl
  get_iter _ he := h.get_of_mem he
  len_classes := by
    simpa [len, toList, List.map_map, Function.comp_def] using h.spelled.length_eq_card

end PathCatalog

/-! ## Catalog sets -/

namespace CatalogSet

/-- The catalog sets the operations reach from the empty one, holding any
catalogs: inserting, removing, merging, and decoding a stored form. -/
inductive Reachable : CatalogSet → Prop
  | empty : Reachable empty
  | insert {s : CatalogSet} (p : String) (c : PathCatalog) : Reachable s → Reachable (s.insert p c).1
  | remove {s : CatalogSet} (p : String) : Reachable s → Reachable (s.remove p).1
  | merge {s : CatalogSet} (other : CatalogSet) : Reachable s → Reachable (s.merge other)
  | decode (j : Json) : Reachable (ofJson j)

/-- The sync-path part of the set invariant, whatever the catalogs. -/
abbrev Keyed (s : CatalogSet) : Prop := KeyMap.Spelled CatalogSlot.syncPath s.slots

theorem keyed_empty : (empty : CatalogSet).Keyed :=
  ⟨List.Pairwise.nil, by simp [empty], by simp [empty]⟩

theorem Keyed.add {s : CatalogSet} (h : s.Keyed) (p : String) (c : PathCatalog) : (s.add p c).Keyed :=
  KeyMap.Spelled.insert h p rfl

theorem Keyed.remove {s : CatalogSet} (h : s.Keyed) (p : String) : (s.remove p).1.Keyed :=
  h.sublist (KeyMap.erase_sublist _ _)

theorem Keyed.foldl_add {s : CatalogSet} (h : s.Keyed) {β : Type} (l : List β) (path : β → String)
    (f : β → PathCatalog) : (l.foldl (fun acc x => acc.add (path x) (f x)) s).Keyed := by
  induction l generalizing s with
  | nil => exact h
  | cons x l ih => exact ih (h.add _ _)

theorem Keyed.merge {s : CatalogSet} (h : s.Keyed) (other : CatalogSet) : (s.merge other).Keyed :=
  h.foldl_add other.toList Prod.fst Prod.snd

theorem keyed_ofJson (j : Json) : (ofJson j).Keyed :=
  keyed_empty.foldl_add _ Prod.fst fun x => PathCatalog.ofJson x.2

theorem Reachable.keyed {s : CatalogSet} (h : s.Reachable) : s.Keyed := by
  induction h with
  | empty => exact keyed_empty
  | insert p c _ ih => exact ih.add p c
  | remove p _ ih => exact ih.remove p
  | merge other _ ih => exact ih.merge other
  | decode j => exact keyed_ofJson j

theorem insert_snd (s : CatalogSet) (p : String) (c : PathCatalog) : (s.insert p c).2 = s.get p := rfl

theorem remove_snd (s : CatalogSet) (p : String) : (s.remove p).2 = s.get p := rfl

theorem get_remove {s : CatalogSet} (h : s.Keyed) (p q : String) :
    (s.remove p).1.get q = if catalogKey q = catalogKey p then none else s.get q := by
  simp only [get, remove]
  rw [KeyMap.find?_erase h.sorted]
  split_ifs <;> rfl

/-- What a catalog set is as a finite map from sync-path classes to catalogs. -/
structure ClassMap (s : CatalogSet) : Prop where
  /-- Each catalog is stored under the folded form of its sync path's clean spelling. -/
  stored : ∀ e ∈ s.slots, e.1 = Path.foldKey e.2.syncPath ∧ cleanKeyPath e.2.syncPath = e.2.syncPath
  insert_returns : ∀ p c, (s.insert p c).2 = s.get p
  get_insert : ∀ p c q, (s.insert p c).1.get q = if catalogKey q = catalogKey p then some c else s.get q
  /-- After an insertion iteration yields the clean spelling of the inserted sync path. -/
  spelling_insert : ∀ p c, (cleanKeyPath p, c) ∈ (s.insert p c).1.toList
  remove_returns : ∀ p, (s.remove p).2 = s.get p
  get_remove : ∀ p q, (s.remove p).1.get q = if catalogKey q = catalogKey p then none else s.get q
  iter_sorted : (s.toList.map fun e => Path.foldKey e.1).Pairwise (· < ·)
  /-- A sync path has a catalog exactly when iteration yields a sync path of its class. -/
  get_isSome_iff : ∀ q, (s.get q).isSome ↔ ∃ e ∈ s.toList, catalogKey e.1 = catalogKey q
  get_iter : ∀ e ∈ s.toList, s.get e.1 = some e.2
  len_classes : s.len = (s.toList.map fun e => catalogKey e.1).toFinset.card

theorem Keyed.classMap {s : CatalogSet} (h : s.Keyed) : s.ClassMap where
  stored e he := ⟨h.keyed e he, h.clean e he⟩
  insert_returns := insert_snd s
  get_insert p c q := get_add s p q c
  spelling_insert p c := by
    have hmem := KeyMap.mem_of_find?_eq_some (KeyMap.find?_insert_self (catalogKey p) ⟨cleanKeyPath p, c⟩ s.slots)
    exact List.mem_map_of_mem (f := fun e : String × CatalogSlot => (e.2.syncPath, e.2.catalog)) hmem
  remove_returns := remove_snd s
  get_remove := get_remove h
  iter_sorted := by
    simpa [toList, List.map_map, Function.comp_def] using h.sorted_spellings
  get_isSome_iff q := by
    simp only [get, Option.isSome_map, Option.isSome_iff_exists, h.find?_eq_some_iff, toList, List.mem_map]
    constructor
    · rintro ⟨v, k, hmem, hkey⟩
      exact ⟨_, ⟨(k, v), hmem, rfl⟩, hkey⟩
    · rintro ⟨_, ⟨⟨k, v⟩, hmem, rfl⟩, hkey⟩
      exact ⟨v, k, hmem, hkey⟩
  get_iter e he := by
    simp only [toList, List.mem_map] at he
    obtain ⟨⟨k, v⟩, hmem, rfl⟩ := he
    simp only [get, h.find?_spell hmem, Option.map_some]
  len_classes := by
    simpa [len, toList, List.map_map, Function.comp_def] using h.length_eq_card

end CatalogSet

/-- **Catalogs are finite maps over path classes.** Every catalog reached from
the empty one by inserting, removing, retaining and decoding, and every
catalog set reached by inserting, removing, merging and decoding, stores each
entry under the folded form of its clean spelling and obeys the laws of a
finite map over the classes of paths with one catalog key. -/
theorem catalog_class_map :
    (∀ c : PathCatalog, c.Reachable → c.ClassMap) ∧ ∀ s : CatalogSet, s.Reachable → s.ClassMap :=
  ⟨fun _ hc => hc.wf.classMap, fun _ hs => hs.keyed.classMap⟩

/-- A plugin inserted under its spelling, and a set holding that catalog. -/
theorem catalog_class_map_plugin :
    (PathCatalog.empty.insert "BepInEx/plugins/Foo.dll" (FileRecord.file "h1")).1.ClassMap ∧
      (CatalogSet.empty.insert "BepInEx/plugins"
        (PathCatalog.empty.insert "BepInEx/plugins/Foo.dll" (FileRecord.file "h1")).1).1.ClassMap :=
  ⟨catalog_class_map.1 _ (.insert _ _ .empty), catalog_class_map.2 _ (.insert _ _ .empty)⟩

end ModMirror
