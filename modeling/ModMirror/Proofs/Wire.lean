import Mathlib
import ModMirror.Proofs.CatalogMap
import ModMirror.Proofs.Exclusion

/-!
# The plain map form of catalogs

On the wire and on disk a catalog is a plain map from stored path to record,
and a catalog set a plain map from sync path to catalog, both in the byte
order of the paths (`toMap`, and `toJson` for their JSON objects). Reading
one back inserts its pairs in that order (`ofList`, `ofMap`, `ofJson`). For
every catalog the operations build the round trip gives the catalog back,
and a plain map survives the way in and out exactly when its paths are
already clean and stay distinct once folded:

    c.WF → PathCatalog.ofList c.toMap = c                        (ofList_toMap)
    s.WF → CatalogSet.ofJson s.toJson = s                        (CatalogSet.ofJson_toJson)
    (ofList m).toMap = m ↔ clean paths, distinct once folded       (toMap_ofList_eq_iff)

Otherwise reading keeps, for each class of paths, the byte-order-last raw path
of the map, cleaned, with its record (`entry_ofList`).

Both levels are an ordered key map whose values are a spelling and a payload
(`KeyMap.Layout`); storing payloads and reading them back is proved once for
that.
-/

namespace ModMirror

open Text

/-! ## Clean spellings -/

theorem head?_trimBoth_ne (c : Char) (cs : List Char) : (trimBoth c cs).head? ≠ some c := by
  intro hh
  obtain ⟨ys, hys⟩ := List.head?_eq_some_iff.mp hh
  have h := trimStart_trimBoth c cs
  rw [hys] at h
  -- a leading `c` would be dropped, leaving a shorter text
  have hlen := (List.dropWhile_suffix (fun x => decide (x = c)) (l := ys)).length_le
  simp only [trimStart, List.dropWhile_cons, decide_true, if_true] at h
  have := congrArg List.length h
  simp only [List.length_cons] at this
  omega

theorem getLast?_trimBoth_ne (c : Char) (cs : List Char) : (trimBoth c cs).getLast? ≠ some c := by
  intro hl
  have hne : trimBoth c cs ≠ [] := by
    rintro h
    simp [h] at hl
  have hnot := List.rdropWhile_last_not (p := fun x => decide (x = c)) (l := trimStart c cs) hne
  rw [List.getLast?_eq_some_getLast hne, Option.some.injEq] at hl
  exact hnot (decide_eq_true hl)

/-- A path is its own clean spelling exactly when it holds no backslash and
neither starts nor ends with `/`. -/
theorem cleanKeyPath_eq_self_iff (p : String) :
    cleanKeyPath p = p ↔ '\\' ∉ p.toList ∧ p.toList.head? ≠ some '/' ∧ p.toList.getLast? ≠ some '/' := by
  have hlist : cleanKeyPath p = p ↔ trimBoth '/' (unifySlashes p.toList) = p.toList := by
    unfold cleanKeyPath
    constructor
    · intro h
      simpa using congrArg String.toList h
    · intro h
      rw [h, String.ofList_toList]
  rw [hlist]
  constructor
  · intro h
    refine ⟨fun hb => unifySlashes_no_backslash _ (mem_of_mem_trimBoth (h ▸ hb)), ?_, ?_⟩
    · rw [← h]
      exact head?_trimBoth_ne _ _
    · rw [← h]
      exact getLast?_trimBoth_ne _ _
  · rintro ⟨hb, hhead, hlast⟩
    rw [unifySlashes_of_no_backslash hb, trimBoth_of_ends hhead hlast]

/-! ## Values made of a spelling and a payload -/

namespace KeyMap

/-- How a stored value is made of the spelling it is stored under and a payload. -/
structure Layout (α β : Type) where
  spell : α → String
  payload : α → β
  make : String → β → α
  spell_make : ∀ p b, spell (make p b) = p
  payload_make : ∀ p b, payload (make p b) = b
  eta : ∀ a, make (spell a) (payload a) = a

namespace Layout

variable {α β : Type} (L : Layout α β)

/-- Stores a payload under the clean spelling of a path, keyed by its catalog key. -/
def put (m : KeyMap α) (p : String) (b : β) : KeyMap α := insert (catalogKey p) (L.make (cleanKeyPath p) b) m

def putAll (l : List (String × β)) (m : KeyMap α) : KeyMap α := l.foldl (fun m e => L.put m e.1 e.2) m

/-- The stored spellings with their payloads, in key order. -/
def pairs (m : KeyMap α) : List (String × β) := m.map fun e => (L.spell e.2, L.payload e.2)

end Layout

variable {α β : Type} {L : Layout α β}

/-- Two spelled maps with the same lookups by catalog key are equal: every key
they store is a catalog key. -/
theorem Spelled.eq_of_find? {spell : α → String} {m m' : KeyMap α} (h : Spelled spell m) (h' : Spelled spell m')
    (hq : ∀ q, find? (catalogKey q) m = find? (catalogKey q) m') : m = m' := by
  apply eq_of_find?_eq h.sorted h'.sorted
  intro k
  cases hk : find? k m with
  | some a =>
    have hkey : k = catalogKey (spell a) := h.key_eq (mem_of_find?_eq_some hk)
    rw [hkey] at hk ⊢
    rw [← hq, hk]
  | none =>
    cases hk' : find? k m' with
    | none => rfl
    | some a =>
      -- a key stored only on the right would be found on the left too
      have hkey : k = catalogKey (spell a) := h'.key_eq (mem_of_find?_eq_some hk')
      rw [hkey, ← hq] at hk'
      rw [hkey, hk'] at hk
      cases hk

theorem Layout.putAll_eq (l : List (String × β)) (m : KeyMap α) :
    L.putAll l m = (l.map fun e => (catalogKey e.1, L.make (cleanKeyPath e.1) e.2)).foldl
      (fun m e => insert e.1 e.2 m) m := by
  rw [Layout.putAll, List.foldl_map]
  rfl

/-- After storing payloads, each class holds the last payload stored into it,
under the clean spelling it was stored with. -/
theorem Layout.find?_putAll (l : List (String × β)) (m : KeyMap α) (q : String) :
    find? (catalogKey q) (L.putAll l m) =
      (((l.filter fun e => catalogKey e.1 = catalogKey q).getLast?).map fun e => L.make (cleanKeyPath e.1) e.2).or
        (find? (catalogKey q) m) := by
  simp only [Layout.putAll_eq, find?_foldl_insert, List.filter_map, List.getLast?_map, Option.map_map,
    Function.comp_def]

theorem Spelled.putAll {m : KeyMap α} (h : Spelled L.spell m) (l : List (String × β)) :
    Spelled L.spell (L.putAll l m) := by
  induction l generalizing m with
  | nil => exact h
  | cons x l ih => exact ih (h.insert x.1 (L.spell_make _ _))

theorem spelled_nil : Spelled L.spell ([] : KeyMap α) :=
  ⟨List.Pairwise.nil, by simp, by simp⟩

theorem Spelled.nodup_pairs {m : KeyMap α} (h : Spelled L.spell m) : ((L.pairs m).map Prod.fst).Nodup := by
  have hfold : ((L.pairs m).map Prod.fst).map Path.foldKey = m.map fun e => Path.foldKey (L.spell e.2) := by
    simp [Layout.pairs, List.map_map, Function.comp_def]
  have hnd : (m.map fun e => Path.foldKey (L.spell e.2)).Nodup := h.sorted_spellings.imp String.ne_of_lt
  exact List.Nodup.of_map Path.foldKey (hfold ▸ hnd)

theorem Spelled.filter_pairs {m : KeyMap α} (h : Spelled L.spell m) (q : String) :
    ((L.pairs m).filter fun e => catalogKey e.1 = catalogKey q) =
      ((find? (catalogKey q) m).map fun a => (L.spell a, L.payload a)).toList := by
  induction m with
  | nil => simp [Layout.pairs, find?]
  | cons x rest ih =>
    obtain ⟨k, a⟩ := x
    have hrest : Spelled L.spell rest := h.sublist (List.sublist_cons_self _ _)
    have hk : k = catalogKey (L.spell a) := h.key_eq List.mem_cons_self
    have hhead : ∀ y ∈ rest, k < y.1 := (List.pairwise_cons.mp h.sorted).1
    by_cases hq : catalogKey (L.spell a) = catalogKey q
    · -- the head is the class; every later entry has a larger key
      have hnone : find? (catalogKey q) rest = none :=
        find?_eq_none_of_lt fun y hy => hq ▸ hk ▸ hhead y hy
      have hkq : catalogKey q = k := hk.trans hq |>.symm
      have hlater : ((L.pairs rest).filter fun e => catalogKey e.1 = catalogKey q) = [] := by
        rw [ih hrest, hnone]
        rfl
      simp only [Layout.pairs, List.map_cons, List.filter_cons, hq, decide_true, if_true, find?, if_pos hkq]
      simp only [Layout.pairs] at hlater
      rw [hlater]
      rfl
    · have hkq : catalogKey q ≠ k := fun e => hq (hk ▸ e).symm
      simp only [Layout.pairs, List.map_cons, List.filter_cons, hq, decide_false, Bool.false_eq_true, if_false,
        find?, if_neg hkq]
      exact ih hrest

theorem Spelled.putAll_of_perm {m : KeyMap α} (h : Spelled L.spell m) {l : List (String × β)}
    (hl : l.Perm (L.pairs m)) : L.putAll l [] = m := by
  apply (spelled_nil.putAll l).eq_of_find? h
  intro q
  rw [Layout.find?_putAll]
  have hf := hl.filter (fun e => decide (catalogKey e.1 = catalogKey q))
  rw [h.filter_pairs q] at hf
  cases hfind : find? (catalogKey q) m with
  | none =>
    rw [hfind] at hf
    simp [List.Perm.eq_nil hf, find?]
  | some a =>
    rw [hfind] at hf
    have hclean : cleanKeyPath (L.spell a) = L.spell a := h.clean (catalogKey q, a) (mem_of_find?_eq_some hfind)
    simp [List.perm_singleton.mp hf, hclean, L.eta]

end KeyMap

/-! ## Catalogs -/

/-- A catalog entry is a stored path and its record. -/
def entryLayout : KeyMap.Layout CatalogEntry FileRecord :=
  ⟨CatalogEntry.path, CatalogEntry.record, CatalogEntry.mk, fun _ _ => rfl, fun _ _ => rfl, fun _ => rfl⟩

/-- A catalog slot is a stored sync path and its catalog. -/
def slotLayout : KeyMap.Layout CatalogSlot PathCatalog :=
  ⟨CatalogSlot.syncPath, CatalogSlot.catalog, CatalogSlot.mk, fun _ _ => rfl, fun _ _ => rfl, fun _ => rfl⟩

namespace FileRecord

theorem ofJson_toJson (r : FileRecord) : ofJson r.toJson = r := by
  obtain ⟨hash, isDirectory⟩ := r
  simp [ofJson, toJson, Json.field?, List.lookup_cons, Json.str?, Json.bool?]

end FileRecord

namespace Json

variable {α : Type}

theorem insertField_map (g : String × α → String × Json) (hg : ∀ e, (g e).1 = e.1) (k : String) (v : α)
    (acc : KeyMap α) : insertField k (g (k, v)).2 (acc.map g) = (KeyMap.insert k v acc).map g := by
  induction acc with
  | nil =>
    have hgk : g (k, v) = (k, (g (k, v)).2) := Prod.ext (hg _) rfl
    simp [insertField, KeyMap.insert, ← hgk]
  | cons x rest ih =>
    obtain ⟨j, w⟩ := x
    have hgk : g (k, v) = (k, (g (k, v)).2) := Prod.ext (hg _) rfl
    have hgj : g (j, w) = (j, (g (j, w)).2) := Prod.ext (hg _) rfl
    rw [List.map_cons, hgj, insertField, KeyMap.insert]
    split_ifs <;> simp [← hgk, ← hgj, ih]

theorem sortFields_map (g : String × α → String × Json) (hg : ∀ e, (g e).1 = e.1) (l : List (String × α)) :
    sortFields (l.map g) = (KeyMap.collect l).map g := by
  unfold sortFields KeyMap.collect
  suffices h : ∀ acc : KeyMap α, (l.map g).foldl (fun acc x => insertField x.1 x.2 acc) (acc.map g) =
      (l.foldl (fun m e => KeyMap.insert e.1 e.2 m) acc).map g from h []
  induction l with
  | nil => exact fun _ => rfl
  | cons x l ih =>
    intro acc
    have hgx : g x = (x.1, (g x).2) := Prod.ext (hg _) rfl
    rw [List.map_cons, List.foldl_cons, List.foldl_cons, ← ih]
    congr 1
    rw [hgx]
    exact insertField_map g hg x.1 x.2 acc

end Json

namespace PathCatalog

theorem entries_foldl_add : ∀ (xs : List (String × FileRecord)) (c : PathCatalog),
    (xs.foldl (fun c x => c.add x.1 x.2) c).entries = entryLayout.putAll xs c.entries
  | [], _ => rfl
  | x :: xs, c => entries_foldl_add xs (c.add x.1 x.2)

theorem entries_ofList (xs : List (String × FileRecord)) : (ofList xs).entries = entryLayout.putAll xs [] :=
  entries_foldl_add xs empty

theorem toList_eq_pairs (c : PathCatalog) : c.toList = entryLayout.pairs c.entries := rfl

theorem ext_entries {c c' : PathCatalog} (h : c.entries = c'.entries) : c = c' := by
  cases c
  cases c'
  cases h
  rfl

/-- Decoding keeps, for each class, the last pair of the class in the given
order, under its clean spelling. -/
theorem entry_ofList (xs : List (String × FileRecord)) (q : String) :
    (ofList xs).entry q =
      ((xs.filter fun e => catalogKey e.1 = catalogKey q).getLast?).map fun e => ⟨cleanKeyPath e.1, e.2⟩ := by
  rw [entry, entries_ofList, KeyMap.Layout.find?_putAll]
  simp [KeyMap.find?]
  rfl

theorem WF.toMap_perm {c : PathCatalog} (h : c.WF) : c.toMap.Perm c.toList :=
  KeyMap.collect_perm h.nodup_paths

/-- Reading the plain map of a catalog back gives the catalog. -/
theorem ofList_toMap {c : PathCatalog} (h : c.WF) : ofList c.toMap = c := by
  apply ext_entries
  rw [entries_ofList]
  exact h.spelled.putAll_of_perm h.toMap_perm

theorem toJson_eq (c : PathCatalog) : c.toJson = .obj (c.toMap.map fun e => (e.1, e.2.toJson)) :=
  congrArg Json.obj (Json.sortFields_map (fun e : String × FileRecord => (e.1, e.2.toJson)) (fun _ => rfl) c.toList)

theorem ofJson_toJson {c : PathCatalog} (h : c.WF) : ofJson c.toJson = c := by
  rw [toJson_eq, ofJson]
  simp only [Json.obj?, Option.getD_some, List.map_map]
  have hid : ((fun x : String × Json => (x.1, FileRecord.ofJson x.2)) ∘ fun e : String × FileRecord =>
      (e.1, e.2.toJson)) = id := by
    funext e
    simp [FileRecord.ofJson_toJson]
  rw [hid, List.map_id]
  exact ofList_toMap h

theorem mem_toList_ofList {xs : List (String × FileRecord)} {e : String × FileRecord} (he : e ∈ (ofList xs).toList) :
    ∃ x ∈ xs, cleanKeyPath x.1 = e.1 ∧ x.2 = e.2 := by
  obtain ⟨y, r⟩ := e
  have hentry : (ofList xs).entry y = some ⟨y, r⟩ := by
    obtain ⟨k, hk⟩ := mem_toList.mp he
    exact (wf_ofList xs).spelled.find?_spell (e := (k, ⟨y, r⟩)) hk
  rw [entry_ofList] at hentry
  obtain ⟨x, hx, hxe⟩ := Option.map_eq_some_iff.mp hentry
  simp only [CatalogEntry.mk.injEq] at hxe
  exact ⟨x, (List.mem_filter.mp (List.mem_of_getLast? hx)).1, hxe⟩

theorem mem_toList_ofList_iff {xs : List (String × FileRecord)} (hclean : ∀ x ∈ xs, cleanKeyPath x.1 = x.1)
    (hnd : (xs.map fun x => catalogKey x.1).Nodup) {x : String × FileRecord} :
    x ∈ (ofList xs).toList ↔ x ∈ xs := by
  obtain ⟨y, r⟩ := x
  constructor
  · intro hx
    obtain ⟨z, hz, hpath, hrec⟩ := mem_toList_ofList hx
    have hzx : z = (y, r) := Prod.ext ((hclean z hz).symm.trans hpath) hrec
    exact hzx ▸ hz
  · intro hx
    have hfilter := KeyMap.filter_eq_singleton_of_nodup (fun x : String × FileRecord => catalogKey x.1) hnd hx
    dsimp only at hfilter
    have hentry : (ofList xs).entry y = some ⟨y, r⟩ := by
      rw [entry_ofList, hfilter]
      simp [hclean _ hx]
    exact mem_toList.mpr ⟨_, KeyMap.mem_of_find?_eq_some hentry⟩

/-- A plain map comes back unchanged exactly when its paths are already clean
and distinct once folded. -/
theorem toMap_ofList_eq_iff {m : KeyMap FileRecord} (hm : KeyMap.Sorted m) :
    (ofList m).toMap = m ↔
      (∀ k ∈ m.map Prod.fst, '\\' ∉ k.toList ∧ k.toList.head? ≠ some '/' ∧ k.toList.getLast? ≠ some '/') ∧
        (m.map fun e => Path.foldKey e.1).Nodup := by
  have hwf := wf_ofList m
  simp only [← cleanKeyPath_eq_self_iff]
  constructor
  · intro h
    -- the map holds the stored pairs of the decoded catalog, which are clean and distinct
    have hperm := hwf.toMap_perm
    rw [h] at hperm
    refine ⟨fun k hk => ?_, ?_⟩
    · obtain ⟨e, he, rfl⟩ := List.mem_map.mp ((hperm.map Prod.fst).subset hk)
      obtain ⟨x, -, hclean, -⟩ := mem_toList_ofList he
      rw [← hclean, cleanKeyPath_cleanKeyPath]
    · have hnd := hwf.nodup_foldKey
      exact (hperm.map fun e : String × FileRecord => Path.foldKey e.1).nodup_iff.mpr hnd
  · rintro ⟨hclean, hnd⟩
    have hkey : ∀ e ∈ m, catalogKey e.1 = Path.foldKey e.1 := fun e he =>
      catalogKey_of_clean (hclean e.1 (List.mem_map_of_mem (f := Prod.fst) he))
    have hnd' : (m.map fun x => catalogKey x.1).Nodup := by
      rw [List.map_congr_left hkey]
      exact hnd
    -- each raw path is alone in its class, so decoding stores it as it is
    have hperm : (ofList m).toList.Perm m :=
      (List.perm_ext_iff_of_nodup (List.Nodup.of_map Prod.fst hwf.nodup_paths) hm.nodup).mpr fun _ =>
        mem_toList_ofList_iff (fun x hx => hclean x.1 (List.mem_map_of_mem hx)) hnd'
    exact KeyMap.collect_eq_of_perm hm hperm

end PathCatalog

namespace CatalogSet

theorem slots_foldl_add : ∀ (xs : List (String × PathCatalog)) (s : CatalogSet),
    (xs.foldl (fun s x => s.add x.1 x.2) s).slots = slotLayout.putAll xs s.slots
  | [], _ => rfl
  | x :: xs, s => slots_foldl_add xs (s.add x.1 x.2)

theorem toList_eq_pairs (s : CatalogSet) : s.toList = slotLayout.pairs s.slots := rfl

theorem ext_slots {s s' : CatalogSet} (h : s.slots = s'.slots) : s = s' := by
  cases s
  cases s'
  cases h
  rfl

theorem Keyed.toMap_perm {s : CatalogSet} (h : s.Keyed) : s.toMap.Perm s.toList :=
  KeyMap.collect_perm (KeyMap.Spelled.nodup_pairs (L := slotLayout) h)

theorem ofMap_toMap {s : CatalogSet} (h : s.Keyed) : ofMap s.toMap = s := by
  apply ext_slots
  rw [ofMap, slots_foldl_add]
  exact KeyMap.Spelled.putAll_of_perm (L := slotLayout) h h.toMap_perm

theorem toJson_eq (s : CatalogSet) : s.toJson = .obj (s.toMap.map fun e => (e.1, e.2.toJson)) :=
  congrArg Json.obj (Json.sortFields_map (fun e : String × PathCatalog => (e.1, e.2.toJson)) (fun _ => rfl) s.toList)

/-- The JSON object of a catalog set, read back, gives the set: its own map
form round-trips, and so does the object of each catalog in it. -/
theorem ofJson_toJson {s : CatalogSet} (h : s.WF) : ofJson s.toJson = s := by
  have hkeyed : s.Keyed := ⟨h.sorted, h.clean, h.keyed⟩
  have hcat : ∀ e ∈ s.toMap, PathCatalog.ofJson e.2.toJson = e.2 := by
    intro e he
    obtain ⟨x, hx, hxe⟩ := List.mem_map.mp (hkeyed.toMap_perm.subset he)
    rw [← hxe]
    exact PathCatalog.ofJson_toJson (h.catalogs x hx)
  rw [toJson_eq, ofJson]
  simp only [Json.obj?, Option.getD_some]
  rw [List.foldl_map]
  have hfold : ∀ (l : List (String × PathCatalog)), (∀ e ∈ l, PathCatalog.ofJson e.2.toJson = e.2) →
      ∀ acc : CatalogSet, l.foldl (fun acc y => acc.add y.1 (PathCatalog.ofJson y.2.toJson)) acc =
        l.foldl (fun acc y => acc.add y.1 y.2) acc := by
    intro l hl
    induction l with
    | nil => exact fun _ => rfl
    | cons y l ih =>
      intro acc
      rw [List.foldl_cons, List.foldl_cons, hl y List.mem_cons_self]
      exact ih (fun e he => hl e (List.mem_cons_of_mem _ he)) _
  rw [hfold _ hcat]
  exact ofMap_toMap hkeyed

end CatalogSet

theorem CatalogSet.Reachable.wf {s : CatalogSet} (hs : s.Reachable) (hc : ∀ x ∈ s.toList, x.2.Reachable) : s.WF :=
  let hk := hs.keyed
  ⟨hk.sorted, hk.clean, hk.keyed, fun e he => (hc (e.2.syncPath, e.2.catalog)
    (List.mem_map_of_mem (f := fun e : String × CatalogSlot => (e.2.syncPath, e.2.catalog)) he)).wf⟩

/-- **The wire form round-trips.** Every catalog the operations build, and
every catalog set they build from such catalogs, comes back unchanged from
its plain map and from its JSON object. A plain map of raw paths to records,
decoded and encoded again, comes back unchanged exactly when its paths are
clean and distinct once folded; otherwise decoding keeps, for each class of
paths, the byte-order-last raw path of the class, cleaned, with its record. -/
theorem catalog_wire_round_trip :
    (∀ c : PathCatalog, c.Reachable → PathCatalog.ofList c.toMap = c ∧ PathCatalog.ofJson c.toJson = c) ∧
    (∀ s : CatalogSet, s.Reachable → (∀ x ∈ s.toList, x.2.Reachable) →
      CatalogSet.ofMap s.toMap = s ∧ CatalogSet.ofJson s.toJson = s) ∧
    ∀ m : KeyMap FileRecord, KeyMap.Sorted m →
      ((PathCatalog.ofList m).toMap = m ↔
        (∀ k ∈ m.map Prod.fst, '\\' ∉ k.toList ∧ k.toList.head? ≠ some '/' ∧ k.toList.getLast? ≠ some '/') ∧
          (m.map fun e => Path.foldKey e.1).Nodup) ∧
      ∀ q, (PathCatalog.ofList m).entry q =
        ((m.filter fun e => catalogKey e.1 = catalogKey q).getLast?).map fun e => ⟨cleanKeyPath e.1, e.2⟩ :=
  ⟨fun _ hc => ⟨PathCatalog.ofList_toMap hc.wf, PathCatalog.ofJson_toJson hc.wf⟩,
    fun _ hs hc => ⟨CatalogSet.ofMap_toMap hs.keyed, CatalogSet.ofJson_toJson (hs.wf hc)⟩,
    fun _ hm => ⟨PathCatalog.toMap_ofList_eq_iff hm, PathCatalog.entry_ofList _⟩⟩

/-- The stored form of a set holding one catalog with one empty directory
reads back as the set, and of two raw spellings of one class decoding keeps
the byte-order-last. -/
theorem catalog_wire_round_trip_user_mods :
    CatalogSet.ofJson (CatalogSet.empty.insert "user/mods"
        (PathCatalog.empty.insert "user/mods/x/empty" .directory).1).1.toJson =
      (CatalogSet.empty.insert "user/mods" (PathCatalog.empty.insert "user/mods/x/empty" .directory).1).1 ∧
    (PathCatalog.ofList [("A/b", FileRecord.file "1"), ("a/B", FileRecord.file "2")]).entry "a/b" =
      some ⟨"a/B", FileRecord.file "2"⟩ := by
  have hc : (PathCatalog.empty.insert "user/mods/x/empty" .directory).1.Reachable := .insert _ _ .empty
  have hlist : (CatalogSet.empty.insert "user/mods" (PathCatalog.empty.insert "user/mods/x/empty" .directory).1).1.toList =
      [("user/mods", (PathCatalog.empty.insert "user/mods/x/empty" .directory).1)] := by decide
  have hnested : ∀ x ∈ (CatalogSet.empty.insert "user/mods"
      (PathCatalog.empty.insert "user/mods/x/empty" .directory).1).1.toList, x.2.Reachable := by
    intro x hx
    rw [hlist, List.mem_singleton] at hx
    rw [hx]
    exact hc
  have hsorted : KeyMap.Sorted [("A/b", FileRecord.file "1"), ("a/B", FileRecord.file "2")] := by
    unfold KeyMap.Sorted
    decide
  refine ⟨(catalog_wire_round_trip.2.1 _ (.insert _ _ .empty) hnested).2, ?_⟩
  rw [(catalog_wire_round_trip.2.2 _ hsorted).2]
  decide

end ModMirror
