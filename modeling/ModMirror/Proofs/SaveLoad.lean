import Mathlib
import ModMirror.Proofs.PrettyText
import ModMirror.Proofs.Frame

/-!
# Saved state files load back

A state file is saved as pretty JSON, next to a lock file, inside the
directories made on the way. On a well-formed tree at a plain path the save
changes nothing else, and loading the file afterwards reads the text back:

    t.WF → codec.save t p v = .ok t' →
      codec.loadIfExists t' p = .ok (some (codec.ofJson (codec.toJson v)))

for paths that name the JSON format and values whose pretty text reads back
at the codec's shape (`Json.ReadsBack`). Stored catalog sets and string lists
are such values.
-/

namespace ModMirror

open Json

/-! ## Stored forms read back -/

theorem readsBack_fileRecord (r : FileRecord) {depth : Nat} (hdepth : 1 < depth) (d : Nat) :
    ReadsBack FileRecord.shape depth d r.toJson := by
  apply readsBack_record hdepth
  · intro e he
    simp only [List.mem_cons, List.not_mem_nil, or_false] at he
    rcases he with rfl | rfl
    · exact ⟨_, rfl, rfl, readsBack_text _ _ _ _⟩
    · exact ⟨_, rfl, rfl, readsBack_bool _ _ _⟩
  · simp
  · rfl

theorem sorted_map_values {α : Type} {m : KeyMap α} (hm : KeyMap.Sorted m) (g : α → Json) :
    KeyMap.Sorted (m.map fun e => (e.1, g e.2)) :=
  List.pairwise_map.mpr hm

theorem readsBack_pathCatalog (c : PathCatalog) {depth : Nat} (hdepth : 2 < depth) (d : Nat) :
    ReadsBack PathCatalog.shape depth d c.toJson := by
  rw [PathCatalog.toJson_eq]
  apply readsBack_dict (by omega) (sorted_map_values (KeyMap.sorted_collect _) _)
  intro e he
  obtain ⟨x, -, rfl⟩ := List.mem_map.mp he
  exact readsBack_fileRecord x.2 (by omega) (d + 1)

theorem readsBack_catalogSet (s : CatalogSet) {depth : Nat} (hdepth : 3 < depth) (d : Nat) :
    ReadsBack CatalogSet.shape depth d s.toJson := by
  rw [CatalogSet.toJson_eq]
  apply readsBack_dict (by omega) (sorted_map_values (KeyMap.sorted_collect _) _)
  intro e he
  obtain ⟨x, -, rfl⟩ := List.mem_map.mp he
  exact readsBack_pathCatalog x.2 (by omega) (d + 1)

theorem readsBack_strings (exp : String) (xs : List String) {depth : Nat} (hdepth : 1 < depth) (d : Nat) :
    ReadsBack (.list (.text exp)) depth d (Json.ofStrings xs) := by
  apply readsBack_list hdepth
  · intro v hv
    obtain ⟨x, -, rfl⟩ := List.mem_map.mp hv
    exact readsBack_text exp _ _ x
  · intro v hv
    obtain ⟨x, -, rfl⟩ := List.mem_map.mp hv
    exact ⟨34, _, bytesOf_quote x, by decide, by decide⟩

theorem toList_renderAt_obj (d : Nat) (fs : List (String × Json)) :
    ∃ rest, (renderAt d (.obj fs)).toList = '{' :: rest := by
  cases fs with
  | nil => exact ⟨['}'], by simp [renderAt]⟩
  | cons f fs => exact ⟨_, by simp [renderAt]; rfl⟩

theorem toList_renderAt_arr (d : Nat) (vs : List Json) :
    ∃ rest, (renderAt d (.arr vs)).toList = '[' :: rest := by
  cases vs with
  | nil => exact ⟨[']'], by simp [renderAt]⟩
  | cons v vs => exact ⟨_, by simp [renderAt]; rfl⟩

theorem Codec.parse_json_of_readText {α : Type} (c : Codec α) (p : String) {text : String} {x : Char}
    {rest : List Char} (hx : x ≠ '\uFEFF') (h : text.toList = x :: rest) {j : Json}
    (hr : Json.readText c.shape text = .ok j) : c.parse .json p text = .ok (c.ofJson j) := by
  unfold Codec.parse
  rw [h]
  simp [hx, hr]

theorem Codec.parse_eq_ok {α : Type} {c : Codec α} {fmt : ConfigFormat} {p text : String} {v : α}
    (h : c.parse fmt p text = .ok v) : ∃ j, v = c.ofJson j := by
  unfold Codec.parse at h
  -- both formats read a document and convert it; a text that does not read is an error
  cases fmt with
  | json =>
    dsimp only at h
    split at h
    · cases h
      exact ⟨_, rfl⟩
    · cases h
  | toml =>
    dsimp only at h
    split at h
    · cases h
      exact ⟨_, rfl⟩
    · cases h

theorem Codec.load_eq_ok {α : Type} {c : Codec α} {t : FileTree} {p : NormalPath} {v : α}
    (h : c.load t p = .ok v) : ∃ j, v = c.ofJson j := by
  unfold Codec.load at h
  cases hf : ConfigFormat.ofPath p <;> cases hr : readText t p.text <;>
    simp only [hf, hr, bind, Except.bind, reduceCtorEq] at h
  exact Codec.parse_eq_ok h

theorem stringListCodec_ofJson_toJson (xs : List String) :
    stringListCodec.ofJson (stringListCodec.toJson xs) = xs := by
  simp only [stringListCodec, Json.ofStrings, Json.arr?, Option.getD_some, List.filterMap_map]
  exact List.filterMap_some


end ModMirror

namespace ModMirror
namespace FileTree

section Files

variable {t t' : FileTree} (ht : t.WF) {D : List String} (hD : ∀ x ∈ D, PlainName x)
include ht hD

theorem WF.resolve_nativeOf_of_find? {node : Node} (h : t.find? D = some node) (follow : Bool) :
    t.resolve (nativeOf D) follow = .ok D :=
  ht.resolve_nativeOf_of_some hD (ht.noFileAbove_of_find? h) follow h

theorem WF.loadIfExists_of_file {α : Type} {codec : Codec α} {p : NormalPath} (hp : p.text = nativeOf D)
    {text : String} (hf : t.find? D = some (.file text.toUTF8)) :
    codec.loadIfExists t p = (do let fmt ← ConfigFormat.ofPath p; codec.parse fmt p.text text).map some := by
  unfold Codec.loadIfExists Codec.load readText
  rw [hp, ht.pathExists_nativeOf hD hf, if_pos rfl, ht.readFile_nativeOf hD hf]
  simp only [Json.fromUTF8?_toUTF8]
  rfl

theorem WF.loadIfExists_congr {t₂ : FileTree} (ht₂ : t₂.WF) {α : Type} {codec : Codec α} {p : NormalPath}
    (hp : p.text = nativeOf D) (h : t₂.find? D = t.find? D) : codec.loadIfExists t₂ p = codec.loadIfExists t p := by
  unfold Codec.loadIfExists Codec.load readText
  rw [hp]
  cases hE : t.find? D with
  | none =>
    rw [ht.pathExists_of_find?_none hD hE, ht₂.pathExists_of_find?_none hD (h.trans hE)]
    simp only [Bool.false_eq_true, if_false]
  | some node =>
    rw [ht.pathExists_nativeOf hD hE, ht₂.pathExists_nativeOf hD (h.trans hE)]
    have hread : t₂.readFile (nativeOf D) = t.readFile (nativeOf D) := by
      unfold readFile
      rw [ht.resolve_nativeOf_of_find? hD hE, ht₂.resolve_nativeOf_of_find? hD (h.trans hE)]
      simp only [bind, Except.bind, h]
    rw [hread]

/-- A value saved as JSON loads back as what its pretty text reads as; the
save changes nothing but the missing parents and the lock beside the file. -/
theorem WF.loadIfExists_save_json {α : Type} {codec : Codec α} {p : NormalPath} {n : String} (hn : PlainName n)
    (hp : p.text = nativeOf (D ++ [n])) (hfmt : ConfigFormat.ofPath p = .ok .json) {v : α}
    (hback : Json.ReadsBack codec.shape 128 0 (codec.toJson v)) {x : Char} {rest : List Char} (hx : x ≠ '\uFEFF')
    (hstart : (Json.renderPretty (codec.toJson v)).toList = x :: rest) (h : codec.save t p v = .ok t') :
    t'.WF ∧ codec.loadIfExists t' p = .ok (some (codec.ofJson (codec.toJson v))) ∧
      ∀ E, ¬ E <+: D → E ≠ D ++ [n] → E ≠ D ++ [n ++ ".lock"] → t'.find? E = t.find? E := by
  obtain ⟨fmt, text, hf, hr, ht', hfind, hframe⟩ := ht.save_spec hD hn hp h
  rw [hfmt] at hf
  cases hf
  have htext : text = Json.renderPretty (codec.toJson v) := by
    simp only [Codec.render, Except.ok.injEq] at hr
    exact hr.symm
  subst htext
  refine ⟨ht', ?_, hframe⟩
  rw [ht'.loadIfExists_of_file (plain_append hD (by simpa using hn)) hp hfind, hfmt]
  simp only [bind, Except.bind, Codec.parse_json_of_readText codec _ hx hstart (Json.readText_renderPretty hback),
    Except.map]

end Files

end FileTree

open Text

theorem lastSegment_keyChars {names : List String} (hne : names ≠ []) (h : ∀ n ∈ names, PlainName n) :
    NormalPath.lastSegment (keyChars names) = (names.getLast hne).toList := by
  unfold NormalPath.lastSegment
  rw [trimEnd_of_getLast (getLast?_keyChars_ne hne h), splitOn_keyChars hne (no_slash_of_plain h),
    List.getLast?_map, List.getLast?_eq_some_getLast hne]
  rfl

theorem ofPath_nativeOf {D : List String} (hD : ∀ x ∈ D, PlainName x) {n : String} (hn : PlainName n) :
    ConfigFormat.ofPath ⟨nativeOf (D ++ [n])⟩ = ConfigFormat.ofPath ⟨n⟩ := by
  have hall : ∀ x ∈ treeRoot :: (D ++ [n]), PlainName x := plain_cons_root (plain_append hD (by simpa using hn))
  have hn1 : NormalPath.lastSegment n.toList = n.toList := by
    rw [← keyChars_singleton, lastSegment_keyChars (List.cons_ne_nil _ _) (by simpa using hn)]
    rfl
  have hlast : NormalPath.lastSegment (nativeOf (D ++ [n])).toList = NormalPath.lastSegment n.toList := by
    rw [nativeOf_toList, lastSegment_keyChars (List.cons_ne_nil _ _) hall, hn1]
    simp
  unfold ConfigFormat.ofPath NormalPath.extension
  rw [hlast]

end ModMirror
