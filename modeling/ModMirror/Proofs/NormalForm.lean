import ModMirror.Proofs.Exclusion

/-!
# The normal form of a path

`NormalPath.ofString` cleans a text into a root followed by plain names joined
by `/`: the *normal shape* (`normalShape_clean`). A text of that shape has no
backslash, no doubled separator after a leading network root and no `.` or `..`
segment. Cleaning it again leaves it as it is, except when it is a *bare
drive*: a relative text whose first segment starts with a letter and a colon
with no separator after them, such as the `C:x` that `./C:x` cleans to. The
root reader then takes `C:` for a drive and gives `C:/x`.

    clean n = n ↔ bareDrive n = false           for n of the normal shape  (clean_eq_self_iff)
-/

namespace ModMirror.Path

open Text

/-! ## Texts of plain names -/

/-- A text made of plain names joined by `/`: every piece between separators is plain. -/
def PlainSegs (t : List Char) : Prop := ∀ seg ∈ t.splitOn '/', PlainSeg seg

/-- The empty text, or plain names joined by `/`. -/
def PlainText (t : List Char) : Prop := t = [] ∨ PlainSegs t

/-- A root as the reader gives it: a drive only at an ASCII letter. -/
def Root.lettered : Root → Bool
  | .drive c => c.isAlpha
  | _ => true

/-- The shape of every cleaned text: a root in front of a text of plain names. -/
def NormalShape (n : List Char) : Prop :=
  ∃ (root : Root) (body : List Char), root.lettered = true ∧ PlainText body ∧ n = root.render body

/-- A relative text that starts with a letter and a colon with no separator after them. -/
def bareDrive : List Char → Bool
  | x :: ':' :: rest => x.isAlpha && rest.head? != some '/'
  | _ => false

theorem bareDrive_eq_true_iff {n : List Char} :
    bareDrive n = true ↔ ∃ x rest, n = x :: ':' :: rest ∧ x.isAlpha = true ∧ rest.head? ≠ some '/' := by
  constructor
  · intro h
    unfold bareDrive at h
    split at h
    · simp only [Bool.and_eq_true, bne_iff_ne] at h
      exact ⟨_, _, rfl, h.1, h.2⟩
    · cases h
  · rintro ⟨x, rest, rfl, hx, hr⟩
    simp [bareDrive, hx, hr]

theorem joinWith_splitOn (t : List Char) : joinWith '/' (t.splitOn '/') = t := by
  rw [joinWith_eq_intercalate, List.intercalate_splitOn]

theorem mem_joinWith {sep c : Char} : ∀ {ps : List (List Char)}, c ∈ joinWith sep ps →
    c = sep ∨ ∃ p ∈ ps, c ∈ p
  | [], h => by simp [joinWith] at h
  | [p], h => .inr ⟨p, List.mem_singleton_self p, h⟩
  | p :: q :: ps, h => by
    have hj : joinWith sep (p :: q :: ps) = p ++ sep :: joinWith sep (q :: ps) := rfl
    rw [hj, List.mem_append, List.mem_cons] at h
    rcases h with h | rfl | h
    · exact .inr ⟨p, List.mem_cons_self, h⟩
    · exact .inl rfl
    · rcases mem_joinWith h with h | ⟨r, hr, hc⟩
      · exact .inl h
      · exact .inr ⟨r, List.mem_cons_of_mem _ hr, hc⟩

theorem plainSegs_nil : ¬ PlainSegs [] := fun h => (h [] (by simp)).1 rfl

theorem plainSegs_append_slash {a b : List Char} : PlainSegs (a ++ '/' :: b) ↔ PlainSegs a ∧ PlainSegs b := by
  simp only [PlainSegs, List.splitOn_append_cons_self, List.forall_mem_append]

theorem plainSegs_joinWith {segs : List (List Char)} (hne : segs ≠ []) (h : ∀ s ∈ segs, PlainSeg s) :
    PlainSegs (joinWith '/' segs) := by
  rw [PlainSegs, joinWith_eq_intercalate, List.splitOn_intercalate _ (fun l hl => (h l hl).2.2.2.1) hne]
  exact h

theorem plainText_joinWith {segs : List (List Char)} (h : ∀ s ∈ segs, PlainSeg s) : PlainText (joinWith '/' segs) := by
  cases segs with
  | nil => exact .inl rfl
  | cons s ss => exact .inr (plainSegs_joinWith (List.cons_ne_nil s ss) h)

namespace PlainSegs

variable {t : List Char}

theorem ne_nil (h : PlainSegs t) : t ≠ [] := by
  rintro rfl
  exact plainSegs_nil h

theorem head?_ne_slash (h : PlainSegs t) : t.head? ≠ some '/' := by
  intro hh
  obtain ⟨r, rfl⟩ : ∃ r, t = '/' :: r := by
    cases t with
    | nil => simp at hh
    | cons c r => exact ⟨r, by simpa using hh⟩
  exact plainSegs_nil (plainSegs_append_slash (a := []).mp h).1

theorem getLast?_ne_slash (h : PlainSegs t) : t.getLast? ≠ some '/' := by
  intro hl
  obtain ⟨init, rfl⟩ : ∃ init, t = init ++ ['/'] := by
    obtain ⟨init, c, hc⟩ := (List.eq_nil_or_concat t).resolve_left h.ne_nil
    rw [hc, List.concat_eq_append, List.getLast?_concat] at hl
    exact ⟨init, by rw [hc, List.concat_eq_append, Option.some.inj hl]⟩
  exact plainSegs_nil (plainSegs_append_slash (b := []).mp h).2

theorem not_mem_backslash (h : PlainSegs t) : '\\' ∉ t := by
  intro hmem
  rw [← joinWith_splitOn t] at hmem
  rcases mem_joinWith hmem with h' | ⟨seg, hseg, hc⟩
  · exact absurd h' (by decide)
  · exact (h seg hseg).2.2.2.2 hc

theorem not_infix_slashSlash (h : PlainSegs t) : ¬ ['/', '/'] <:+: t := by
  rintro ⟨a, b, rfl⟩
  have h' : PlainSegs (a ++ '/' :: ('/' :: b)) := by simpa using h
  exact (plainSegs_append_slash.mp h').2.head?_ne_slash rfl

end PlainSegs

namespace PlainText

variable {t : List Char}

theorem head?_ne_slash (h : PlainText t) : t.head? ≠ some '/' := by
  rcases h with rfl | h
  · simp
  · exact h.head?_ne_slash

theorem not_mem_backslash (h : PlainText t) : '\\' ∉ t := by
  rcases h with rfl | h
  · simp
  · exact h.not_mem_backslash

theorem not_infix_slashSlash (h : PlainText t) : ¬ ['/', '/'] <:+: t := by
  rcases h with rfl | h
  · simp
  · exact h.not_infix_slashSlash

theorem segment_ne_dots (h : PlainText t) : ∀ seg ∈ t.splitOn '/', seg ≠ ['.'] ∧ seg ≠ ['.', '.'] := by
  rcases h with rfl | h
  · simp
  · intro seg hseg
    exact ⟨(h seg hseg).2.1, (h seg hseg).2.2.1⟩

theorem joinWith_resolve (h : PlainText t) : joinWith '/' (resolve t) = t := by
  rcases h with rfl | h
  · rfl
  · rw [resolve, resolveRev_plain h, List.append_nil, List.reverse_reverse, joinWith_splitOn]

end PlainText

/-! ## The root reader on rendered roots -/

theorem lettered_splitRoot (cs : List Char) : (splitRoot cs).1.lettered = true := by
  unfold splitRoot
  split
  · rfl
  · rfl
  · rfl
  · split
    · assumption
    · rfl
  · rfl

theorem trimStart_slash_cons {body : List Char} (h : body.head? ≠ some '/') :
    trimStart '/' ('/' :: body) = body := by
  show List.dropWhile _ ('/' :: body) = body
  rw [List.dropWhile_cons_of_pos (by simp)]
  exact trimStart_of_head h

theorem splitRoot_drive {x : Char} (hx : x.isAlpha = true) (r : List Char) :
    splitRoot (x :: ':' :: r) = (.drive x, trimStart '/' r) := by
  have hslash : x ≠ '/' := by
    rintro rfl
    simp at hx
  unfold splitRoot
  split <;> simp_all

theorem splitRoot_of_head {cs : List Char} (h1 : cs.head? ≠ some '/')
    (h2 : ∀ x rest, cs = x :: ':' :: rest → x.isAlpha = false) : splitRoot cs = (.none, cs) := by
  unfold splitRoot
  split
  · simp at h1
  · simp at h1
  · simp at h1
  · simp [h2 _ _ rfl]
  · rfl

/-- The reader gives a rendered root back, with the text after it, when that text does not
start with a separator; a relative text is the exception the next lemmas treat. -/
theorem splitRoot_render {root : Root} {body : List Char} (hr : root.lettered = true) (hroot : root ≠ .none)
    (hb : body.head? ≠ some '/') : splitRoot (root.render body) = (root, body) := by
  cases root with
  | none => exact absurd rfl hroot
  | slash =>
    cases body with
    | nil => rfl
    | cons c cs =>
      have hc : c ≠ '/' := fun e => hb (by rw [e]; rfl)
      simp [Root.render, splitRoot, hc, trimStart_of_head hb]
  | share =>
    cases body with
    | nil => rfl
    | cons c cs =>
      have hc : c ≠ '/' := fun e => hb (by rw [e]; rfl)
      simp [Root.render, splitRoot, hc]
  | drive x => rw [Root.render, splitRoot_drive hr, trimStart_slash_cons hb]

theorem clean_eq {raw rest : List Char} {root : Root} (h : splitRoot (unifySlashes raw) = (root, rest)) :
    clean raw = root.render (joinWith '/' (resolve rest)) := by
  simp [clean, h]

/-! ## Cleaned texts have the normal shape -/

theorem plain_resolveRev : ∀ {acc ss : List (List Char)}, (∀ s ∈ acc, PlainSeg s) →
    (∀ s ∈ ss, '/' ∉ s ∧ '\\' ∉ s) → ∀ s ∈ resolveRev acc ss, PlainSeg s
  | acc, [], hacc, _ => hacc
  | acc, s :: ss, hacc, hss => by
    have hrest : ∀ s ∈ ss, '/' ∉ s ∧ '\\' ∉ s := fun s' hs' => hss s' (List.mem_cons_of_mem _ hs')
    unfold resolveRev
    split_ifs with hdot hup
    · exact plain_resolveRev hacc hrest
    · exact plain_resolveRev (fun s' hs' => hacc s' (List.mem_of_mem_tail hs')) hrest
    · exact plain_resolveRev
        (List.forall_mem_cons.mpr ⟨plainSeg_of_not_dots hdot hup (hss s List.mem_cons_self), hacc⟩) hrest

theorem normalShape_clean (raw : List Char) : NormalShape (clean raw) := by
  rcases hsr : splitRoot (unifySlashes raw) with ⟨root, rest⟩
  have hback : '\\' ∉ rest := fun hx =>
    unifySlashes_no_backslash raw (mem_of_mem_splitRoot (by rw [hsr]; exact hx))
  have hsegs : ∀ s ∈ resolve rest, PlainSeg s := by
    intro s hs
    refine plain_resolveRev (by simp) ?_ s (List.mem_reverse.mp hs)
    intro w hw
    exact ⟨fun hx => (mem_of_mem_splitOn hw hx).2 rfl, fun hx => hback (mem_of_mem_splitOn hw hx).1⟩
  have hroot : root.lettered = true := by simpa [hsr] using lettered_splitRoot (unifySlashes raw)
  exact ⟨root, _, hroot, plainText_joinWith hsegs, clean_eq hsr⟩

/-! ## Properties of the normal shape -/

namespace NormalShape

variable {n : List Char}

theorem not_mem_backslash (h : NormalShape n) : '\\' ∉ n := by
  obtain ⟨root, body, hr, hb, rfl⟩ := h
  have hbody := hb.not_mem_backslash
  cases root with
  | none => exact hbody
  | slash => simpa [Root.render] using hbody
  | share => simpa [Root.render] using hbody
  | drive x =>
    have hx : x ≠ '\\' := by
      rintro rfl
      simp [Root.lettered] at hr
    simpa [Root.render, Ne.symm hx] using hbody

theorem not_infix_slashSlash (h : NormalShape n) : ¬ ['/', '/'] <:+: (stripPrefix? ['/', '/'] n).getD n := by
  obtain ⟨root, body, hr, hb, rfl⟩ := h
  have hhead := hb.head?_ne_slash
  have hinf := hb.not_infix_slashSlash
  have hpre : ¬ ['/'] <+: body := fun ⟨r, hr⟩ => hhead (by rw [← hr]; rfl)
  -- a separator in front of the body doubles nothing, since the body does not start with one
  have hcons : ¬ ['/', '/'] <:+: '/' :: body := by
    rw [List.infix_cons_iff, List.cons_prefix_cons]
    rintro (⟨-, hp⟩ | hi)
    · exact hpre hp
    · exact hinf hi
  have hstrip : stripPrefix? ['/', '/'] ('/' :: body) = none := by
    cases body with
    | nil => rfl
    | cons c cs =>
      have hc : c ≠ '/' := fun e => hhead (by rw [e]; rfl)
      simp [stripPrefix?, Ne.symm hc]
  cases root with
  | none =>
    have hnone : stripPrefix? ['/', '/'] body = none := by
      cases body with
      | nil => rfl
      | cons c cs =>
        have hc : c ≠ '/' := fun e => hhead (by rw [e]; rfl)
        simp [stripPrefix?, Ne.symm hc]
    simpa [Root.render, hnone] using hinf
  | slash => simpa [Root.render, hstrip] using hcons
  | share => simpa [Root.render, stripPrefix?] using hinf
  | drive x =>
    have hx : x ≠ '/' := by
      rintro rfl
      simp [Root.lettered] at hr
    simp only [Root.render, stripPrefix?, if_neg (Ne.symm hx), Option.getD_none, List.infix_cons_iff,
      List.cons_prefix_cons]
    simp [hpre, hinf]

theorem segment_ne_dots (h : NormalShape n) : ∀ seg ∈ n.splitOn '/', seg ≠ ['.'] ∧ seg ≠ ['.', '.'] := by
  obtain ⟨root, body, hr, hb, rfl⟩ := h
  have hbody := hb.segment_ne_dots
  cases root with
  | none => exact hbody
  | slash =>
    have hs : ('/' :: body).splitOn '/' = [] :: body.splitOn '/' := by
      rw [show '/' :: body = [] ++ '/' :: body from rfl, List.splitOn_append_cons_self]
      rfl
    simpa [Root.render, hs] using hbody
  | share =>
    have hs : ('/' :: '/' :: body).splitOn '/' = [] :: [] :: body.splitOn '/' := by
      rw [show '/' :: '/' :: body = [] ++ '/' :: ([] ++ '/' :: body) from rfl, List.splitOn_append_cons_self,
        List.splitOn_append_cons_self]
      rfl
    simpa [Root.render, hs] using hbody
  | drive x =>
    have hx : x ≠ '/' := by
      rintro rfl
      simp [Root.lettered] at hr
    have hs : (x :: ':' :: '/' :: body).splitOn '/' = [x, ':'] :: body.splitOn '/' := by
      have hnot : '/' ∉ [x, ':'] := by simp [Ne.symm hx]
      simpa using List.splitOn_append_cons_self_of_not_mem hnot body
    simpa [Root.render, hs] using hbody

end NormalShape

/-! ## Cleaning twice -/

theorem clean_ne_of_bareDrive {n : List Char} (h : bareDrive n = true) : clean n ≠ n := by
  obtain ⟨x, rest, rfl, hx, hrest⟩ := bareDrive_eq_true_iff.mp h
  have hxs : slashOf x = x := by
    have : x ≠ '\\' := by
      rintro rfl
      simp at hx
    simp [slashOf, this]
  have hu : unifySlashes (x :: ':' :: rest) = x :: ':' :: unifySlashes rest := by
    simp only [unifySlashes, List.map_cons, hxs]
    rfl
  have hsplit : splitRoot (unifySlashes (x :: ':' :: rest)) =
      (.drive x, trimStart '/' (unifySlashes rest)) := by
    rw [hu, splitRoot_drive hx]
  rw [clean_eq hsplit, Root.render]
  intro he
  cases rest with
  | nil => simp at he
  | cons c cs =>
    simp only [List.cons.injEq, true_and] at he
    exact hrest (by rw [← he.1]; rfl)

theorem clean_of_normalShape {n : List Char} (h : NormalShape n) (hbare : bareDrive n = false) : clean n = n := by
  have hback := h.not_mem_backslash
  obtain ⟨root, body, hr, hb, rfl⟩ := h
  rw [clean, unifySlashes_of_no_backslash hback]
  by_cases hroot : root = .none
  · subst hroot
    simp only [Root.render] at hbare ⊢
    by_cases hdrive : ∃ x rest, body = x :: ':' :: rest ∧ x.isAlpha = true
    · -- a relative text of plain names starting with a drive segment `x:` alone reads as that drive
      obtain ⟨x, rest, rfl, hx⟩ := hdrive
      have hrest : rest.head? = some '/' := by simpa [bareDrive, hx] using hbare
      obtain ⟨r, rfl⟩ : ∃ r, rest = '/' :: r := by
        cases rest with
        | nil => simp at hrest
        | cons c r => exact ⟨r, by simpa using hrest⟩
      have hsegs : PlainSegs r := by
        rcases hb with hnil | hb
        · cases hnil
        · exact (plainSegs_append_slash (a := [x, ':']).mp hb).2
      simp only [splitRoot_drive hx, trimStart_slash_cons hsegs.head?_ne_slash,
        PlainText.joinWith_resolve (Or.inr hsegs)]
    · have hnone : splitRoot body = (.none, body) := by
        refine splitRoot_of_head hb.head?_ne_slash fun x rest he => ?_
        simpa using fun hx => hdrive ⟨x, rest, he, hx⟩
      simp only [hnone, hb.joinWith_resolve]
  · simp only [splitRoot_render hr hroot hb.head?_ne_slash, hb.joinWith_resolve]

/-- Cleaning a text of the normal shape changes it exactly when it is a bare drive. -/
theorem clean_eq_self_iff {n : List Char} (h : NormalShape n) : clean n = n ↔ bareDrive n = false := by
  constructor
  · intro he
    cases hbare : bareDrive n
    · rfl
    · exact absurd he (clean_ne_of_bareDrive hbare)
  · exact clean_of_normalShape h

end ModMirror.Path

namespace ModMirror.NormalPath

open ModMirror.Text ModMirror.Path

theorem ofString_idem_iff (s : String) :
    ofString (ofString s).text = ofString s ↔ bareDrive (ofString s).text.toList = false := by
  have hn : (ofString s).text.toList = clean s.toList := String.toList_ofList
  rw [hn, ← clean_eq_self_iff (normalShape_clean s.toList)]
  show (⟨String.ofList (clean (String.ofList (clean s.toList)).toList)⟩ : NormalPath) =
    ⟨String.ofList (clean s.toList)⟩ ↔ _
  rw [String.toList_ofList, NormalPath.mk.injEq]
  exact ⟨fun h => by simpa using congrArg String.toList h, fun h => by rw [h]⟩

/-- A normalized path has no backslash, no doubled separator but a leading network root and no
dot segment, and normalizing it again leaves it as it is exactly when it is no bare drive. -/
theorem ofString_normal_form (s : String) :
    '\\' ∉ (ofString s).text.toList ∧
      ¬ ['/', '/'] <:+: (stripPrefix? ['/', '/'] (ofString s).text.toList).getD (ofString s).text.toList ∧
      (∀ seg ∈ (ofString s).text.toList.splitOn '/', seg ≠ ['.'] ∧ seg ≠ ['.', '.']) ∧
      (ofString (ofString s).text = ofString s ↔ bareDrive (ofString s).text.toList = false) := by
  have hshape := normalShape_clean s.toList
  have hn : (ofString s).text.toList = clean s.toList := String.toList_ofList
  refine ⟨?_, ?_, ?_, ofString_idem_iff s⟩ <;> rw [hn]
  exacts [hshape.not_mem_backslash, hshape.not_infix_slashSlash, hshape.segment_ne_dots]

/-- `./C:x` normalizes to the bare drive `C:x`, which normalizes on to `C:/x`. -/
example : ofString "./C:x" = ⟨"C:x"⟩ ∧ ofString "C:x" = ⟨"C:/x"⟩ := by decide

end ModMirror.NormalPath
